import Mathlib
import RemoteControl.Plugin.Shutdown

/-!
# Finalize on Windows

There `JoinPumpingMessages` dispatches the main thread's messages while it joins the
watcher, the timer or a listener, so that tasks asked for meanwhile are run. It waits in
`MsgWaitForMultipleObjects`, which wakes for input that has come since the queue was last
examined, then removes messages until `PeekMessage` finds none, and posts a `WM_QUIT` it
has removed again when the thread has ended.

* `pumping_finalizes`: where no task was left behind in the queue, `Finalize` comes to its
  end.
* `blocked_waits`: a task that was, keeps a join waiting until another message comes.
* `quit_kept`: a `WM_QUIT` is there again after the join.
-/

namespace RemoteControl.Plugin

open Transition

/-- The joins that pump messages. -/
def MainThread.pumps : MainThread → Bool
  | .joiningWatcher | .joiningTimer | .closing _ => true
  | .messageLoop | .joiningNotifications | .stoppingEvents | .closingAll | .joiningDiscovery
  | .finalized => false

/-- The plugin with the main thread's message queue, in which every task that waits has a
message. -/
structure Windows where
  system : System := {}
  /-- A message has come since the queue was last examined. -/
  fresh : Bool := false
  /-- The join is in its inner loop. -/
  draining : Bool := false
  /-- A `WM_QUIT` is in the queue; `quitSeen` of the join. -/
  quitQueued : Bool := false
  quitSeen : Bool := false

inductive WindowsAction
  | plugin (a : Action)
  /-- Any other message comes, or a `WM_QUIT`. -/
  | input (quit : Bool)
  /-- `MsgWaitForMultipleObjects` returns for the input. -/
  | wake
  /-- `PeekMessage` finds a `WM_QUIT`, or nothing. -/
  | takeQuit
  | drained
  /-- The message loop takes the `WM_QUIT`. -/
  | loopQuit

namespace Windows

/-- A pumping join is over. -/
def leaveJoin (w : Windows) (s : System) : Windows :=
  { w with
    system := s
    fresh := w.fresh || w.quitSeen
    quitQueued := w.quitQueued || w.quitSeen
    quitSeen := false }

/-- Whether the main thread takes messages from its queue. -/
def dispatches (w : Windows) : Bool := decide (w.system.main = .messageLoop) || w.draining

def step (w : Windows) : WindowsAction → Option Windows
  | .plugin .finalize =>
    if w.system.main.pumps then
      if w.draining then none else w.system.finalize.map w.leaveJoin
    else
      w.system.finalize.map fun s =>
        -- the message that led here was taken from the queue
        { w with system := s, fresh := w.fresh && decide (w.system.main ≠ .messageLoop) }
  | .plugin (.runTask listener) =>
    if w.dispatches then
      (w.system.move listener .waitingTask .running).map fun s =>
        { w with system := s, fresh := false }
    else none
  | .plugin .runTimerTask =>
    if w.dispatches ∧ w.system.timer = .waitingTask then
      some { w with system := { w.system with timer := .waiting }, fresh := false }
    else none
  | .plugin (.runOnMainThread listener) =>
    (w.system.step (.runOnMainThread listener)).map fun s => { w with system := s, fresh := true }
  | .plugin .timerRunOnMainThread =>
    (w.system.step .timerRunOnMainThread).map fun s => { w with system := s, fresh := true }
  | .plugin .notificationsExit =>
    if w.system.notifications then
      (w.system.step .notificationsExit).map fun s => { w with system := s }
    else none
  | .plugin .discoveryExit =>
    if w.system.discovery then (w.system.step .discoveryExit).map fun s => { w with system := s }
    else none
  | .plugin a => (w.system.step a).map fun s => { w with system := s }
  | .input quit => some { w with fresh := true, quitQueued := w.quitQueued || quit }
  | .wake =>
    if w.system.main.pumps ∧ w.draining = false ∧ w.fresh then
      some { w with draining := true, fresh := false }
    else none
  | .takeQuit =>
    if w.draining ∧ w.quitQueued then
      some { w with quitQueued := false, quitSeen := true, fresh := false }
    else none
  | .drained =>
    if w.draining ∧ w.quitQueued = false ∧ w.system.NoTask then
      some { w with draining := false, fresh := false }
    else none
  | .loopQuit =>
    if w.system.main = .messageLoop ∧ w.quitQueued then
      some { w with quitQueued := false, fresh := false }
    else none

end Windows

/-- The steps that bring `Finalize` on: those of a thread that does what it was told, and
not what the network, a client or a handler may still begin. -/
def Action.completes : Action → Bool
  | .finalize | .notificationsExit | .discoveryExit | .listsRead | .discoveryReplied
  | .listenerClosed | .endPass | .watcherExit | .timerRunOnMainThread | .timerFired | .timerExit
  | .pollReturns _ | .respond _ | .runTask _ | .runTimerTask => true
  | .beginPass | .openListener _ | .closeListener _ | .timerFire | .request _
  | .runOnMainThread _ | .poll _ => false

def WindowsAction.completes : WindowsAction → Bool
  | .plugin a => a.completes
  | .wake | .takeQuit | .drained => true
  | .input _ | .loopQuit => false

/-- The steps that put no message into the queue. -/
def WindowsAction.quiet : WindowsAction → Bool
  | .plugin (.runOnMainThread _) | .plugin .timerRunOnMainThread | .input _ => false
  | _ => true

namespace Windows

/-- Every task that waits will be found by the join: one has come since the queue was last
examined, or the queue is being emptied. -/
def Good (w : Windows) : Prop := w.system.NoTask ∨ w.fresh = true ∨ w.draining = true

end Windows

/-! ## What is known past the joins -/

/-- The points of `Finalize` at which the watcher has been joined. -/
def MainThread.PastWatcher : MainThread → Prop
  | .messageLoop | .joiningNotifications | .joiningWatcher => False
  | _ => True

structure Begun (s : System) : Prop where
  stopping : s.main = .joiningWatcher → s.watcherStopping = true
  timer : s.main = .joiningTimer → s.timerStopped = true
  watcher : s.main.PastWatcher → s.watcher = .exited
  closing : ∀ listener, s.main = .closing listener → listener ∈ s.listeners

variable {s t : System}

theorem Begun.finalize (h : Begun s) (hst : s.finalize = some t) : Begun t := by
  unfold System.finalize at hst
  cases hmain : s.main with
  | messageLoop =>
    simp only [hmain] at hst
    cases hst
    exact ⟨nofun, nofun, fun hp => hp.elim, nofun⟩
  | joiningNotifications =>
    simp only [hmain] at hst
    split at hst <;> cases hst
    exact ⟨fun _ => rfl, nofun, fun hp => hp.elim, nofun⟩
  | joiningWatcher =>
    simp only [hmain] at hst
    split at hst <;> cases hst
    next hexited => exact ⟨nofun, fun _ => rfl, fun _ => hexited, nofun⟩
  | joiningTimer =>
    have hexited := h.watcher (by rw [hmain]; trivial)
    simp only [hmain] at hst
    split at hst <;> cases hst
    exact ⟨nofun, nofun, fun _ => hexited, nofun⟩
  | stoppingEvents =>
    have hexited := h.watcher (by rw [hmain]; trivial)
    simp only [hmain] at hst
    cases hst
    exact ⟨nofun, nofun, fun _ => hexited, nofun⟩
  | closingAll =>
    have hexited := h.watcher (by rw [hmain]; trivial)
    simp only [hmain] at hst
    split at hst <;> cases hst
    · exact ⟨nofun, nofun, fun _ => hexited, nofun⟩
    · next hlisteners =>
      refine ⟨nofun, nofun, fun _ => hexited, fun other hother => ?_⟩
      cases hother
      rw [hlisteners]
      exact List.mem_cons_self
  | closing listener | joiningDiscovery =>
    have hexited := h.watcher (by rw [hmain]; trivial)
    simp only [hmain] at hst
    split at hst <;> cases hst
    exact ⟨nofun, nofun, fun _ => hexited, nofun⟩
  | finalized =>
    simp only [hmain] at hst
    cases hst

/-- A step that leaves the main thread and the watcher's listeners alone. -/
theorem Begun.of_eq (h : Begun s) (hmain : t.main = s.main)
    (hstopping : t.watcherStopping = s.watcherStopping) (htimer : t.timerStopped = s.timerStopped)
    (hwatcher : s.watcher = .exited → t.watcher = .exited ∧ t.listeners = s.listeners) :
    Begun t where
  stopping hm := by
    rw [hstopping]
    exact h.stopping (hmain ▸ hm)
  timer hm := by
    rw [htimer]
    exact h.timer (hmain ▸ hm)
  watcher hp := (hwatcher (h.watcher (hmain ▸ hp))).1
  closing listener hm := by
    rw [hmain] at hm
    rw [(hwatcher (h.watcher (by rw [hm]; trivial))).2]
    exact h.closing listener hm

theorem move_eq_some {listener : Nat} {before after : Doing}
    (hst : s.move listener before after = some t) :
    ⟨listener, before⟩ ∈ s.handlers ∧
      t = { s with handlers := ⟨listener, after⟩ :: s.handlers.erase ⟨listener, before⟩ } := by
  unfold System.move at hst
  split at hst <;> cases hst
  next hmem => exact ⟨hmem, rfl⟩

theorem Begun.step {a : Action} (h : Begun s) (hst : s.step a = some t) : Begun t := by
  cases a with
  | finalize => exact h.finalize hst
  | notificationsExit | discoveryExit | timerFire | timerRunOnMainThread | timerFired | timerExit
  | request | respond | runTimerTask =>
    simp only [System.step] at hst
    split at hst <;> cases hst
    exact h.of_eq rfl rfl rfl fun hexited => ⟨hexited, rfl⟩
  | runOnMainThread | poll | pollReturns =>
    obtain ⟨-, rfl⟩ := move_eq_some hst
    exact h.of_eq rfl rfl rfl fun hexited => ⟨hexited, rfl⟩
  | runTask =>
    simp only [System.step] at hst
    split at hst
    · obtain ⟨-, rfl⟩ := move_eq_some hst
      exact h.of_eq rfl rfl rfl fun hexited => ⟨hexited, rfl⟩
    · cases hst
  | beginPass | listsRead | discoveryReplied | endPass | watcherExit =>
    simp only [System.step] at hst
    split at hst <;> cases hst
    next hwatcher =>
      refine h.of_eq rfl rfl rfl fun hexited => ?_
      simp [hexited] at hwatcher
  | openListener | closeListener =>
    simp only [System.step] at hst
    split at hst <;> cases hst
    next hwatcher =>
      refine h.of_eq rfl rfl rfl fun hexited => ?_
      simp [hexited] at hwatcher
  | listenerClosed =>
    simp only [System.step] at hst
    split at hst
    · next hwatcher =>
      split at hst <;> cases hst
      refine h.of_eq rfl rfl rfl fun hexited => ?_
      simp [hexited] at hwatcher
    · cases hst

theorem step_main {a : Action} (ha : a ≠ .finalize) (hst : s.step a = some t) :
    t.main = s.main := by
  cases a with
  | finalize => exact absurd rfl ha
  | runOnMainThread | poll | pollReturns =>
    obtain ⟨-, rfl⟩ := move_eq_some hst
    rfl
  | runTask =>
    simp only [System.step] at hst
    split at hst
    · obtain ⟨-, rfl⟩ := move_eq_some hst
      rfl
    · cases hst
  | listenerClosed =>
    simp only [System.step] at hst
    split at hst
    · split at hst <;> cases hst
      rfl
    · cases hst
  | notificationsExit | discoveryExit | beginPass | listsRead | discoveryReplied | openListener
  | closeListener | endPass | watcherExit | timerFire | timerRunOnMainThread | timerFired
  | timerExit | request | respond | runTimerTask =>
    simp only [System.step] at hst
    split at hst <;> cases hst
    rfl

/-- Only a call of `RunOnMainThread` adds a task. -/
theorem NoTask.step {a : Action} (h : s.NoTask) (hrun : ∀ listener, a ≠ .runOnMainThread listener)
    (htimer : a ≠ .timerRunOnMainThread) (hst : s.step a = some t) : t.NoTask := by
  have hmove : ∀ {listener before after}, after ≠ .waitingTask →
      s.move listener before after = some t → t.NoTask := by
    intro listener before after hafter hst
    obtain ⟨-, rfl⟩ := move_eq_some hst
    refine ⟨fun x hx => ?_, h.2⟩
    rcases List.mem_cons.mp hx with rfl | hx
    · exact hafter
    · exact h.1 x (List.mem_of_mem_erase hx)
  cases a with
  | runOnMainThread listener => exact absurd rfl (hrun listener)
  | timerRunOnMainThread => exact absurd rfl htimer
  | finalize =>
    simp only [System.step] at hst
    unfold System.finalize at hst
    split at hst
    · cases hst
      exact h
    · split at hst <;> cases hst
      exact h
    · split at hst <;> cases hst
      exact h
    · split at hst <;> cases hst
      exact h
    · cases hst
      exact h
    · split at hst <;> cases hst <;> exact h
    · split at hst <;> cases hst
      exact h
    · split at hst <;> cases hst
      exact h
    · cases hst
  | poll => exact hmove (by decide) hst
  | pollReturns =>
    refine hmove ?_ hst
    split <;> decide
  | runTask =>
    simp only [System.step] at hst
    split at hst
    · exact hmove (by decide) hst
    · cases hst
  | listenerClosed =>
    simp only [System.step] at hst
    split at hst
    · split at hst <;> cases hst
      exact h
    · cases hst
  | request listener =>
    simp only [System.step] at hst
    split at hst <;> cases hst
    refine ⟨fun x hx => ?_, h.2⟩
    rcases List.mem_cons.mp hx with rfl | hx
    · exact Doing.noConfusion
    · exact h.1 x hx
  | respond handler =>
    simp only [System.step] at hst
    split at hst <;> cases hst
    exact ⟨fun x hx => h.1 x (List.mem_of_mem_erase hx), h.2⟩
  | timerFire | timerFired | timerExit | runTimerTask =>
    simp only [System.step] at hst
    split at hst <;> cases hst
    exact ⟨h.1, by simp⟩
  | notificationsExit | discoveryExit | beginPass | listsRead | discoveryReplied | openListener
  | closeListener | endPass | watcherExit =>
    simp only [System.step] at hst
    split at hst <;> cases hst
    exact h

/-! ## The steps, one by one -/

variable {w w' : Windows}

/-- What each step of `Windows.step` needs and does. -/
inductive Windows.Step (w : Windows) : WindowsAction → Windows → Prop
  | leave {s : System} (hpumps : w.system.main.pumps = true) (hdraining : w.draining = false)
      (hst : w.system.finalize = some s) : Step w (.plugin .finalize) (w.leaveJoin s)
  | finalize {s : System} (hpumps : w.system.main.pumps = false)
      (hst : w.system.finalize = some s) :
      Step w (.plugin .finalize)
        { w with system := s, fresh := w.fresh && decide (w.system.main ≠ .messageLoop) }
  | runTask {listener : Nat} {s : System} (hdispatches : w.dispatches = true)
      (hst : w.system.move listener .waitingTask .running = some s) :
      Step w (.plugin (.runTask listener)) { w with system := s, fresh := false }
  | runTimerTask (hdispatches : w.dispatches = true) (htimer : w.system.timer = .waitingTask) :
      Step w (.plugin .runTimerTask)
        { w with system := { w.system with timer := .waiting }, fresh := false }
  | ask {a : Action} {s : System}
      (ha : a = .timerRunOnMainThread ∨ ∃ listener, a = .runOnMainThread listener)
      (hst : w.system.step a = some s) :
      Step w (.plugin a) { w with system := s, fresh := true }
  | other {a : Action} {s : System} (ha : a ≠ .finalize) (hquiet : (WindowsAction.plugin a).quiet)
      (hreturns : (a = .notificationsExit → w.system.notifications = true) ∧
        (a = .discoveryExit → w.system.discovery = true))
      (hst : w.system.step a = some s) : Step w (.plugin a) { w with system := s }
  | input (quit : Bool) :
      Step w (.input quit) { w with fresh := true, quitQueued := w.quitQueued || quit }
  | wake (hpumps : w.system.main.pumps = true) (hdraining : w.draining = false)
      (hfresh : w.fresh = true) : Step w .wake { w with draining := true, fresh := false }
  | takeQuit (hdraining : w.draining = true) (hquit : w.quitQueued = true) :
      Step w .takeQuit { w with quitQueued := false, quitSeen := true, fresh := false }
  | drained (hdraining : w.draining = true) (hquit : w.quitQueued = false)
      (htask : w.system.NoTask) : Step w .drained { w with draining := false, fresh := false }
  | loopQuit (hmain : w.system.main = .messageLoop) (hquit : w.quitQueued = true) :
      Step w .loopQuit { w with quitQueued := false, fresh := false }

theorem Windows.step_inversion {a : WindowsAction} (hst : w.step a = some w') : w.Step a w' := by
  cases a with
  | input quit =>
    cases hst
    exact .input quit
  | wake =>
    simp only [Windows.step] at hst
    split at hst <;> cases hst
    next h => exact .wake h.1 h.2.1 h.2.2
  | takeQuit =>
    simp only [Windows.step] at hst
    split at hst <;> cases hst
    next h => exact .takeQuit h.1 h.2
  | drained =>
    simp only [Windows.step] at hst
    split at hst <;> cases hst
    next h => exact .drained h.1 h.2.1 h.2.2
  | loopQuit =>
    simp only [Windows.step] at hst
    split at hst <;> cases hst
    next h => exact .loopQuit h.1 h.2
  | plugin a =>
    cases a with
    | finalize =>
      simp only [Windows.step] at hst
      split at hst
      · next hpumps =>
        split at hst
        · cases hst
        · next hdraining =>
          obtain ⟨s, hs, rfl⟩ := Option.map_eq_some_iff.mp hst
          exact .leave hpumps (Bool.eq_false_iff.mpr hdraining) hs
      · next hpumps =>
        obtain ⟨s, hs, rfl⟩ := Option.map_eq_some_iff.mp hst
        exact .finalize (Bool.eq_false_iff.mpr hpumps) hs
    | runTask listener =>
      simp only [Windows.step] at hst
      split at hst
      · next hdispatches =>
        obtain ⟨s, hs, rfl⟩ := Option.map_eq_some_iff.mp hst
        exact .runTask hdispatches hs
      · cases hst
    | runTimerTask =>
      simp only [Windows.step] at hst
      split at hst <;> cases hst
      next h => exact .runTimerTask h.1 h.2
    | runOnMainThread listener =>
      obtain ⟨s, hs, rfl⟩ := Option.map_eq_some_iff.mp hst
      exact .ask (Or.inr ⟨listener, rfl⟩) hs
    | timerRunOnMainThread =>
      obtain ⟨s, hs, rfl⟩ := Option.map_eq_some_iff.mp hst
      exact .ask (Or.inl rfl) hs
    | notificationsExit | discoveryExit =>
      simp only [Windows.step] at hst
      split at hst
      · next hthread =>
        obtain ⟨s, hs, rfl⟩ := Option.map_eq_some_iff.mp hst
        exact .other nofun rfl (by simp [hthread]) hs
      · cases hst
    | beginPass | listsRead | discoveryReplied | openListener | closeListener | listenerClosed
    | endPass | watcherExit | timerFire | timerFired | timerExit | request | poll | pollReturns
    | respond =>
      obtain ⟨s, hs, rfl⟩ := Option.map_eq_some_iff.mp hst
      exact .other nofun rfl ⟨nofun, nofun⟩ hs

/-! ## What holds in every state -/

structure WindowsInv (w : Windows) : Prop where
  begun : Begun w.system
  draining : w.draining = true → w.system.main.pumps = true
  quitSeen : w.quitSeen = true → w.system.main.pumps = true

theorem windowsInv_start : WindowsInv {} where
  begun := ⟨nofun, nofun, fun h => h.elim, nofun⟩
  draining := nofun
  quitSeen := nofun

theorem WindowsInv.step {a : WindowsAction} (h : WindowsInv w) (hst : w.step a = some w') :
    WindowsInv w' := by
  cases Windows.step_inversion hst with
  | leave hpumps hdraining hs =>
    exact ⟨h.begun.finalize hs, fun hd => absurd (hdraining.symm.trans hd) Bool.false_ne_true,
      nofun⟩
  | finalize hpumps hs =>
    have hnot : w.system.main.pumps ≠ true := Bool.eq_false_iff.mp hpumps
    exact ⟨h.begun.finalize hs, fun hd => absurd (h.draining hd) hnot,
      fun hq => absurd (h.quitSeen hq) hnot⟩
  | runTask hdispatches hs =>
    obtain ⟨-, rfl⟩ := move_eq_some hs
    exact ⟨h.begun.of_eq rfl rfl rfl fun hexited => ⟨hexited, rfl⟩, h.draining, h.quitSeen⟩
  | runTimerTask hdispatches htimer =>
    exact ⟨h.begun.of_eq rfl rfl rfl fun hexited => ⟨hexited, rfl⟩, h.draining, h.quitSeen⟩
  | ask ha hs =>
    have hmain := step_main (by rcases ha with rfl | ⟨_, rfl⟩ <;> exact nofun) hs
    exact ⟨h.begun.step hs, fun hd => hmain ▸ h.draining hd, fun hq => hmain ▸ h.quitSeen hq⟩
  | other hne hquiet hreturns hs =>
    have hmain := step_main hne hs
    exact ⟨h.begun.step hs, fun hd => hmain ▸ h.draining hd, fun hq => hmain ▸ h.quitSeen hq⟩
  | input quit => exact ⟨h.begun, h.draining, h.quitSeen⟩
  | wake hpumps => exact ⟨h.begun, fun _ => hpumps, h.quitSeen⟩
  | takeQuit hdraining => exact ⟨h.begun, h.draining, fun _ => h.draining hdraining⟩
  | drained => exact ⟨h.begun, nofun, h.quitSeen⟩
  | loopQuit => exact ⟨h.begun, h.draining, h.quitSeen⟩

/-- The main thread is past its message loop for good. -/
theorem finalize_main (hst : s.finalize = some t) : t.main ≠ .messageLoop := by
  unfold System.finalize at hst
  cases hmain : s.main with
  | messageLoop | stoppingEvents =>
    simp only [hmain] at hst
    cases hst
    exact nofun
  | joiningNotifications | joiningWatcher | joiningTimer | closing | joiningDiscovery =>
    simp only [hmain] at hst
    split at hst <;> cases hst
    exact nofun
  | closingAll =>
    simp only [hmain] at hst
    split at hst <;> cases hst <;> exact nofun
  | finalized =>
    simp only [hmain] at hst
    cases hst

theorem Windows.Step.main {a : WindowsAction} (h : w.Step a w') :
    (a = .plugin .finalize ∧ w.system.finalize = some w'.system) ∨
      w'.system.main = w.system.main := by
  cases h with
  | leave _ _ hs => exact Or.inl ⟨rfl, hs⟩
  | finalize _ hs => exact Or.inl ⟨rfl, hs⟩
  | runTask _ hs =>
    obtain ⟨-, rfl⟩ := move_eq_some hs
    exact Or.inr rfl
  | ask ha hs =>
    refine Or.inr (step_main ?_ hs)
    rcases ha with rfl | ⟨_, rfl⟩ <;> exact nofun
  | other hne _ _ hs => exact Or.inr (step_main hne hs)
  | runTimerTask | input | wake | takeQuit | drained | loopQuit => exact Or.inr rfl

theorem Windows.Step.ne_messageLoop {a : WindowsAction} (h : w.Step a w')
    (hbegun : w.system.main ≠ .messageLoop) : w'.system.main ≠ .messageLoop := by
  rcases h.main with ⟨-, hs⟩ | hmain
  · exact finalize_main hs
  · rwa [hmain]

/-- Past the message loop only a call of `RunOnMainThread` adds a task, and its message
wakes the join. -/
theorem Windows.Good.step {a : WindowsAction} (h : w.Good) (hbegun : w.system.main ≠ .messageLoop)
    (hst : w.step a = some w') : w'.Good := by
  have hdispatches : w.dispatches = true → w.draining = true := by
    intro hd
    simpa [Windows.dispatches, hbegun] using hd
  have hfinalize : ∀ {s}, w.system.finalize = some s → w.system.NoTask → s.NoTask :=
    fun hs htask => NoTask.step (a := .finalize) htask nofun nofun hs
  cases Windows.step_inversion hst with
  | leave hpumps hdraining hs =>
    rcases h with htask | hfresh | hd
    · exact Or.inl (hfinalize hs htask)
    · exact Or.inr (Or.inl (by simp [Windows.leaveJoin, hfresh]))
    · exact absurd (hdraining.symm.trans hd) Bool.false_ne_true
  | finalize hpumps hs =>
    rcases h with htask | hfresh | hd
    · exact Or.inl (hfinalize hs htask)
    · exact Or.inr (Or.inl (by simp [hfresh, hbegun]))
    · exact Or.inr (Or.inr hd)
  | runTask hd | runTimerTask hd => exact Or.inr (Or.inr (hdispatches hd))
  | ask | input => exact Or.inr (Or.inl rfl)
  | other hne hquiet hreturns hs =>
    refine h.imp_left fun htask => NoTask.step htask ?_ ?_ hs
    · rintro listener rfl
      cases hquiet
    · rintro rfl
      cases hquiet
  | wake => exact Or.inr (Or.inr rfl)
  | takeQuit hdraining => exact Or.inr (Or.inr hdraining)
  | drained _ _ htask => exact Or.inl htask
  | loopQuit hmain => exact absurd hmain hbegun

/-! ## How much is left -/

def Doing.weight : Doing → Nat
  | .running | .answering => 1
  | .waitingTask | .polling => 2

def Watcher.weight : Watcher → Nat
  | .reading => 5
  | .waitingDiscovery => 4
  | .closing _ => 3
  | .reconciling => 2
  | .waiting => 1
  | .exited => 0

def Timer.weight : Timer → Nat
  | .firing => 5
  | .waitingTask => 2
  | .waiting => 1
  | .exited => 0

def MainThread.weight (listeners : Nat) : MainThread → Nat
  | .messageLoop => 2 * listeners + 8
  | .joiningNotifications => 2 * listeners + 7
  | .joiningWatcher => 2 * listeners + 6
  | .joiningTimer => 2 * listeners + 5
  | .stoppingEvents => 2 * listeners + 4
  | .closingAll => 2 * listeners + 3
  | .closing _ => 2 * listeners + 2
  | .joiningDiscovery => 1
  | .finalized => 0

/-- The steps that a system left to itself can still take. -/
def System.left (s : System) : Nat :=
  4 * s.main.weight s.listeners.length + (s.handlers.map (·.doing.weight)).sum +
    s.watcher.weight + s.timer.weight + s.notifications.toNat + s.discovery.toNat

def Windows.left (w : Windows) : Nat :=
  w.system.left + 2 * w.fresh.toNat + w.draining.toNat + w.quitQueued.toNat

theorem MainThread.weight_mono (main : MainThread) {m n : Nat} (h : m ≤ n) :
    main.weight m ≤ main.weight n := by
  cases main <;> simp only [MainThread.weight] <;> omega

theorem left_move {listener : Nat} {before after : Doing}
    (hst : s.move listener before after = some t) :
    t.left + before.weight = s.left + after.weight := by
  obtain ⟨hmem, rfl⟩ := move_eq_some hst
  have hsum := List.sum_map_erase (fun h : Handler => h.doing.weight) hmem
  simp only [System.left, List.map_cons, List.sum_cons] at hsum ⊢
  omega

theorem left_finalize (h : Begun s) (hst : s.finalize = some t) : t.left + 4 ≤ s.left := by
  unfold System.finalize at hst
  cases hmain : s.main with
  | messageLoop | stoppingEvents =>
    simp only [hmain] at hst
    cases hst
    simp only [System.left, hmain, MainThread.weight]
    omega
  | joiningNotifications | joiningWatcher | joiningTimer | joiningDiscovery =>
    simp only [hmain] at hst
    split at hst <;> cases hst
    simp only [System.left, hmain, MainThread.weight]
    omega
  | closingAll =>
    simp only [hmain] at hst
    split at hst <;> cases hst
    all_goals
      simp only [System.left, hmain, MainThread.weight]
      omega
  | closing listener =>
    have hmem := h.closing listener hmain
    have hpos := List.length_pos_of_mem hmem
    simp only [hmain] at hst
    split at hst <;> cases hst
    simp only [System.left, hmain, MainThread.weight, List.length_erase_of_mem hmem]
    omega
  | finalized =>
    simp only [hmain] at hst
    cases hst

theorem left_step {a : Action} (hcompletes : a.completes = true) (hne : a ≠ .finalize)
    (hquiet : (WindowsAction.plugin a).quiet = true)
    (hreturns : (a = .notificationsExit → s.notifications = true) ∧
      (a = .discoveryExit → s.discovery = true)) (hst : s.step a = some t) :
    t.left + 1 ≤ s.left := by
  cases a with
  | finalize => exact absurd rfl hne
  | timerRunOnMainThread => cases hquiet
  | beginPass | openListener | closeListener | timerFire | request | runOnMainThread | poll =>
    cases hcompletes
  | notificationsExit =>
    have hthread := hreturns.1 rfl
    simp only [System.step] at hst
    split at hst <;> cases hst
    simp only [System.left, hthread, Bool.toNat_true, Bool.toNat_false]
    omega
  | discoveryExit =>
    have hthread := hreturns.2 rfl
    simp only [System.step] at hst
    split at hst <;> cases hst
    simp only [System.left, hthread, Bool.toNat_true, Bool.toNat_false]
    omega
  | listsRead | discoveryReplied | endPass =>
    simp only [System.step] at hst
    split at hst <;> cases hst
    next hwatcher =>
      simp only [System.left, hwatcher, Watcher.weight]
      omega
  | watcherExit =>
    simp only [System.step] at hst
    split at hst <;> cases hst
    next hwatcher =>
      simp only [System.left, hwatcher.1, Watcher.weight]
      omega
  | listenerClosed =>
    simp only [System.step] at hst
    split at hst
    · next listener hwatcher =>
      split at hst <;> cases hst
      have hmono := s.main.weight_mono (List.length_erase_le (a := listener) (l := s.listeners))
      simp only [System.left, hwatcher, Watcher.weight]
      omega
    · cases hst
  | timerFired =>
    simp only [System.step] at hst
    split at hst <;> cases hst
    next htimer =>
      simp only [System.left, htimer, Timer.weight]
      omega
  | timerExit =>
    simp only [System.step] at hst
    split at hst <;> cases hst
    next htimer =>
      simp only [System.left, htimer.1, Timer.weight]
      omega
  | runTimerTask =>
    simp only [System.step] at hst
    split at hst <;> cases hst
    next htimer =>
      simp only [System.left, htimer.2, Timer.weight]
      omega
  | pollReturns listener =>
    have hmove := left_move hst
    split at hmove
    all_goals
      simp only [Doing.weight] at hmove
      omega
  | runTask listener =>
    simp only [System.step] at hst
    split at hst
    · have hmove := left_move hst
      simp only [Doing.weight] at hmove
      omega
    · cases hst
  | respond handler =>
    simp only [System.step] at hst
    split at hst <;> cases hst
    next h =>
      have hsum := List.sum_map_erase (fun h : Handler => h.doing.weight) h.1
      have hweight : handler.doing.weight = 1 := by
        rcases h.2 with hdoing | hdoing <;> rw [hdoing] <;> rfl
      simp only [System.left] at hsum ⊢
      omega

/-- Each step that completes something leaves one fewer. -/
theorem Windows.left_step {a : WindowsAction} (h : WindowsInv w) (hcompletes : a.completes = true)
    (hst : w.step a = some w') : w'.left + 1 ≤ w.left := by
  have hor : ∀ b c : Bool, (b || c).toNat ≤ b.toNat + 1 := by decide
  have hand : ∀ b c : Bool, (b && c).toNat ≤ b.toNat := by decide
  cases Windows.step_inversion hst with
  | leave hpumps hdraining hs =>
    -- a `WM_QUIT` that is posted again is one more message
    have hle := left_finalize h.begun hs
    have hfresh := hor w.fresh w.quitSeen
    have hquit := hor w.quitQueued w.quitSeen
    simp only [Windows.left, Windows.leaveJoin]
    omega
  | finalize hpumps hs =>
    have hle := left_finalize h.begun hs
    have hfresh := hand w.fresh (decide (w.system.main ≠ .messageLoop))
    simp only [Windows.left]
    omega
  | runTask hdispatches hs =>
    have hmove := left_move hs
    simp only [Doing.weight] at hmove
    simp only [Windows.left, Bool.toNat_false]
    omega
  | runTimerTask hdispatches htimer =>
    simp only [Windows.left, System.left, htimer, Timer.weight, Bool.toNat_false]
    omega
  | ask ha hs =>
    rcases ha with rfl | ⟨_, rfl⟩
    · simp only [System.step] at hs
      split at hs <;> cases hs
      next htimer =>
        have hfresh := Bool.toNat_le true
        simp only [Windows.left, System.left, htimer, Timer.weight]
        omega
    · cases hcompletes
  | other hne hquiet hreturns hs =>
    have hle := Plugin.left_step hcompletes hne hquiet hreturns hs
    simp only [Windows.left]
    omega
  | input | loopQuit => cases hcompletes
  | wake hpumps hdraining hfresh =>
    simp only [Windows.left, hdraining, hfresh, Bool.toNat_true, Bool.toNat_false]
    omega
  | takeQuit hdraining hquit =>
    simp only [Windows.left, hquit, Bool.toNat_true, Bool.toNat_false]
    omega
  | drained hdraining =>
    simp only [Windows.left, hdraining, Bool.toNat_true, Bool.toNat_false]
    omega

/-! ## The main thread is never left waiting -/

/-- Something that completes is enabled. -/
def Windows.Moves (w : Windows) : Prop :=
  ∃ a, WindowsAction.completes a = true ∧ (w.step a).isSome = true

section Moves

variable (hgood : w.Good) (hpumps : w.system.main.pumps = true)

include hgood hpumps

/-- With a task waiting, the join wakes or runs one. -/
theorem moves_of_task (htask : ¬ w.system.NoTask) : w.Moves := by
  cases hdraining : w.draining with
  | false =>
    have hfresh : w.fresh = true :=
      (hgood.resolve_left htask).resolve_right (by simp [hdraining])
    exact ⟨.wake, rfl, by simp [Windows.step, hpumps, hdraining, hfresh]⟩
  | true =>
    have hdispatches : w.dispatches = true := by simp [Windows.dispatches, hdraining]
    by_cases htimer : w.system.timer = .waitingTask
    · refine ⟨.plugin .runTimerTask, rfl, ?_⟩
      simp [Windows.step, hdispatches, htimer]
    · have hhandler : ∃ x ∈ w.system.handlers, x.doing = .waitingTask := by
        by_contra hnone
        exact htask ⟨fun x hx hdoing => hnone ⟨x, hx, hdoing⟩, htimer⟩
      obtain ⟨⟨listener, doing⟩, hmem, rfl⟩ := hhandler
      refine ⟨.plugin (.runTask listener), rfl, ?_⟩
      simp [Windows.step, hdispatches, System.move, hmem]

/-- A join whose thread has ended is left, once its inner loop has. -/
theorem moves_of_ended (hended : w.system.finalize.isSome = true) : w.Moves := by
  by_cases htask : w.system.NoTask
  · cases hdraining : w.draining with
    | false =>
      refine ⟨.plugin .finalize, rfl, ?_⟩
      simpa [Windows.step, hpumps, hdraining] using hended
    | true =>
      cases hquit : w.quitQueued with
      | true => exact ⟨.takeQuit, rfl, by simp [Windows.step, hdraining, hquit]⟩
      | false => exact ⟨.drained, rfl, by simp [Windows.step, hdraining, hquit, htask]⟩
  · exact moves_of_task hgood hpumps htask

/-- A listener that is being closed loses its handlers one after the other. -/
theorem moves_of_inFlight {listener : Nat} (hinFlight : w.system.inFlight listener = true) :
    w.Moves := by
  obtain ⟨⟨l, doing⟩, hmem, -⟩ := List.any_eq_true.mp hinFlight
  cases doing with
  | running =>
    exact ⟨.plugin (.respond ⟨l, .running⟩), rfl, by simp [Windows.step, System.step, hmem]⟩
  | answering =>
    exact ⟨.plugin (.respond ⟨l, .answering⟩), rfl, by simp [Windows.step, System.step, hmem]⟩
  | polling =>
    refine ⟨.plugin (.pollReturns l), rfl, ?_⟩
    simp [Windows.step, System.step, System.move, hmem]
  | waitingTask => exact moves_of_task hgood hpumps fun htask => htask.1 _ hmem rfl

end Moves

theorem WindowsInv.moves (h : WindowsInv w) (hgood : w.Good)
    (hbegun : w.system.main ≠ .messageLoop) : w.system.main = .finalized ∨ w.Moves := by
  cases hmain : w.system.main with
  | messageLoop => exact absurd hmain hbegun
  | finalized => exact Or.inl rfl
  | joiningNotifications =>
    refine Or.inr ?_
    cases hthread : w.system.notifications with
    | true =>
      refine ⟨.plugin .notificationsExit, rfl, ?_⟩
      simp [Windows.step, System.step, hmain, hthread]
    | false =>
      refine ⟨.plugin .finalize, rfl, ?_⟩
      simp [Windows.step, System.finalize, MainThread.pumps, hmain, hthread]
  | joiningWatcher =>
    have hpumps : w.system.main.pumps = true := by rw [hmain]; rfl
    have hstopping := h.begun.stopping hmain
    refine Or.inr ?_
    cases hwatcher : w.system.watcher with
    | waiting =>
      refine ⟨.plugin .watcherExit, rfl, ?_⟩
      simp [Windows.step, System.step, hwatcher, hstopping]
    | reading =>
      exact ⟨.plugin .listsRead, rfl, by simp [Windows.step, System.step, hwatcher]⟩
    | waitingDiscovery =>
      exact ⟨.plugin .discoveryReplied, rfl, by simp [Windows.step, System.step, hwatcher]⟩
    | reconciling => exact ⟨.plugin .endPass, rfl, by simp [Windows.step, System.step, hwatcher]⟩
    | closing listener =>
      cases hinFlight : w.system.inFlight listener with
      | true => exact moves_of_inFlight hgood hpumps hinFlight
      | false =>
        refine ⟨.plugin .listenerClosed, rfl, ?_⟩
        simp [Windows.step, System.step, hwatcher, hinFlight]
    | exited => exact moves_of_ended hgood hpumps (by simp [System.finalize, hmain, hwatcher])
  | joiningTimer =>
    have hpumps : w.system.main.pumps = true := by rw [hmain]; rfl
    have hstopped := h.begun.timer hmain
    refine Or.inr ?_
    cases htimer : w.system.timer with
    | waiting =>
      refine ⟨.plugin .timerExit, rfl, ?_⟩
      simp [Windows.step, System.step, htimer, hstopped]
    | firing => exact ⟨.plugin .timerFired, rfl, by simp [Windows.step, System.step, htimer]⟩
    | waitingTask => exact moves_of_task hgood hpumps fun htask => htask.2 htimer
    | exited => exact moves_of_ended hgood hpumps (by simp [System.finalize, hmain, htimer])
  | stoppingEvents =>
    refine Or.inr ⟨.plugin .finalize, rfl, ?_⟩
    simp [Windows.step, System.finalize, MainThread.pumps, hmain]
  | closingAll =>
    refine Or.inr ⟨.plugin .finalize, rfl, ?_⟩
    cases hlisteners : w.system.listeners <;>
      simp [Windows.step, System.finalize, MainThread.pumps, hmain, hlisteners]
  | closing listener =>
    have hpumps : w.system.main.pumps = true := by rw [hmain]; rfl
    refine Or.inr ?_
    cases hinFlight : w.system.inFlight listener with
    | true => exact moves_of_inFlight hgood hpumps hinFlight
    | false => exact moves_of_ended hgood hpumps (by simp [System.finalize, hmain, hinFlight])
  | joiningDiscovery =>
    refine Or.inr ?_
    cases hthread : w.system.discovery with
    | true =>
      refine ⟨.plugin .discoveryExit, rfl, ?_⟩
      simp [Windows.step, System.step, hmain, hthread]
    | false =>
      refine ⟨.plugin .finalize, rfl, ?_⟩
      simp [Windows.step, System.finalize, MainThread.pumps, hmain, hthread]

/-- **Where no task was left behind, `Finalize` comes to its end**: from every state past
the message loop in which every waiting task has a message the join will find, there are
only so many steps until the plugin has come to rest, as long as the network and the
clients begin nothing new, and only the end of `Finalize` leaves none to take. -/
theorem pumping_finalizes (h : Reachable Windows.step {} w)
    (hbegun : w.system.main ≠ .messageLoop) (hgood : w.Good) {as : List WindowsAction}
    (hcompletes : ∀ a ∈ as, WindowsAction.completes a = true)
    (hrun : run Windows.step w as = some w') :
    as.length ≤ w.left ∧ (w'.system.main = .finalized ∨ w'.Moves) := by
  have hinv := h.invariant windowsInv_start WindowsInv.step
  clear h
  induction as generalizing w with
  | nil =>
    cases hrun
    exact ⟨Nat.zero_le _, hinv.moves hgood hbegun⟩
  | cons a as ih =>
    obtain ⟨next, hst, hrun⟩ := run_cons_eq_some.mp hrun
    have hle := Windows.left_step hinv (hcompletes a List.mem_cons_self) hst
    obtain ⟨hlength, hmoves⟩ := ih ((Windows.step_inversion hst).ne_messageLoop hbegun)
      (hgood.step hbegun hst) (fun b hb => hcompletes b (List.mem_cons_of_mem a hb)) hrun
      (hinv.step hst)
    refine ⟨?_, hmoves⟩
    rw [List.length_cons]
    omega

/-- A handler asks for a task once `Finalize` has begun, and a `WM_QUIT` comes. -/
def pumpingRun : List WindowsAction :=
  [.plugin .beginPass, .plugin .listsRead, .plugin .discoveryReplied, .plugin (.openListener 0),
    .plugin .endPass, .plugin (.request 0), .plugin .finalize, .plugin (.runOnMainThread 0),
    .input true]

/-- The rest of `Finalize`: the watcher's join runs the task. -/
def completingRun : List WindowsAction :=
  [.plugin .notificationsExit, .plugin .finalize, .wake, .plugin (.runTask 0), .takeQuit, .drained,
    .plugin .watcherExit, .plugin .finalize, .plugin .timerExit, .plugin .finalize,
    .plugin .finalize, .plugin .finalize, .plugin (.respond ⟨0, .running⟩), .plugin .finalize,
    .plugin .finalize, .plugin .discoveryExit, .plugin .finalize]

theorem pumping_finalizes_sample :
    ∃ w w', run Windows.step {} pumpingRun = some w ∧ w.system.main ≠ .messageLoop ∧
      run Windows.step w completingRun = some w' ∧ completingRun.length ≤ w.left ∧
      (w'.system.main = .finalized ∨ w'.Moves) ∧ w'.quitQueued = true := by
  obtain ⟨w, hrun, hw⟩ := (Option.any_eq_true _ _).mp
    (show (run Windows.step {} pumpingRun).any (fun w =>
      decide (w.system.main ≠ .messageLoop) && w.fresh &&
        (run Windows.step w completingRun).any fun w' => w'.quitQueued) = true by decide +kernel)
  obtain ⟨hw, hrest⟩ := Bool.and_eq_true_iff.mp hw
  obtain ⟨hbegun, hfresh⟩ := Bool.and_eq_true_iff.mp hw
  obtain ⟨w', hrun', hquit⟩ := (Option.any_eq_true _ _).mp hrest
  have hbegun := of_decide_eq_true hbegun
  obtain ⟨hlength, hmoves⟩ := pumping_finalizes ⟨_, hrun⟩ hbegun (Or.inr (Or.inl hfresh))
    (by decide) hrun'
  exact ⟨w, w', hrun, hbegun, hrun', hlength, hmoves, hquit⟩

/-! ## A task that was left behind -/

/-- The join waits for a thread that waits for a task whose message came before the queue
was last examined. -/
structure Windows.Blocked (w : Windows) : Prop where
  fresh : w.fresh = false
  draining : w.draining = false
  waits : (w.system.main = .joiningTimer ∧ w.system.timer = .waitingTask) ∨
    ∃ listener, (w.system.main = .closing listener ∨
      w.system.main = .joiningWatcher ∧ w.system.watcher = .closing listener) ∧
      ⟨listener, .waitingTask⟩ ∈ w.system.handlers

theorem Windows.Blocked.dispatches (h : w.Blocked) : w.dispatches = false := by
  have hmain : w.system.main ≠ .messageLoop := by
    rcases h.waits with ⟨hmain, -⟩ | ⟨listener, hmain | ⟨hmain, -⟩, -⟩ <;>
      rw [hmain] <;> exact nofun
  simp [Windows.dispatches, hmain, h.draining]

theorem Windows.Blocked.finalize_eq_none (h : w.Blocked) : w.system.finalize = none := by
  have hinFlight : ∀ listener, ⟨listener, .waitingTask⟩ ∈ w.system.handlers →
      w.system.inFlight listener = true := fun listener hmem =>
    List.any_eq_true.mpr ⟨_, hmem, by simp⟩
  rcases h.waits with ⟨hmain, htimer⟩ | ⟨listener, hmain | ⟨hmain, hwatcher⟩, hmem⟩
  · simp [System.finalize, hmain, htimer]
  · simp [System.finalize, hmain, hinFlight listener hmem]
  · simp [System.finalize, hmain, hwatcher]

/-- What a handler that waits is not touched by. -/
theorem mem_of_move {listener : Nat} {before after : Doing} {x : Handler}
    (hst : s.move listener before after = some t) (hmem : x ∈ s.handlers)
    (hdoing : x.doing ≠ before) : x ∈ t.handlers := by
  obtain ⟨-, rfl⟩ := move_eq_some hst
  refine List.mem_cons_of_mem _ ((List.mem_erase_of_ne ?_).mpr hmem)
  rintro rfl
  exact hdoing rfl

theorem waiting_step {a : Action} {listener : Nat} (htask : ∀ l, a ≠ .runTask l)
    (hst : s.step a = some t) (hmem : ⟨listener, .waitingTask⟩ ∈ s.handlers) :
    ⟨listener, .waitingTask⟩ ∈ t.handlers := by
  cases a with
  | runTask l => exact absurd rfl (htask l)
  | runOnMainThread | poll | pollReturns => exact mem_of_move hst hmem nofun
  | finalize =>
    simp only [System.step] at hst
    unfold System.finalize at hst
    split at hst
    · cases hst
      exact hmem
    · split at hst <;> cases hst
      exact hmem
    · split at hst <;> cases hst
      exact hmem
    · split at hst <;> cases hst
      exact hmem
    · cases hst
      exact hmem
    · split at hst <;> cases hst <;> exact hmem
    · split at hst <;> cases hst
      exact hmem
    · split at hst <;> cases hst
      exact hmem
    · cases hst
  | request l =>
    simp only [System.step] at hst
    split at hst <;> cases hst
    exact List.mem_cons_of_mem _ hmem
  | respond handler =>
    simp only [System.step] at hst
    split at hst <;> cases hst
    next h =>
      refine (List.mem_erase_of_ne ?_).mpr hmem
      rintro rfl
      rcases h.2 with hdoing | hdoing <;> cases hdoing
  | listenerClosed =>
    simp only [System.step] at hst
    split at hst
    · split at hst <;> cases hst
      exact hmem
    · cases hst
  | notificationsExit | discoveryExit | beginPass | listsRead | discoveryReplied | openListener
  | closeListener | endPass | watcherExit | timerFire | timerRunOnMainThread | timerFired
  | timerExit | runTimerTask =>
    simp only [System.step] at hst
    split at hst <;> cases hst
    exact hmem

theorem timer_step {a : Action} (ha : a ≠ .finalize) (htimerTask : a ≠ .runTimerTask)
    (hst : s.step a = some t) (htimer : s.timer = .waitingTask) : t.timer = .waitingTask := by
  cases a with
  | finalize => exact absurd rfl ha
  | runTimerTask => exact absurd rfl htimerTask
  | timerFire | timerRunOnMainThread | timerFired | timerExit =>
    simp [System.step, htimer] at hst
  | runOnMainThread | poll | pollReturns =>
    obtain ⟨-, rfl⟩ := move_eq_some hst
    exact htimer
  | runTask =>
    simp only [System.step] at hst
    split at hst
    · obtain ⟨-, rfl⟩ := move_eq_some hst
      exact htimer
    · cases hst
  | listenerClosed =>
    simp only [System.step] at hst
    split at hst
    · split at hst <;> cases hst
      exact htimer
    · cases hst
  | notificationsExit | discoveryExit | beginPass | listsRead | discoveryReplied | openListener
  | closeListener | endPass | watcherExit | request | respond =>
    simp only [System.step] at hst
    split at hst <;> cases hst
    exact htimer

theorem watcher_step {a : Action} {listener : Nat} (ha : a ≠ .finalize)
    (hst : s.step a = some t) (hwatcher : s.watcher = .closing listener)
    (hinFlight : s.inFlight listener = true) : t.watcher = .closing listener := by
  cases a with
  | finalize => exact absurd rfl ha
  | beginPass | listsRead | discoveryReplied | openListener | closeListener | endPass
  | watcherExit => simp [System.step, hwatcher] at hst
  | listenerClosed => simp [System.step, hwatcher, hinFlight] at hst
  | runOnMainThread | poll | pollReturns =>
    obtain ⟨-, rfl⟩ := move_eq_some hst
    exact hwatcher
  | runTask =>
    simp only [System.step] at hst
    split at hst
    · obtain ⟨-, rfl⟩ := move_eq_some hst
      exact hwatcher
    · cases hst
  | notificationsExit | discoveryExit | timerFire | timerRunOnMainThread | timerFired | timerExit
  | request | respond | runTimerTask =>
    simp only [System.step] at hst
    split at hst <;> cases hst
    exact hwatcher

theorem Windows.Blocked.step {a : WindowsAction} (h : w.Blocked) (hquiet : a.quiet = true)
    (hst : w.step a = some w') : w'.Blocked ∧ w'.system.main = w.system.main := by
  have hfinalize := h.finalize_eq_none
  have hdispatches := h.dispatches
  cases Windows.step_inversion hst with
  | leave _ _ hs | finalize _ hs =>
    rw [hfinalize] at hs
    cases hs
  | runTask hd | runTimerTask hd =>
    rw [hdispatches] at hd
    cases hd
  | ask ha =>
    rcases ha with rfl | ⟨_, rfl⟩ <;> cases hquiet
  | @other a t hne hquiet hreturns hs =>
    have hmain := step_main hne hs
    have htask : ∀ l, a ≠ .runTask l := by
      rintro l rfl
      simp [Windows.step, hdispatches] at hst
    have htimerTask : a ≠ .runTimerTask := by
      rintro rfl
      simp [Windows.step, hdispatches] at hst
    refine ⟨⟨h.fresh, h.draining, ?_⟩, hmain⟩
    rcases h.waits with ⟨hm, htimer⟩ | ⟨listener, hm, hmem⟩
    · exact Or.inl ⟨hmain.trans hm, timer_step hne htimerTask hs htimer⟩
    · refine Or.inr ⟨listener, ?_, waiting_step htask hs hmem⟩
      refine hm.imp hmain.trans fun hw => ⟨hmain.trans hw.1, watcher_step hne hs hw.2 ?_⟩
      exact List.any_eq_true.mpr ⟨_, hmem, by simp⟩
  | input => cases hquiet
  | wake _ _ hfresh =>
    rw [h.fresh] at hfresh
    cases hfresh
  | takeQuit hdraining | drained hdraining =>
    rw [h.draining] at hdraining
    cases hdraining
  | loopQuit hmain =>
    exact absurd (by simp [Windows.dispatches, hmain]) (Bool.eq_false_iff.mp hdispatches)

/-- **A task left behind is not run by the join**: the main thread stays where it is until
another message comes, whatever else happens. -/
theorem blocked_waits (h : w.Blocked) {as : List WindowsAction}
    (hquiet : ∀ a ∈ as, WindowsAction.quiet a = true) (hrun : run Windows.step w as = some w') :
    w'.Blocked ∧ w'.system.main = w.system.main := by
  refine run_preserves_of (I := fun w' => w'.Blocked ∧ w'.system.main = w.system.main) hrun
    ⟨h, rfl⟩ hquiet fun hs hq hst => ?_
  obtain ⟨hblocked, hmain⟩ := hs.1.step hq hst
  exact ⟨hblocked, hmain.trans hs.2⟩

/-- The handler's message is in the queue when the one that leads to `Finalize` is taken. -/
def blockedRun : List WindowsAction :=
  [.plugin .beginPass, .plugin .listsRead, .plugin .discoveryReplied, .plugin (.openListener 0),
    .plugin .endPass, .plugin (.request 0), .plugin (.runOnMainThread 0), .plugin .finalize,
    .plugin .notificationsExit, .plugin .finalize, .plugin .watcherExit, .plugin .finalize,
    .plugin .timerExit, .plugin .finalize, .plugin .finalize, .plugin .finalize]

theorem blocked_waits_sample :
    ∃ w w', run Windows.step {} blockedRun = some w ∧ w.system.main = .closing 0 ∧
      run Windows.step w [.plugin (.request 0), .plugin (.respond ⟨0, .running⟩)] = some w' ∧
      w'.Blocked ∧ w'.system.main = .closing 0 := by
  obtain ⟨w, hrun, hw⟩ := (Option.any_eq_true _ _).mp
    (show (run Windows.step {} blockedRun).any (fun w =>
      decide (w.system.main = .closing 0 ∧ w.fresh = false ∧ w.draining = false ∧
        ⟨0, .waitingTask⟩ ∈ w.system.handlers) &&
        (run Windows.step w [.plugin (.request 0), .plugin (.respond ⟨0, .running⟩)]).isSome) =
          true by decide +kernel)
  obtain ⟨hw, hrest⟩ := Bool.and_eq_true_iff.mp hw
  obtain ⟨hmain, hfresh, hdraining, hmem⟩ := of_decide_eq_true hw
  obtain ⟨w', hrun'⟩ := Option.isSome_iff_exists.mp hrest
  have hwaits := blocked_waits ⟨hfresh, hdraining, Or.inr ⟨0, Or.inl hmain, hmem⟩⟩ (by decide) hrun'
  exact ⟨w, w', hrun, hmain, hrun', hwaits.1, hwaits.2.trans hmain⟩

/-! ## `WM_QUIT` -/

/-- **A `WM_QUIT` is not lost**: once it has come, it is in the queue, or held by a join
that will post it again. -/
theorem quit_kept (h : Reachable Windows.step {} w) (hbegun : w.system.main ≠ .messageLoop)
    (hquit : w.quitQueued = true ∨ w.quitSeen = true) {as : List WindowsAction}
    (hrun : run Windows.step w as = some w') :
    w'.quitQueued = true ∨ w'.quitSeen = true ∧ w'.system.main.pumps = true := by
  have hkept := run_preserves
    (I := fun w => WindowsInv w ∧ w.system.main ≠ .messageLoop ∧
      (w.quitQueued = true ∨ w.quitSeen = true)) hrun
    ⟨h.invariant windowsInv_start WindowsInv.step, hbegun, hquit⟩ fun hs hst => ?_
  · exact hkept.2.2.imp_right fun hseen => ⟨hseen, hkept.1.quitSeen hseen⟩
  obtain ⟨hinv, hbegun, hquit⟩ := hs
  have hstep := Windows.step_inversion hst
  refine ⟨hinv.step hst, hstep.ne_messageLoop hbegun, ?_⟩
  cases hstep with
  | leave => exact Or.inl (by simpa [Windows.leaveJoin] using hquit)
  | finalize | runTask | runTimerTask | ask | other | wake | drained => exact hquit
  | input quit => exact hquit.imp_left fun hqueued => by simp [hqueued]
  | takeQuit => exact Or.inr rfl
  | loopQuit hmain => exact absurd hmain hbegun

theorem quit_kept_sample :
    ∃ w w', run Windows.step {} pumpingRun = some w ∧ w.quitQueued = true ∧
      run Windows.step w (completingRun.take 5) = some w' ∧
      (w'.quitQueued = true ∨ w'.quitSeen = true ∧ w'.system.main.pumps = true) := by
  obtain ⟨w, hrun, hw⟩ := (Option.any_eq_true _ _).mp
    (show (run Windows.step {} pumpingRun).any (fun w =>
      decide (w.system.main ≠ .messageLoop) && w.quitQueued &&
        (run Windows.step w (completingRun.take 5)).isSome) = true by decide +kernel)
  obtain ⟨hw, hrest⟩ := Bool.and_eq_true_iff.mp hw
  obtain ⟨hbegun, hquit⟩ := Bool.and_eq_true_iff.mp hw
  obtain ⟨w', hrun'⟩ := Option.isSome_iff_exists.mp hrest
  exact ⟨w, w', hrun, hquit, hrun',
    quit_kept ⟨_, hrun⟩ (of_decide_eq_true hbegun) (Or.inl hquit) hrun'⟩

end RemoteControl.Plugin
