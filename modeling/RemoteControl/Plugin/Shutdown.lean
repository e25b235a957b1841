import RemoteControl.Plugin.Finalize

/-!
# Shutting down

* `MainStuck`: the main thread joins a thread that waits, directly or through others,
  for a main-thread task or for a `StateUpdateEvents::Stop` still to come.
* `finalize_deadlocks`: a run that gets there.
* `shutdown_safe`: no run does in which no task is outstanding when `Finalize` begins,
  none is added while it runs, and the watcher closes no listener with a pending poll
  while it is joined.
* `finalize_hangs`: a task outstanding while `Finalize` runs keeps it from returning.
-/

namespace RemoteControl.Plugin

open Transition Relation

namespace System

variable (s : System)

/-- Whether a listener's thread has been told to stop, so that it waits for its handlers. -/
def Stopping (listener : Nat) : Prop :=
  s.watcher = .closing listener ∨ s.main = .closing listener

inductive WaitsFor : Thread → Thread → Prop
  | join {t : Thread} (h : s.main.joins = some t) : WaitsFor .main t
  | discovery (h : s.watcher = .waitingDiscovery) : WaitsFor .watcher .discovery
  | close {listener : Nat} (h : s.watcher = .closing listener) :
      WaitsFor .watcher (.listener listener)
  | inFlight {h : Handler} (hstop : s.Stopping h.listener) (hmem : h ∈ s.handlers) :
      WaitsFor (.listener h.listener) (.handler h)

/-- The threads that wait for the main thread to do something. -/
def NeedsMain : Thread → Prop
  | .handler h => h ∈ s.handlers ∧
      (h.doing = .waitingTask ∨ h.doing = .polling ∧ s.eventsStopped = false)
  | .timer => s.timer = .waitingTask
  | _ => False

def MainStuck : Prop :=
  ∃ t u, s.main.joins = some t ∧ ReflTransGen s.WaitsFor t u ∧ s.NeedsMain u

/-- No thread is waiting for the main thread to run a task. -/
def NoTask : Prop := (∀ h ∈ s.handlers, h.doing ≠ .waitingTask) ∧ s.timer ≠ .waitingTask

/-- The watcher is not closing a listener with a pending poll. -/
def NoPollClosed : Prop :=
  ∀ h ∈ s.handlers, h.doing = .polling → s.watcher ≠ .closing h.listener

/-- The steps that keep clear of the defect. -/
def Safe : Action → Prop
  | .finalize => (s.main = .messageLoop → s.NoTask) ∧
      (s.main = .joiningNotifications → s.NoPollClosed)
  | .runOnMainThread _ | .timerRunOnMainThread => s.main = .messageLoop
  | .closeListener listener => s.main = .joiningWatcher → ⟨listener, .polling⟩ ∉ s.handlers
  | .poll listener => s.main = .joiningWatcher → s.watcher ≠ .closing listener
  | _ => True

instance : Decidable s.NoTask := inferInstanceAs (Decidable (_ ∧ _))

instance : Decidable s.NoPollClosed := inferInstanceAs (Decidable (∀ h ∈ s.handlers, _ → _))

instance (a : Action) : Decidable (s.Safe a) :=
  match a with
  | .finalize => inferInstanceAs (Decidable ((_ → _) ∧ (_ → _)))
  | .runOnMainThread _ | .timerRunOnMainThread => inferInstanceAs (Decidable (_ = _))
  | .closeListener _ | .poll _ => inferInstanceAs (Decidable (_ → _))
  | .notificationsExit | .discoveryExit | .beginPass | .listsRead | .discoveryReplied
  | .openListener _ | .listenerClosed | .endPass | .watcherExit | .timerFire | .timerFired
  | .timerExit | .request _ | .pollReturns _ | .respond _ | .runTask _ | .runTimerTask =>
    inferInstanceAs (Decidable True)

end System

variable {s t : System}

/-! ## Who waits for whom -/

/-- A thread that waits for no other leads nowhere. -/
theorem reach_leaf {t u : Thread} (hleaf : ∀ v, ¬s.WaitsFor t v)
    (hreach : ReflTransGen s.WaitsFor t u) : u = t := by
  rcases hreach.cases_head with heq | ⟨v, hv, -⟩
  · exact heq.symm
  · exact absurd hv (hleaf v)

theorem reach_handler {h : Handler} {u : Thread}
    (hreach : ReflTransGen s.WaitsFor (.handler h) u) : u = .handler h :=
  reach_leaf (fun _ hv => by cases hv) hreach

theorem reach_listener {listener : Nat} {u : Thread}
    (hreach : ReflTransGen s.WaitsFor (.listener listener) u) :
    u = .listener listener ∨ ∃ h ∈ s.handlers, h.listener = listener ∧ u = .handler h := by
  rcases hreach.cases_head with heq | ⟨v, hv, hrest⟩
  · exact Or.inl heq.symm
  · cases hv with
    | inFlight hstop hmem => exact Or.inr ⟨_, hmem, rfl, reach_handler hrest⟩

theorem reach_discovery {u : Thread} (hreach : ReflTransGen s.WaitsFor .discovery u) :
    u = .discovery :=
  reach_leaf (fun _ hv => by cases hv) hreach

theorem reach_watcher {u : Thread} (hreach : ReflTransGen s.WaitsFor .watcher u) :
    u = .watcher ∨ u = .discovery ∨
      ∃ listener, s.watcher = .closing listener ∧
        ReflTransGen s.WaitsFor (.listener listener) u := by
  rcases hreach.cases_head with heq | ⟨v, hv, hrest⟩
  · exact Or.inl heq.symm
  · cases hv with
    | discovery _ => exact Or.inr (Or.inl (reach_discovery hrest))
    | close hclosing => exact Or.inr (Or.inr ⟨_, hclosing, hrest⟩)

/-! ## The runs that keep clear -/

/-- `Finalize` is past `FStateEvents.Stop`. -/
def MainThread.PastStop : MainThread → Prop
  | .closingAll | .closing _ | .joiningDiscovery | .finalized => True
  | _ => False

structure Inv (s : System) : Prop where
  tasks : s.main = .messageLoop ∨ s.NoTask
  polls : s.main = .joiningWatcher → s.NoPollClosed
  events : s.main.PastStop → s.eventsStopped = true

theorem init_inv : Inv {} where
  tasks := Or.inl rfl
  polls h := by cases h
  events h := h.elim

theorem Inv.noTask (h : Inv s) (hmain : s.main ≠ .messageLoop) : s.NoTask :=
  h.tasks.resolve_left hmain

theorem Inv.not_mainStuck (h : Inv s) : ¬s.MainStuck := by
  rintro ⟨t, u, hjoins, hreach, hneeds⟩
  have htask : s.NoTask := h.noTask fun hmain => by
    rw [hmain] at hjoins
    cases hjoins
  -- a handler needs the main thread only while it polls and the events are not stopped
  have hhandler : ∀ listener, ReflTransGen s.WaitsFor (.listener listener) u →
      ⟨listener, .polling⟩ ∈ s.handlers ∧ s.eventsStopped = false := by
    intro listener hreach
    rcases reach_listener hreach with rfl | ⟨hd, hmem, rfl, rfl⟩
    · exact hneeds.elim
    · obtain ⟨listener, doing⟩ := hd
      rcases hneeds.2 with rfl | ⟨rfl, hstopped⟩
      · exact absurd rfl (htask.1 _ hmem)
      · exact ⟨hmem, hstopped⟩
  cases hmain : s.main with
  | joiningNotifications =>
    rw [hmain] at hjoins
    cases hjoins
    obtain rfl := reach_leaf (fun _ hv => by cases hv) hreach
    exact hneeds
  | joiningWatcher =>
    rw [hmain] at hjoins
    cases hjoins
    rcases reach_watcher hreach with rfl | rfl | ⟨listener, hclosing, hrest⟩
    · exact hneeds
    · exact hneeds
    · exact h.polls hmain _ (hhandler listener hrest).1 rfl hclosing
  | joiningTimer =>
    rw [hmain] at hjoins
    cases hjoins
    obtain rfl := reach_leaf (fun _ hv => by cases hv) hreach
    exact htask.2 hneeds
  | closing listener =>
    rw [hmain] at hjoins
    cases hjoins
    have hstopped := h.events (by rw [hmain]; trivial)
    have hpolling := (hhandler listener hreach).2
    rw [hstopped] at hpolling
    cases hpolling
  | joiningDiscovery =>
    rw [hmain] at hjoins
    cases hjoins
    obtain rfl := reach_discovery hreach
    exact hneeds
  | messageLoop | stoppingEvents | closingAll | finalized =>
    rw [hmain] at hjoins
    cases hjoins

/-- The handlers may change as long as none starts to wait where it must not. -/
theorem Inv.withHandlers (h : Inv s) {handlers : List Handler}
    (hnew : ∀ x ∈ handlers, x ∈ s.handlers ∨
      (x.doing = .waitingTask → s.main = .messageLoop) ∧
        (x.doing = .polling → s.main = .joiningWatcher → s.watcher ≠ .closing x.listener)) :
    Inv { s with handlers := handlers } where
  tasks := by
    rcases h.tasks with hmain | htask
    · exact Or.inl hmain
    · by_cases hmain : s.main = .messageLoop
      · exact Or.inl hmain
      · refine Or.inr ⟨fun x hmem hdoing => ?_, htask.2⟩
        rcases hnew x hmem with hold | ⟨hwait, -⟩
        · exact htask.1 x hold hdoing
        · exact hmain (hwait hdoing)
  polls hmain x hmem hdoing := by
    rcases hnew x hmem with hold | ⟨-, hpoll⟩
    · exact h.polls hmain x hold hdoing
    · exact hpoll hdoing hmain
  events := h.events

theorem Inv.move (h : Inv s) {listener : Nat} {before after : Doing}
    (hst : s.move listener before after = some t)
    (hwait : after = .waitingTask → s.main = .messageLoop)
    (hpoll : after = .polling → s.main = .joiningWatcher → s.watcher ≠ .closing listener) :
    Inv t := by
  unfold System.move at hst
  split at hst <;> cases hst
  refine h.withHandlers ?_
  intro x hx
  rcases List.mem_cons.mp hx with rfl | hx
  · exact Or.inr ⟨hwait, hpoll⟩
  · exact Or.inl (List.mem_of_mem_erase hx)

theorem Inv.withWatcher (h : Inv s) {watcher : Watcher} {listeners : List Nat}
    (hwatcher : ∀ listener, watcher = .closing listener → s.main = .joiningWatcher →
      ⟨listener, .polling⟩ ∉ s.handlers) :
    Inv { s with watcher := watcher, listeners := listeners } where
  tasks := h.tasks
  polls hmain x hmem hdoing hclosing := by
    obtain ⟨listener, doing⟩ := x
    cases hdoing
    exact hwatcher listener hclosing hmain hmem
  events := h.events

theorem Inv.withTimer (h : Inv s) {timer : Timer}
    (htimer : timer = .waitingTask → s.main = .messageLoop) :
    Inv { s with timer := timer } where
  tasks := by
    rcases h.tasks with hmain | htask
    · exact Or.inl hmain
    · by_cases hmain : s.main = .messageLoop
      · exact Or.inl hmain
      · exact Or.inr ⟨htask.1, fun hwait => hmain (htimer hwait)⟩
  polls := h.polls
  events := h.events

theorem Inv.finalize (h : Inv s) (hsafe : s.Safe .finalize) (hst : s.finalize = some t) :
    Inv t := by
  obtain ⟨hbegin, hjoin⟩ := hsafe
  unfold System.finalize at hst
  cases hmain : s.main with
  | messageLoop =>
    simp only [hmain] at hst
    cases hst
    exact ⟨Or.inr (hbegin hmain), (fun h => by cases h), fun h => h.elim⟩
  | joiningNotifications =>
    have htask := h.noTask (by simp [hmain])
    simp only [hmain] at hst
    split at hst <;> cases hst
    exact ⟨Or.inr htask, fun _ => hjoin hmain, fun h => h.elim⟩
  | joiningWatcher | joiningTimer =>
    have htask := h.noTask (by simp [hmain])
    simp only [hmain] at hst
    split at hst <;> cases hst
    exact ⟨Or.inr htask, (fun h => by cases h), fun h => h.elim⟩
  | stoppingEvents =>
    have htask := h.noTask (by simp [hmain])
    simp only [hmain] at hst
    cases hst
    exact ⟨Or.inr htask, (fun h => by cases h), fun _ => rfl⟩
  | closingAll | closing listener | joiningDiscovery =>
    have htask := h.noTask (by simp [hmain])
    have hstopped := h.events (by rw [hmain]; trivial)
    simp only [hmain] at hst
    split at hst <;> cases hst
    all_goals
      exact ⟨Or.inr htask, (fun h => by cases h), fun _ => hstopped⟩
  | finalized =>
    simp only [hmain] at hst
    cases hst

theorem step_inv {a : Action} (h : Inv s) (hsafe : s.Safe a) (hst : s.step a = some t) :
    Inv t := by
  cases a with
  | finalize => exact h.finalize hsafe hst
  | notificationsExit | discoveryExit =>
    simp only [System.step] at hst
    split at hst <;> cases hst
    exact ⟨h.tasks, h.polls, h.events⟩
  | beginPass | listsRead | discoveryReplied | endPass | watcherExit =>
    simp only [System.step] at hst
    split at hst <;> cases hst
    exact h.withWatcher fun _ hclosing => by cases hclosing
  | openListener listener =>
    simp only [System.step] at hst
    split at hst <;> cases hst
    next hguard =>
      refine h.withWatcher ?_
      intro _ hclosing
      rw [hguard.1] at hclosing
      cases hclosing
  | closeListener listener =>
    simp only [System.step] at hst
    split at hst <;> cases hst
    refine h.withWatcher ?_
    intro _ hclosing hmain
    cases hclosing
    exact hsafe hmain
  | listenerClosed =>
    simp only [System.step] at hst
    split at hst
    · split at hst <;> cases hst
      exact h.withWatcher fun _ hclosing => by cases hclosing
    · cases hst
  | timerFire | timerFired | timerExit =>
    simp only [System.step] at hst
    split at hst <;> cases hst
    exact h.withTimer fun hwait => by cases hwait
  | timerRunOnMainThread =>
    simp only [System.step] at hst
    split at hst <;> cases hst
    exact h.withTimer fun _ => hsafe
  | request listener =>
    simp only [System.step] at hst
    split at hst <;> cases hst
    refine h.withHandlers ?_
    intro x hx
    rcases List.mem_cons.mp hx with rfl | hx
    · exact Or.inr ⟨(fun hwait => by cases hwait), fun hpoll => by cases hpoll⟩
    · exact Or.inl hx
  | runOnMainThread listener =>
    exact h.move hst (fun _ => hsafe) fun hpoll => by cases hpoll
  | poll listener =>
    exact h.move hst (fun hwait => by cases hwait) fun _ hmain => hsafe hmain
  | pollReturns listener =>
    refine h.move hst (fun hwait => ?_) fun hpoll => ?_
    · split at hwait <;> cases hwait
    · split at hpoll <;> cases hpoll
  | respond handler =>
    simp only [System.step] at hst
    split at hst <;> cases hst
    exact h.withHandlers fun x hx => Or.inl (List.mem_of_mem_erase hx)
  | runTask listener =>
    simp only [System.step] at hst
    split at hst
    · exact h.move hst (fun hwait => by cases hwait) fun hpoll => by cases hpoll
    · cases hst
  | runTimerTask =>
    simp only [System.step] at hst
    split at hst <;> cases hst
    exact h.withTimer fun hwait => by cases hwait

/-- In every run whose steps are all safe, the main thread never joins a thread that
waits for it. -/
theorem shutdown_safe (h : ReachableBy System.step System.Safe {} s) : ¬s.MainStuck :=
  (h.invariant init_inv step_inv).not_mainStuck

/-- A long poll is pending when `Finalize` comes to its listener; `Stop` releases it. -/
def sampleRun : List Action :=
  [.beginPass, .listsRead, .discoveryReplied, .openListener 0, .endPass, .request 0, .poll 0,
    .finalize, .notificationsExit, .finalize, .watcherExit, .finalize, .timerExit, .finalize,
    .finalize, .finalize]

theorem shutdown_safe_sample :
    ∃ s, run (guarded System.step System.Safe) {} sampleRun = some s ∧
      s.main = .closing 0 ∧ s.handlers = [⟨0, .polling⟩] ∧ ¬s.MainStuck := by
  obtain ⟨s, hrun, hs⟩ := (Option.any_eq_true _ _).mp
    (show (run (guarded System.step System.Safe) {} sampleRun).any (fun s =>
      s.main = .closing 0 ∧ s.handlers = [⟨0, .polling⟩]) = true by decide)
  obtain ⟨hmain, hhandlers⟩ := of_decide_eq_true hs
  exact ⟨s, hrun, hmain, hhandlers, shutdown_safe (ReachableBy.of_guarded ⟨_, hrun⟩)⟩

/-! ## The deadlock -/

/-- A handler has asked for a main-thread task when `Finalize` begins. -/
def deadlockRun : List Action :=
  [.beginPass, .listsRead, .discoveryReplied, .openListener 0, .endPass, .request 0,
    .runOnMainThread 0, .finalize, .notificationsExit, .finalize, .watcherExit, .finalize,
    .timerExit, .finalize, .finalize, .finalize]

theorem finalize_deadlocks : ∃ s, run System.step {} deadlockRun = some s ∧ s.MainStuck := by
  obtain ⟨s, hrun, hs⟩ := (Option.any_eq_true _ _).mp
    (show (run System.step {} deadlockRun).any (fun s =>
      s.main = .closing 0 ∧ ⟨0, .waitingTask⟩ ∈ s.handlers) = true by decide)
  obtain ⟨hmain, hmem⟩ := of_decide_eq_true hs
  have hedge : s.WaitsFor (.listener 0) (.handler ⟨0, .waitingTask⟩) :=
    .inFlight (Or.inr hmain) hmem
  refine ⟨s, hrun, .listener 0, .handler ⟨0, .waitingTask⟩, ?_, .single hedge, hmem, Or.inl rfl⟩
  rw [hmain]
  rfl

/-! ## An outstanding task is never run -/

/-- The points of `Finalize` before the timer is joined. -/
def MainThread.BeforeTimer : MainThread → Prop
  | .joiningNotifications | .joiningWatcher | .joiningTimer => True
  | _ => False

/-- The points of `Finalize` before all listeners are closed. -/
def MainThread.BeforeClosed : MainThread → Prop
  | .stoppingEvents | .closingAll | .closing _ => True
  | main => main.BeforeTimer

/-- `Finalize` has begun and a handler of an open listener waits for a task. -/
structure HandlerHangs (listener : Nat) (s : System) : Prop where
  main : s.main.BeforeClosed
  isOpen : listener ∈ s.listeners
  waits : ⟨listener, .waitingTask⟩ ∈ s.handlers

structure TimerHangs (s : System) : Prop where
  main : s.main.BeforeTimer
  waits : s.timer = .waitingTask

section

variable {listener l : Nat}

theorem HandlerHangs.inFlight (h : HandlerHangs listener s) : s.inFlight listener = true :=
  List.any_eq_true.mpr ⟨_, h.waits, by simp⟩

theorem HandlerHangs.ne_messageLoop (h : HandlerHangs listener s) : s.main ≠ .messageLoop := by
  intro hmain
  have := h.main
  rw [hmain] at this
  exact this

/-- The waiting handler is not the one that moves. -/
theorem HandlerHangs.move (h : HandlerHangs listener s) {before after : Doing}
    (hbefore : before ≠ .waitingTask) (hst : s.move l before after = some t) :
    HandlerHangs listener t := by
  unfold System.move at hst
  split at hst <;> cases hst
  refine ⟨h.main, h.isOpen, List.mem_cons_of_mem _ ((List.mem_erase_of_ne ?_).mpr h.waits)⟩
  intro heq
  cases heq
  exact hbefore rfl

/-- Only a listener without handlers is closed, so it is another one. -/
theorem HandlerHangs.mem_erase (h : HandlerHangs listener s) (hfly : ¬s.inFlight l = true) :
    listener ∈ s.listeners.erase l := by
  refine (List.mem_erase_of_ne ?_).mpr h.isOpen
  intro heq
  exact hfly (heq ▸ h.inFlight)

theorem HandlerHangs.finalize (h : HandlerHangs listener s) (hst : s.finalize = some t) :
    HandlerHangs listener t := by
  have hbefore := h.main
  unfold System.finalize at hst
  cases hmain : s.main with
  | messageLoop => exact absurd hmain h.ne_messageLoop
  | joiningNotifications | joiningWatcher | joiningTimer =>
    simp only [hmain] at hst
    split at hst <;> cases hst
    exact ⟨trivial, h.isOpen, h.waits⟩
  | stoppingEvents =>
    simp only [hmain] at hst
    cases hst
    exact ⟨trivial, h.isOpen, h.waits⟩
  | closingAll =>
    simp only [hmain] at hst
    split at hst <;> cases hst
    · next hnil =>
      have := h.isOpen
      rw [hnil] at this
      cases this
    · exact ⟨trivial, h.isOpen, h.waits⟩
  | closing l =>
    simp only [hmain] at hst
    split at hst <;> cases hst
    next hfly => exact ⟨trivial, h.mem_erase hfly, h.waits⟩
  | joiningDiscovery | finalized =>
    rw [hmain] at hbefore
    exact hbefore.elim

theorem step_handlerHangs {a : Action} (h : HandlerHangs listener s) (hst : s.step a = some t) :
    HandlerHangs listener t := by
  cases a with
  | finalize => exact h.finalize hst
  | runOnMainThread l | poll l | pollReturns l => exact h.move (by simp) hst
  | request l =>
    simp only [System.step] at hst
    split at hst <;> cases hst
    exact ⟨h.main, h.isOpen, List.mem_cons_of_mem _ h.waits⟩
  | respond handler =>
    simp only [System.step] at hst
    split at hst <;> cases hst
    next hdone =>
      refine ⟨h.main, h.isOpen, (List.mem_erase_of_ne ?_).mpr h.waits⟩
      intro heq
      subst heq
      simp at hdone
  | runTask l | runTimerTask => simp [System.step, h.ne_messageLoop] at hst
  | openListener l =>
    simp only [System.step] at hst
    split at hst <;> cases hst
    exact ⟨h.main, List.mem_append_left _ h.isOpen, h.waits⟩
  | listenerClosed =>
    simp only [System.step] at hst
    split at hst
    · split at hst <;> cases hst
      next hfly => exact ⟨h.main, h.mem_erase hfly, h.waits⟩
    · cases hst
  | notificationsExit | discoveryExit | beginPass | listsRead | discoveryReplied
  | closeListener l | endPass | watcherExit | timerFire | timerRunOnMainThread | timerFired
  | timerExit =>
    simp only [System.step] at hst
    split at hst <;> cases hst
    exact ⟨h.main, h.isOpen, h.waits⟩

end

theorem step_timerHangs {a : Action} (h : TimerHangs s) (hst : s.step a = some t) :
    TimerHangs t := by
  have hwaits := h.waits
  have hbefore := h.main
  cases a with
  | finalize =>
    simp only [System.step, System.finalize] at hst
    cases hmain : s.main with
    | joiningNotifications | joiningWatcher =>
      simp only [hmain] at hst
      split at hst <;> cases hst
      exact ⟨trivial, hwaits⟩
    | joiningTimer => simp [hmain, hwaits] at hst
    | messageLoop | stoppingEvents | closingAll | closing l | joiningDiscovery | finalized =>
      rw [hmain] at hbefore
      exact hbefore.elim
  | timerFire | timerRunOnMainThread | timerFired | timerExit =>
    simp [System.step, hwaits] at hst
  | runTask l | runTimerTask =>
    have hmain : s.main ≠ .messageLoop := by
      intro hmain
      rw [hmain] at hbefore
      exact hbefore
    simp [System.step, hmain] at hst
  | runOnMainThread l | poll l | pollReturns l =>
    simp only [System.step, System.move] at hst
    split at hst <;> cases hst
    exact ⟨hbefore, hwaits⟩
  | listenerClosed =>
    simp only [System.step] at hst
    split at hst
    · split at hst <;> cases hst
      exact ⟨hbefore, hwaits⟩
    · cases hst
  | notificationsExit | discoveryExit | beginPass | listsRead | discoveryReplied
  | openListener l | closeListener l | endPass | watcherExit | request l | respond handler =>
    simp only [System.step] at hst
    split at hst <;> cases hst
    exact ⟨hbefore, hwaits⟩

/-- Once `Finalize` has begun, a task a handler or the timer waits for keeps it from
ever returning. -/
theorem finalize_hangs (h : (∃ listener, HandlerHangs listener s) ∨ TimerHangs s)
    (hrun : Reachable System.step s t) : t.main ≠ .finalized := by
  intro hmain
  rcases h with ⟨listener, h⟩ | h
  · have := (hrun.invariant h step_handlerHangs).main
    rw [hmain] at this
    exact this
  · have := (hrun.invariant h step_timerHangs).main
    rw [hmain] at this
    exact this

end RemoteControl.Plugin
