import RemoteControl.Commands.Scheduler
import RemoteControl.Timer.Safety

/-!
# The permission and the timer

`Features.Scheduler` is looked at when a request arrives; the timer fires later, and the
settings-changed handler does not tell it anything. The saves of the options dialog, the
requests and the timer as one system: a request's permission check and its call of the timer are
two steps.

* `revoked_timer_fires_iff`: the timer never commits while the permission is revoked as long as
  no save revokes it with the timer running and no call sets it afterwards; any step that does
  can be continued to a commit.
-/

namespace RemoteControl.TimerPermission

open Transition SchedulerCommand

structure System where
  settings : Settings
  timer : SleepTimer.System := {}
  /-- The calls of requests that have passed their check. -/
  handlers : List TimerCall := []

inductive Action
  | save (settings : Settings)
  | request (params : Json)
  | act (call : TimerCall)
  | timer (action : SleepTimer.Action)

/-- Nobody but a request calls `Set` and `Cancel`. -/
def Internal : SleepTimer.Action → Bool
  | .set _ _ => false
  | .cancel => false
  | _ => true

def step (supported : List Bytes) (s : System) : Action → Option System
  | .save settings => some { s with settings }
  | .request params =>
    match scheduler supported s.settings.features params with
    | .error _ => some s
    | .ok call => some { s with handlers := call :: s.handlers }
  | .act call =>
    if call ∈ s.handlers then
      (call.run s.timer).map fun timer => { s with timer, handlers := s.handlers.erase call }
    else none
  | .timer action =>
    if Internal action then (s.timer.step action).map fun timer => { s with timer } else none

/-- The plugin's start, with the settings it has loaded. -/
def init (settings : Settings) : System := { settings }

/-- The worker commits to an action in this step. -/
def Commits (s t : System) : Prop :=
  ∃ id action time, t.timer.log = .commit id action time :: s.timer.log

/-- A save that revokes the permission finds no timer running, and no call sets the timer while it
is revoked; a stopped timer does not matter. -/
def KeepsDisarmed (s : System) : Action → Prop
  | .save settings => settings.features.scheduler = false →
      s.timer.timer.active = false ∨ s.timer.timer.stopped = true
  | .act (.set _ _) => s.settings.features.scheduler = true ∨ s.timer.timer.stopped = true
  | _ => True

/-! ## Steps of the timer -/

section Timer

variable {s t : SleepTimer.System} {a : SleepTimer.Action}

/-- The step adds no commit, does not arm the timer and does not undo its stop. -/
structure Quiet (s t : SleepTimer.System) : Prop where
  no_commit : ∀ id action time, t.log ≠ .commit id action time :: s.log
  active : t.timer.active = true → s.timer.active = true
  stopped : s.timer.stopped = true → t.timer.stopped = true

theorem Quiet.of_eq (hlog : t.log = s.log) (htimer : t.timer = s.timer) : Quiet s t where
  no_commit _ _ _ heq := List.cons_ne_self _ _ (heq.symm.trans hlog)
  active h := htimer ▸ h
  stopped h := htimer ▸ h

theorem Quiet.notified {id : Nat}
    (hlog : t.log = if s.timer.events then .notified id :: s.log else s.log)
    (htimer : t.timer = s.timer) : Quiet s t := by
  split at hlog
  · refine ⟨fun _ _ _ heq => ?_, fun h => htimer ▸ h, fun h => htimer ▸ h⟩
    cases hlog.symm.trans heq
  · exact .of_eq hlog htimer

/-- The timer's own steps are quiet, but for the commits of an armed timer. -/
theorem internal_step (ha : Internal a = true) (hst : s.step a = some t) :
    (s.timer.active = true ∧ s.timer.stopped = false ∧ t.timer.active = false) ∨ Quiet s t := by
  cases a with
  | set action delay => cases ha
  | cancel => cases ha
  | callerNotify id =>
    simp only [SleepTimer.System.step] at hst
    split at hst <;> cases hst
    exact .inr (.notified rfl rfl)
  | stop =>
    simp only [SleepTimer.System.step] at hst
    split at hst <;> cases hst
    exact .inr ⟨(fun _ _ _ heq => by cases heq), (fun h => by cases h), fun _ => rfl⟩
  | stopJoined =>
    simp only [SleepTimer.System.step] at hst
    split at hst <;> cases hst
    exact .inr ⟨fun _ _ _ heq => List.cons_ne_self _ _ heq.symm, fun h => h, fun h => h⟩
  | tick nanoseconds =>
    cases hst
    exact .inr (.of_eq rfl rfl)
  | acquire =>
    simp only [SleepTimer.System.step] at hst
    split at hst <;> cases hst
    exact .inr (.of_eq rfl rfl)
  | wake =>
    simp only [SleepTimer.System.step] at hst
    split at hst
    · split at hst <;> cases hst <;> exact .inr (.of_eq rfl rfl)
    · split at hst <;> cases hst <;> exact .inr (.of_eq rfl rfl)
    · cases hst
  | timeout =>
    simp only [SleepTimer.System.step] at hst
    split at hst
    · split at hst <;> cases hst
      · exact .inr (.of_eq rfl rfl)
      · next hpredicate =>
        rw [Bool.not_eq_true, SleepTimer.deadlinePredicate_eq_false] at hpredicate
        unfold SleepTimer.System.expire
        split
        · exact .inr (.of_eq rfl rfl)
        · exact .inl ⟨hpredicate.2.1, hpredicate.1, rfl⟩
    · cases hst
  | executeDone =>
    simp only [SleepTimer.System.step] at hst
    split at hst <;> cases hst
    exact .inr (.of_eq rfl rfl)
  | workerNotify =>
    simp only [SleepTimer.System.step] at hst
    split at hst <;> cases hst
    exact .inr (.notified rfl rfl)

end Timer

/-! ## Runs that keep the timer disarmed -/

section Runs

variable {supported : List Bytes} {s t : System} {a : Action}

/-- While the permission is revoked the timer is not armed, unless it has been stopped. -/
def Disarmed (s : System) : Prop :=
  s.settings.features.scheduler = false →
    s.timer.timer.active = false ∨ s.timer.timer.stopped = true

theorem step_timer {action : SleepTimer.Action} (hst : step supported s (.timer action) = some t) :
    Internal action = true ∧ ∃ timer, s.timer.step action = some timer ∧ t = { s with timer } := by
  unfold step at hst
  dsimp only at hst
  split at hst
  · next hinternal =>
    obtain ⟨timer, htimer, rfl⟩ := Option.map_eq_some_iff.mp hst
    exact ⟨hinternal, timer, htimer, rfl⟩
  · cases hst

theorem step_act {call : TimerCall} (hst : step supported s (.act call) = some t) :
    ∃ timer, call.run s.timer = some timer ∧
      t = { s with timer, handlers := s.handlers.erase call } := by
  unfold step at hst
  dsimp only at hst
  split at hst
  · obtain ⟨timer, htimer, rfl⟩ := Option.map_eq_some_iff.mp hst
    exact ⟨timer, htimer, rfl⟩
  · cases hst

theorem step_request {params : Json} (hst : step supported s (.request params) = some t) :
    t.settings = s.settings ∧ t.timer = s.timer := by
  unfold step at hst
  dsimp only at hst
  split at hst <;> cases hst <;> exact ⟨rfl, rfl⟩

theorem step_disarmed (h : Disarmed s) (hok : KeepsDisarmed s a)
    (hst : step supported s a = some t) : Disarmed t := by
  cases a with
  | save settings =>
    cases hst
    exact hok
  | request params =>
    obtain ⟨hsettings, htimer⟩ := step_request hst
    rw [Disarmed, hsettings, htimer]
    exact h
  | act call =>
    obtain ⟨timer, hcall, rfl⟩ := step_act hst
    cases call with
    | read =>
      cases hcall
      exact h
    | cancel =>
      cases hcall
      exact fun _ => .inl rfl
    | set action delay =>
      cases hcall
      refine fun hrevoked => .inr (hok.resolve_left fun hgranted => ?_)
      rw [hgranted] at hrevoked
      cases hrevoked
  | timer action =>
    obtain ⟨hinternal, timer, htimer, rfl⟩ := step_timer hst
    intro hrevoked
    rcases internal_step hinternal htimer with ⟨-, -, hfired⟩ | hquiet
    · exact .inl hfired
    · refine (h hrevoked).imp (fun hinactive => ?_) hquiet.stopped
      cases hactive : timer.timer.active with
      | false => rfl
      | true =>
        rw [hquiet.active hactive] at hinactive
        cases hinactive

/-- A commit is of an armed timer. -/
theorem commits_armed (hst : step supported s a = some t) (hcommit : Commits s t) :
    s.timer.timer.active = true ∧ s.timer.timer.stopped = false := by
  obtain ⟨id, name, time, hlog⟩ := hcommit
  cases a with
  | save settings =>
    cases hst
    exact absurd hlog.symm (List.cons_ne_self _ _)
  | request params =>
    rw [(step_request hst).2] at hlog
    exact absurd hlog.symm (List.cons_ne_self _ _)
  | act call =>
    obtain ⟨timer, hcall, rfl⟩ := step_act hst
    cases call with
    | read =>
      cases hcall
      exact absurd hlog.symm (List.cons_ne_self _ _)
    | cancel =>
      cases hcall
      cases hlog
    | set action delay =>
      cases hcall
      cases hlog
  | timer action =>
    obtain ⟨hinternal, timer, htimer, rfl⟩ := step_timer hst
    rcases internal_step hinternal htimer with ⟨hactive, hrunning, -⟩ | hquiet
    · exact ⟨hactive, hrunning⟩
    · exact absurd hlog (hquiet.no_commit id name time)

theorem permitted_of_commits {settings : Settings}
    (h : ReachableBy (step supported) KeepsDisarmed (init settings) s)
    (hst : step supported s a = some t) (hcommit : Commits s t) :
    s.settings.features.scheduler = true := by
  have hdisarmed : Disarmed s := h.invariant (fun _ => .inl rfl) step_disarmed
  obtain ⟨hactive, hrunning⟩ := commits_armed hst hcommit
  cases hpermitted : s.settings.features.scheduler with
  | true => rfl
  | false =>
    rcases hdisarmed hpermitted with hinactive | hstopped
    · rw [hactive] at hinactive
      cases hinactive
    · rw [hrunning] at hstopped
      cases hstopped

end Runs

/-! ## What follows a step that arms it -/

section Armed

variable {s t : SleepTimer.System} {a : SleepTimer.Action}

/-- The worker only leaves its loop when the timer has been stopped. -/
def ExitsStopped (s : SleepTimer.System) : Prop :=
  s.worker = .exited → s.timer.stopped = true

theorem loopHead_exited {timer : SleepTimer} (h : timer.loopHead = .exited) :
    timer.stopped = true := by
  unfold SleepTimer.loopHead at h
  split at h
  · assumption
  · split at h <;> cases h

theorem step_exitsStopped (h : ExitsStopped s) (hst : s.step a = some t) : ExitsStopped t := by
  cases a with
  | set action delay =>
    cases hst
    exact h
  | cancel =>
    cases hst
    exact h
  | callerNotify id =>
    simp only [SleepTimer.System.step] at hst
    split at hst <;> cases hst
    exact h
  | stop =>
    simp only [SleepTimer.System.step] at hst
    split at hst <;> cases hst
    exact fun _ => rfl
  | stopJoined =>
    simp only [SleepTimer.System.step] at hst
    split at hst <;> cases hst
    exact h
  | tick nanoseconds =>
    cases hst
    exact h
  | acquire =>
    simp only [SleepTimer.System.step] at hst
    split at hst <;> cases hst
    exact loopHead_exited
  | wake =>
    simp only [SleepTimer.System.step] at hst
    split at hst
    · split at hst <;> cases hst
      · exact loopHead_exited
      · exact h
    · split at hst <;> cases hst
      · exact loopHead_exited
      · exact h
    · cases hst
  | timeout =>
    simp only [SleepTimer.System.step] at hst
    split at hst
    · split at hst <;> cases hst
      · exact loopHead_exited
      · unfold SleepTimer.System.expire
        split
        · exact loopHead_exited
        · exact fun hexited => by cases hexited
    · cases hst
  | executeDone =>
    simp only [SleepTimer.System.step] at hst
    split at hst <;> cases hst
    exact fun hexited => by cases hexited
  | workerNotify =>
    simp only [SleepTimer.System.step] at hst
    split at hst <;> cases hst
    exact fun hexited => by cases hexited

/-- By steps of its own the worker of an armed timer gets to wait for the deadline. -/
theorem armed_waits (hactive : s.timer.active = true) (hrunning : s.timer.stopped = false)
    (hworker : s.worker ≠ .exited) :
    ∃ as u, (∀ a ∈ as, Internal a = true) ∧ run SleepTimer.System.step s as = some u ∧
      u.timer = s.timer ∧ u.worker = .waitingDeadline s.timer.generation := by
  have hhead : s.timer.loopHead = .waitingDeadline s.timer.generation := by
    simp [SleepTimer.loopHead, hactive, hrunning]
  let u := { s with worker := s.timer.loopHead }
  let v (id : Nat) := { u with log := if s.timer.events then .notified id :: s.log else s.log }
  cases hw : s.worker with
  | acquiring =>
    refine ⟨[.acquire], u, by simp [Internal], ?_, rfl, hhead⟩
    simp [run, SleepTimer.System.step, hw, u]
  | waitingActive =>
    refine ⟨[.wake], u, by simp [Internal], ?_, rfl, hhead⟩
    simp [run, SleepTimer.System.step, hw, SleepTimer.activePredicate, hactive, u]
  | waitingDeadline generation =>
    by_cases hgeneration : s.timer.generation = generation
    · exact ⟨[], s, by simp, rfl, rfl, hgeneration ▸ hw⟩
    · refine ⟨[.wake], u, by simp [Internal], ?_, rfl, hhead⟩
      simp [run, SleepTimer.System.step, hw, SleepTimer.deadlinePredicate, hgeneration, u]
  | executing id action =>
    refine ⟨[.executeDone, .workerNotify, .acquire], v id, by simp [Internal], ?_, rfl, hhead⟩
    simp [run, SleepTimer.System.step, hw, u, v]
  | notifying id =>
    refine ⟨[.workerNotify, .acquire], v id, by simp [Internal], ?_, rfl, hhead⟩
    simp [run, SleepTimer.System.step, hw, u, v]
  | exited => exact absurd hw hworker

/-- Given time, an armed timer commits. -/
theorem armed_commits (hactive : s.timer.active = true) (hrunning : s.timer.stopped = false)
    (hworker : s.worker ≠ .exited) :
    ∃ as u v, (∀ a ∈ as, Internal a = true) ∧ run SleepTimer.System.step s as = some u ∧
      u.step .timeout = some v ∧ ∃ id action time, v.log = .commit id action time :: u.log := by
  obtain ⟨as, u, hinternal, hrun, htimer, hwaits⟩ := armed_waits hactive hrunning hworker
  let later : SleepTimer.System := { u with now := u.now + (u.timer.deadline - u.now).toNat }
  have hpredicate : later.timer.deadlinePredicate s.timer.generation = false := by
    rw [SleepTimer.deadlinePredicate_eq_false, show later.timer = _ from htimer]
    exact ⟨hrunning, hactive, rfl⟩
  have hdue : ¬later.now < later.timer.deadline := by
    show ¬u.now + (u.timer.deadline - u.now).toNat < u.timer.deadline
    omega
  have hlater : later.step .timeout = some later.expire := by
    simp only [SleepTimer.System.step, show later.worker = _ from hwaits, hpredicate,
      Bool.false_eq_true, if_false]
  refine ⟨as ++ [.tick (u.timer.deadline - u.now).toNat], later, later.expire, fun a ha => ?_,
    run_concat_eq_some.mpr ⟨u, hrun, rfl⟩, hlater, later.log.length, later.timer.action, later.now,
    ?_⟩
  · rcases List.mem_append.mp ha with ha | ha
    · exact hinternal a ha
    · rw [List.mem_singleton.mp ha]
      rfl
  · rw [SleepTimer.System.expire, if_neg hdue]

end Armed

section Exact

variable {supported : List Bytes} {s t : System} {a : Action} {settings : Settings}

theorem reachable_exitsStopped (h : Reachable (step supported) (init settings) s) :
    ExitsStopped s.timer := by
  refine h.invariant (I := fun s => ExitsStopped s.timer) (fun hexited => by cases hexited) ?_
  intro s a t hs hst
  cases a with
  | save settings =>
    cases hst
    exact hs
  | request params => exact (step_request hst).2 ▸ hs
  | act call =>
    obtain ⟨timer, hcall, rfl⟩ := step_act hst
    cases call with
    | read =>
      cases hcall
      exact hs
    | cancel => exact step_exitsStopped (a := .cancel) hs hcall
    | set action delay => exact step_exitsStopped (a := .set action delay) hs hcall
  | timer action =>
    obtain ⟨-, timer, htimer, rfl⟩ := step_timer hst
    exact step_exitsStopped hs htimer

theorem timer_step {action : SleepTimer.Action} {timer : SleepTimer.System}
    (hinternal : Internal action = true) (htimer : s.timer.step action = some timer) :
    step supported s (.timer action) = some { s with timer } := by
  rw [step, if_pos hinternal, htimer]
  rfl

theorem run_timer {as : List SleepTimer.Action} {u : SleepTimer.System}
    (has : ∀ a ∈ as, Internal a = true) (hrun : run SleepTimer.System.step s.timer as = some u) :
    run (step supported) s (as.map Action.timer) = some { s with timer := u } := by
  induction as generalizing s with
  | nil =>
    cases hrun
    rfl
  | cons a as ih =>
    obtain ⟨v, hv, hrun⟩ := run_cons_eq_some.mp hrun
    exact run_cons_eq_some.mpr ⟨{ s with timer := v }, timer_step (has a List.mem_cons_self) hv,
      ih (s := { s with timer := v }) (fun b hb => has b (List.mem_cons_of_mem a hb)) hrun⟩

/-- A step that misses the condition leaves a timer armed without permission. -/
theorem missed_armed (hst : step supported s a = some t) (hmissed : ¬KeepsDisarmed s a) :
    t.settings.features.scheduler = false ∧ t.timer.timer.active = true ∧
      t.timer.timer.stopped = false := by
  cases a with
  | save settings =>
    cases hst
    simp only [KeepsDisarmed, Classical.not_imp, not_or, Bool.not_eq_false,
      Bool.not_eq_true] at hmissed
    exact hmissed
  | request params => exact absurd True.intro hmissed
  | act call =>
    obtain ⟨timer, hcall, rfl⟩ := step_act hst
    cases call with
    | read => exact absurd True.intro hmissed
    | cancel => exact absurd True.intro hmissed
    | set action delay =>
      cases hcall
      simp only [KeepsDisarmed, not_or, Bool.not_eq_true] at hmissed
      exact ⟨hmissed.1, rfl, hmissed.2⟩
  | timer action => exact absurd True.intro hmissed

/-- **A revoked timer never fires** in the runs that keep it disarmed: every commit finds the
permission granted. After any other step it can go on to commit while the permission is revoked. -/
theorem revoked_timer_fires_iff (supported : List Bytes) (settings : Settings) :
    (∀ s, ReachableBy (step supported) KeepsDisarmed (init settings) s →
      ∀ a t, step supported s a = some t → Commits s t → s.settings.features.scheduler = true) ∧
    ∀ s, Reachable (step supported) (init settings) s →
      ∀ a t, step supported s a = some t → ¬KeepsDisarmed s a →
        ∃ as u b v, run (step supported) t as = some u ∧ step supported u b = some v ∧
          Commits u v ∧ u.settings.features.scheduler = false := by
  refine ⟨fun s hs a t hst hcommit => permitted_of_commits hs hst hcommit, ?_⟩
  intro s hs a t hst hmissed
  obtain ⟨hrevoked, hactive, hrunning⟩ := missed_armed hst hmissed
  have hworker : t.timer.worker ≠ .exited := by
    intro hexited
    rw [reachable_exitsStopped (hs.tail hst) hexited] at hrunning
    cases hrunning
  obtain ⟨as, u, v, hinternal, hrun, htimeout, hlog⟩ := armed_commits hactive hrunning hworker
  exact ⟨as.map Action.timer, { t with timer := u }, .timer .timeout, { t with timer := v },
    run_timer hinternal hrun, timer_step rfl htimeout, hlog, hrevoked⟩

end Exact

/-! ## Revoked while the timer runs -/

def grantedSettings : Settings := { features := { scheduler := true } }

def supportedActions : List Bytes :=
  [ascii "player_shutdown", ascii "pause_playback", ascii "machine_shutdown"]

def sampleSystem : System → Action → Option System := step supportedActions

/-- A pause in a minute is asked for and set, and the worker waits for it. -/
def setForAMinute : List Action :=
  [.request (.obj [(ascii "action", .str (ascii "pause_playback")),
      (ascii "expiration_delay", .int 60)]),
    .act (.set (ascii "pause_playback") 60), .timer .acquire]

instance (s : System) (a : Action) : Decidable (KeepsDisarmed s a) := by
  cases a with
  | save settings => exact inferInstanceAs (Decidable (_ → _))
  | act call =>
    cases call with
    | set action delay => exact inferInstanceAs (Decidable (_ ∨ _))
    | read | cancel => exact isTrue True.intro
  | request params => exact isTrue True.intro
  | timer action => exact isTrue True.intro

/-- The timeout commits to the pause. -/
def CommitsPause (s : System) : Prop :=
  (sampleSystem s (.timer .timeout)).any fun t =>
    t.timer.log = .commit s.timer.log.length (ascii "pause_playback") 60000000000 :: s.timer.log

theorem CommitsPause.commits {s : System} (h : CommitsPause s) :
    ∃ t, sampleSystem s (.timer .timeout) = some t ∧ Commits s t := by
  obtain ⟨t, hst, hlog⟩ := (Option.any_eq_true _ _).mp h
  exact ⟨t, hst, _, _, _, of_decide_eq_true hlog⟩

instance (s : System) : Decidable (CommitsPause s) := inferInstanceAs (Decidable (_ = true))

/-- With the permission granted the timer fires after its minute. -/
theorem revoked_timer_fires_iff_sample :
    ∃ s t, ReachableBy sampleSystem KeepsDisarmed (init grantedSettings) s ∧ Commits s t ∧
      s.settings.features.scheduler = true := by
  obtain ⟨s, hrun, hs⟩ := (Option.any_eq_true _ _).mp
    (show (run (guarded sampleSystem KeepsDisarmed) (init grantedSettings)
      (setForAMinute ++ [.timer (.tick 60000000000)])).any (fun s => decide (CommitsPause s)) = true
        by decide +kernel)
  obtain ⟨t, hst, hcommit⟩ := (of_decide_eq_true hs).commits
  have hreach : ReachableBy sampleSystem KeepsDisarmed (init grantedSettings) s :=
    .of_guarded ⟨_, hrun⟩
  exact ⟨s, t, hreach, hcommit,
    (revoked_timer_fires_iff supportedActions grantedSettings).1 s hreach _ t hst hcommit⟩

/-- With the permission revoked in between it fires as well. -/
theorem revoked_timer_fires :
    ∃ s t, Reachable sampleSystem (init grantedSettings) s ∧
      sampleSystem s (.timer .timeout) = some t ∧ Commits s t ∧
      s.settings.features.scheduler = false := by
  obtain ⟨s, hrun, hs⟩ := (Option.any_eq_true _ _).mp
    (show (run sampleSystem (init grantedSettings)
      (setForAMinute ++ [.save {}, .timer (.tick 60000000000)])).any (fun s =>
        decide (CommitsPause s ∧ s.settings.features.scheduler = false)) = true by decide +kernel)
  obtain ⟨hpause, hrevoked⟩ := of_decide_eq_true hs
  obtain ⟨t, hst, hcommit⟩ := hpause.commits
  exact ⟨s, t, ⟨_, hrun⟩, hst, hcommit, hrevoked⟩

end RemoteControl.TimerPermission
