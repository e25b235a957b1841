import RemoteControl.Timer.SleepTimer

/-!
# The sleep timer fires what was set, when it is due, once

* `Latest`: the newest event of a log, its notifications aside, is a given `Set`.
* `fires_only_the_latest_set`: every commit is of the latest `Set`, due, with no
  cancel, stop or commit in between.
* `notify_follows`: every `Set`, `Cancel` and fire is followed by its `Notify`, or the
  thread that owes it is on its way there.
* `sleep_timer_safe` puts the two together for every run.
-/

namespace RemoteControl.SleepTimer

open Transition

/-! ## Commits -/

def Event.IsNotified : Event → Prop
  | .notified _ => True
  | _ => False

/-- The newest event of the log, apart from notifications, sets this action for this
deadline. -/
def Latest (action : Bytes) (deadline : Int) (log : List Event) : Prop :=
  ∃ between id older, log = between ++ .set id action deadline :: older ∧
    ∀ e ∈ between, e.IsNotified

theorem Latest.set (id : Nat) (action : Bytes) (deadline : Int) (log : List Event) :
    Latest action deadline (.set id action deadline :: log) :=
  ⟨[], id, log, rfl, fun _ h => by cases h⟩

theorem Latest.notified {action : Bytes} {deadline : Int} {log : List Event}
    (h : Latest action deadline log) (id : Nat) : Latest action deadline (.notified id :: log) := by
  obtain ⟨between, setId, older, rfl, hbetween⟩ := h
  refine ⟨.notified id :: between, setId, older, rfl, ?_⟩
  intro e he
  rcases List.mem_cons.mp he with rfl | he
  · trivial
  · exact hbetween e he

/-- Every commit of the log is of the latest `Set` before it, at or after its deadline. -/
def CommitsJustified (log : List Event) : Prop :=
  ∀ later id action time earlier, log = later ++ .commit id action time :: earlier →
    ∃ deadline ≤ time, Latest action deadline earlier

theorem CommitsJustified.cons {e : Event} {log : List Event} (h : CommitsJustified log)
    (he : ∀ id action time, e = .commit id action time →
      ∃ deadline ≤ time, Latest action deadline log) : CommitsJustified (e :: log) := by
  intro later id action time earlier heq
  cases later with
  | nil =>
    obtain ⟨rfl, rfl⟩ := List.cons_eq_cons.mp heq
    exact he id action time rfl
  | cons e' later =>
    obtain ⟨rfl, htail⟩ := List.cons_eq_cons.mp heq
    exact h later id action time earlier htail

structure Justified (s : System) : Prop where
  /-- While the timer is active its fields are those of the latest `Set`. -/
  active : s.timer.active = true → Latest s.timer.action s.timer.deadline s.log
  commits : CommitsJustified s.log

theorem init_justified : Justified {} where
  active hactive := by cases hactive
  commits later _ _ _ _ heq := by cases later <;> cases heq

section Steps

variable {s t : System}

theorem deadlinePredicate_eq_false {timer : SleepTimer} {generation : BitVec 64} :
    timer.deadlinePredicate generation = false ↔
      timer.stopped = false ∧ timer.active = true ∧ timer.generation = generation := by
  simp [deadlinePredicate, and_assoc]

theorem Justified.expire (h : Justified s) (hactive : s.timer.active = true) :
    Justified s.expire := by
  unfold System.expire
  split
  · exact ⟨h.active, h.commits⟩
  · next hdue =>
    refine ⟨(fun hfalse => by cases hfalse), h.commits.cons fun id action time he => ?_⟩
    cases he
    exact ⟨s.timer.deadline, Int.not_lt.mp hdue, h.active hactive⟩

/-- A `Notify`, where `FEvents` is still set. -/
theorem Justified.notify (h : Justified s) (id : Nat) :
    Justified { s with log := if s.timer.events then .notified id :: s.log else s.log } := by
  split
  · exact ⟨fun hactive => (h.active hactive).notified id,
      h.commits.cons fun id action time he => by cases he⟩
  · exact h

theorem step_justified {a : Action} (h : Justified s) (hst : s.step a = some t) :
    Justified t := by
  cases a with
  | set action delay =>
    cases hst
    exact ⟨fun _ => Latest.set _ _ _ _, h.commits.cons fun _ _ _ he => by cases he⟩
  | cancel =>
    cases hst
    exact ⟨(fun hactive => by cases hactive), h.commits.cons fun _ _ _ he => by cases he⟩
  | callerNotify id =>
    simp only [System.step] at hst
    split at hst
    · cases hst
      exact ⟨(h.notify id).active, (h.notify id).commits⟩
    · cases hst
  | stop =>
    simp only [System.step] at hst
    split at hst
    · cases hst
    · cases hst
      exact ⟨(fun hactive => by cases hactive), h.commits.cons fun _ _ _ he => by cases he⟩
  | stopJoined =>
    simp only [System.step] at hst
    split at hst
    · cases hst
      exact ⟨h.active, h.commits⟩
    · cases hst
  | tick nanoseconds =>
    cases hst
    exact ⟨h.active, h.commits⟩
  | acquire =>
    simp only [System.step] at hst
    split at hst
    · cases hst
      exact ⟨h.active, h.commits⟩
    · cases hst
  | wake =>
    simp only [System.step] at hst
    split at hst
    · split at hst <;> cases hst
      · exact ⟨h.active, h.commits⟩
      · exact h
    · split at hst <;> cases hst
      · exact ⟨h.active, h.commits⟩
      · exact h
    · cases hst
  | timeout =>
    simp only [System.step] at hst
    split at hst
    · split at hst
      · cases hst
        exact ⟨h.active, h.commits⟩
      · next hpredicate =>
        cases hst
        rw [Bool.not_eq_true, deadlinePredicate_eq_false] at hpredicate
        exact h.expire hpredicate.2.1
    · cases hst
  | executeDone =>
    simp only [System.step] at hst
    split at hst
    · cases hst
      exact ⟨h.active, h.commits⟩
    · cases hst
  | workerNotify =>
    simp only [System.step] at hst
    split at hst
    · next id _ =>
      cases hst
      exact ⟨(h.notify id).active, (h.notify id).commits⟩
    · cases hst

end Steps

/-- Between two commits there is a `Set`: no `Set` fires twice. -/
theorem CommitsJustified.set_between {log : List Event} (h : CommitsJustified log)
    {later between earlier : List Event} {id id' : Nat} {action action' : Bytes} {time time' : Int}
    (heq : log = later ++ .commit id action time :: (between ++ .commit id' action' time' :: earlier)) :
    ∃ setId setAction deadline, .set setId setAction deadline ∈ between := by
  obtain ⟨deadline, -, notes, setId, older, hsplit, hnotes⟩ := h later id action time _ heq
  refine ⟨setId, action, deadline, ?_⟩
  rcases List.append_eq_append_iff.mp hsplit with ⟨rest, rfl, hrest⟩ | ⟨rest, rfl, hrest⟩
  · -- the earlier commit would be among the notifications
    cases rest with
    | nil => cases hrest
    | cons e rest =>
      obtain ⟨rfl, -⟩ := List.cons_eq_cons.mp hrest
      have hnote : Event.IsNotified (.commit id' action' time') := hnotes _ (by simp)
      cases hnote
  · cases rest with
    | nil => cases hrest
    | cons e rest =>
      obtain ⟨rfl, -⟩ := List.cons_eq_cons.mp hrest
      simp

/-! ## Notifications -/

/-- The id under which an event is to be notified. -/
def Event.owes : Event → Option Nat
  | .set id _ _ => some id
  | .cancel id => some id
  | .commit id _ _ => some id
  | .stop => none
  | .notified _ => none

/-- A thread is on its way to the `Notify` of event `id`. -/
def System.Pending (s : System) (id : Nat) : Prop :=
  id ∈ s.callers ∨ (∃ action, s.worker = .executing id action) ∨ s.worker = .notifying id

/-- Every event that owes a `Notify` has it later in the log, or it is pending. -/
def NotifyFollows (pending : Nat → Prop) (log : List Event) : Prop :=
  ∀ later e earlier id, log = later ++ e :: earlier → e.owes = some id →
    .notified id ∈ later ∨ pending id

theorem NotifyFollows.mono {pending pending' : Nat → Prop} {log : List Event}
    (h : NotifyFollows pending log) (hmono : ∀ id, pending id → pending' id) :
    NotifyFollows pending' log :=
  fun later e earlier id heq howes => (h later e earlier id heq howes).imp_right (hmono id)

theorem NotifyFollows.cons {pending pending' : Nat → Prop} {log : List Event} {e : Event}
    (h : NotifyFollows pending log) (he : ∀ id, e.owes = some id → pending' id)
    (hmono : ∀ id, pending id → pending' id ∨ e = .notified id) :
    NotifyFollows pending' (e :: log) := by
  intro later e' earlier id heq howes
  cases later with
  | nil =>
    obtain ⟨rfl, rfl⟩ := List.cons_eq_cons.mp heq
    exact .inr (he id howes)
  | cons e'' later =>
    obtain ⟨rfl, htail⟩ := List.cons_eq_cons.mp heq
    rcases h later e' earlier id htail howes with hmem | hpending
    · exact .inl (List.mem_cons_of_mem _ hmem)
    · rcases hmono id hpending with hpending | rfl
      · exact .inr hpending
      · exact .inl List.mem_cons_self

/-- Places in the log are fresh, so different events owe different notifications. -/
structure Fresh (log : List Event) : Prop where
  lt_length : ∀ e ∈ log, ∀ id, e.owes = some id → id < log.length
  distinct : (log.filterMap Event.owes).Nodup

theorem Fresh.cons {log : List Event} {e : Event} (h : Fresh log)
    (he : ∀ id, e.owes = some id → id = log.length) : Fresh (e :: log) := by
  constructor
  · intro e' he' id howes
    rw [List.length_cons]
    rcases List.mem_cons.mp he' with rfl | he'
    · have := he id howes
      omega
    · have := h.lt_length e' he' id howes
      omega
  · cases howes : e.owes with
    | none =>
      rw [List.filterMap_cons_none howes]
      exact h.distinct
    | some id =>
      rw [List.filterMap_cons_some howes, List.nodup_cons]
      refine ⟨fun hmem => ?_, h.distinct⟩
      obtain ⟨e', he', howes'⟩ := List.mem_filterMap.mp hmem
      have := h.lt_length e' he' id howes'
      have := he id howes
      omega

structure Notifies (s : System) : Prop where
  follows : s.timer.events = true → NotifyFollows s.Pending s.log
  fresh : Fresh s.log

theorem init_notifies : Notifies {} where
  follows _ later _ _ _ heq _ := by cases later <;> cases heq
  fresh := ⟨(fun _ he => by cases he), List.nodup_nil⟩

section Steps

variable {s t : System}

theorem Notifies.of_eq (h : Notifies s) (hlog : t.log = s.log)
    (hevents : t.timer.events = true → s.timer.events = true)
    (hpending : ∀ id, s.Pending id → t.Pending id) : Notifies t where
  follows he := hlog ▸ (h.follows (hevents he)).mono hpending
  fresh := hlog ▸ h.fresh

/-- Moving the worker from a place where it owes no notification. -/
theorem Notifies.moveWorker (h : Notifies s) {worker : Worker}
    (hidle : ∀ id, (∀ action, s.worker ≠ .executing id action) ∧ s.worker ≠ .notifying id) :
    Notifies { s with worker := worker } := by
  refine h.of_eq rfl (fun he => he) ?_
  intro id hpending
  rcases hpending with hcaller | ⟨action, hworker⟩ | hworker
  · exact .inl hcaller
  · exact absurd hworker ((hidle id).1 action)
  · exact absurd hworker (hidle id).2

theorem Notifies.call (h : Notifies s) {timer : SleepTimer} {e : Event}
    (hevents : timer.events = s.timer.events) (he : e.owes = some s.log.length) :
    Notifies { s with
      timer := timer, callers := s.log.length :: s.callers, log := e :: s.log } where
  follows hset := by
    refine (h.follows (hevents ▸ hset)).cons (fun id howes => ?_) fun id hpending => .inl ?_
    · rw [he] at howes
      exact .inl (Option.some.inj howes ▸ List.mem_cons_self)
    · exact hpending.imp_left (List.mem_cons_of_mem _)
  fresh := h.fresh.cons fun id howes => by
    rw [he] at howes
    exact (Option.some.inj howes).symm

theorem Notifies.expire (h : Notifies s)
    (hidle : ∀ id, (∀ action, s.worker ≠ .executing id action) ∧ s.worker ≠ .notifying id) :
    Notifies s.expire := by
  unfold System.expire
  split
  · exact h.moveWorker hidle
  · refine ⟨fun he => (h.follows he).cons (fun id howes => ?_) fun id hpending => ?_,
      h.fresh.cons fun id howes => (Option.some.inj howes).symm⟩
    · cases howes
      exact .inr (.inl ⟨_, rfl⟩)
    · rcases hpending with hcaller | ⟨action, hworker⟩ | hworker
      · exact .inl (.inl hcaller)
      · exact absurd hworker ((hidle id).1 action)
      · exact absurd hworker (hidle id).2

theorem Notifies.notify (h : Notifies s) {callers : List Nat} {worker : Worker} (id : Nat)
    (hpending : ∀ other, s.Pending other → other = id ∨
      System.Pending { s with callers := callers, worker := worker } other) :
    Notifies { s with
      callers := callers, worker := worker
      log := if s.timer.events then .notified id :: s.log else s.log } := by
  cases hevents : s.timer.events with
  | false =>
    refine ⟨fun he => ?_, h.fresh⟩
    rw [hevents] at he
    cases he
  | true =>
    refine ⟨fun _ => (h.follows hevents).cons (fun _ howes => by cases howes)
      fun other hother => ?_, h.fresh.cons fun _ howes => by cases howes⟩
    rcases hpending other hother with rfl | hother
    · exact .inr rfl
    · exact .inl hother

theorem step_notifies {a : Action} (h : Notifies s) (hst : s.step a = some t) : Notifies t := by
  cases a with
  | set action delay =>
    cases hst
    exact h.call rfl rfl
  | cancel =>
    cases hst
    exact h.call rfl rfl
  | callerNotify id =>
    simp only [System.step] at hst
    split at hst
    · cases hst
      refine h.notify id ?_
      intro other hpending
      by_cases hother : other = id
      · exact .inl hother
      · exact .inr (hpending.imp_left (List.mem_erase_of_ne hother).mpr)
    · cases hst
  | stop =>
    simp only [System.step] at hst
    split at hst
    · cases hst
    · cases hst
      exact ⟨fun he => (h.follows he).cons (fun _ howes => by cases howes) fun _ => .inl,
        h.fresh.cons fun _ howes => by cases howes⟩
  | stopJoined =>
    simp only [System.step] at hst
    split at hst
    · cases hst
      exact h.of_eq rfl (fun he => by cases he) fun _ hpending => hpending
    · cases hst
  | tick nanoseconds =>
    cases hst
    exact h.of_eq rfl (fun he => he) fun _ hpending => hpending
  | acquire =>
    simp only [System.step] at hst
    split at hst
    · next hworker =>
      cases hst
      exact h.moveWorker fun id => by simp [hworker]
    · cases hst
  | wake =>
    simp only [System.step] at hst
    split at hst
    · next hworker =>
      split at hst <;> cases hst
      · exact h.moveWorker fun id => by simp [hworker]
      · exact h
    · next hworker =>
      split at hst <;> cases hst
      · exact h.moveWorker fun id => by simp [hworker]
      · exact h
    · cases hst
  | timeout =>
    simp only [System.step] at hst
    split at hst
    · next hworker =>
      split at hst <;> cases hst
      · exact h.moveWorker fun id => by simp [hworker]
      · exact h.expire fun id => by simp [hworker]
    · cases hst
  | executeDone =>
    simp only [System.step] at hst
    split at hst
    · next id action hworker =>
      cases hst
      refine h.of_eq rfl (fun he => he) ?_
      intro other hpending
      rcases hpending with hcaller | ⟨action', hother⟩ | hother
      · exact .inl hcaller
      · rw [hworker] at hother
        cases hother
        exact .inr (.inr rfl)
      · rw [hworker] at hother
        cases hother
    · cases hst
  | workerNotify =>
    simp only [System.step] at hst
    split at hst
    · next id hworker =>
      cases hst
      refine h.notify id ?_
      intro other hpending
      rcases hpending with hcaller | ⟨action', hother⟩ | hother
      · exact .inr (.inl hcaller)
      · rw [hworker] at hother
        cases hother
      · rw [hworker] at hother
        cases hother
        exact .inl rfl
    · cases hst

/-- The steps a thread takes by itself to get its `Notify` done. -/
def Action.LeadsToNotify (id : Nat) : Action → Prop
  | .callerNotify id' => id' = id
  | .executeDone => True
  | .workerNotify => True
  | _ => False

/-- A pending notification only needs steps of the thread that owes it. -/
theorem System.Pending.notified {id : Nat} (h : s.Pending id) (hevents : s.timer.events = true) :
    ∃ as t, (∀ a ∈ as, a.LeadsToNotify id) ∧ run System.step s as = some t ∧
      .notified id ∈ t.log := by
  rcases h with hcaller | ⟨action, hworker⟩ | hworker
  · refine ⟨[.callerNotify id], { s with
      callers := s.callers.erase id, log := .notified id :: s.log }, ?_, ?_, List.mem_cons_self⟩
    · simp [Action.LeadsToNotify]
    · simp [run, System.step, hcaller, hevents]
  · refine ⟨[.executeDone, .workerNotify], { s with
      worker := .acquiring, log := .notified id :: s.log }, ?_, ?_, List.mem_cons_self⟩
    · simp [Action.LeadsToNotify]
    · simp [run, System.step, hworker, hevents]
  · refine ⟨[.workerNotify], { s with
      worker := .acquiring, log := .notified id :: s.log }, ?_, ?_, List.mem_cons_self⟩
    · simp [Action.LeadsToNotify]
    · simp [run, System.step, hworker, hevents]

end Steps

/-! ## Every run -/

/-- **Sleep-timer safety.** In every run: each commit is of the action of the most
recent `Set`, at or after its deadline, with no cancel, stop or earlier commit since
(so no `Set` fires twice, and none that was replaced or cancelled fires); and while
`FEvents` is set, every `Set`, `Cancel` and fire has its own `Notify` after it, or
its thread gets there with steps of its own. -/
theorem sleep_timer_safe {s : System} (h : Reachable System.step {} s) :
    (∀ later id action time earlier, s.log = later ++ .commit id action time :: earlier →
      ∃ deadline ≤ time, Latest action deadline earlier) ∧
    (∀ later id action time between id' action' time' earlier,
      s.log = later ++ .commit id action time :: (between ++ .commit id' action' time' :: earlier) →
        ∃ setId setAction deadline, .set setId setAction deadline ∈ between) ∧
    (s.log.filterMap Event.owes).Nodup ∧
    (s.timer.events = true → ∀ later e earlier id, s.log = later ++ e :: earlier →
      e.owes = some id → .notified id ∈ later ∨
        ∃ as t, (∀ a ∈ as, a.LeadsToNotify id) ∧ run System.step s as = some t ∧
          .notified id ∈ t.log) := by
  have hjustified : Justified s := h.invariant init_justified step_justified
  have hnotifies : Notifies s := h.invariant init_notifies step_notifies
  refine ⟨hjustified.commits, ?_, hnotifies.fresh.distinct, ?_⟩
  · intro later id action time between id' action' time' earlier heq
    exact hjustified.commits.set_between heq
  · intro hevents later e earlier id heq howes
    exact (hnotifies.follows hevents later e earlier id heq howes).imp_right
      fun hpending => hpending.notified hevents

/-- A timer is set, replaced while the worker waits, fires, and is cancelled too late. -/
def sampleRun : List Action :=
  [.acquire, .set (ascii "machine_shutdown") 60, .callerNotify 0, .wake,
    .set (ascii "pause_playback") 1, .timeout, .tick 1000000000, .timeout, .cancel]

theorem sleep_timer_safe_sample :
    ∃ s, run System.step {} sampleRun = some s ∧
      s.log = [.cancel 4, .commit 3 (ascii "pause_playback") 1000000000,
        .set 2 (ascii "pause_playback") 1000000000, .notified 0,
        .set 0 (ascii "machine_shutdown") 60000000000] ∧
      ∃ deadline ≤ 1000000000, Latest (ascii "pause_playback") deadline
        [.set 2 (ascii "pause_playback") 1000000000, .notified 0,
          .set 0 (ascii "machine_shutdown") 60000000000] := by
  obtain ⟨s, hrun, hs⟩ := (Option.any_eq_true _ _).mp
    (show (run System.step {} sampleRun).any (fun s => s.log = [.cancel 4,
      .commit 3 (ascii "pause_playback") 1000000000, .set 2 (ascii "pause_playback") 1000000000,
      .notified 0, .set 0 (ascii "machine_shutdown") 60000000000]) = true by decide +kernel)
  have hlog := of_decide_eq_true hs
  exact ⟨s, hrun, hlog, (sleep_timer_safe ⟨_, hrun⟩).1 [.cancel 4] 3 _ _ _ hlog⟩

end RemoteControl.SleepTimer
