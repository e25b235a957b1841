import RemoteControl.Events.StateUpdateEvents
import RemoteControl.Commands.MainThread
import RemoteControl.Lib.CondVar

/-!
# The waiters of StateUpdateEvents

Any number of `Wait` calls on one `StateUpdateEvents`, under any interleaving with
`Notify` and `Stop` calls of other threads, timeouts and spurious wake-ups, and what
`SubscribeOnAIMPStateUpdateEvent` makes of what its `Wait` returned.

`wakes_the_right_waiters`: a `Notify` of its own kind frees a `Wait` for good, one of
another kind never does, and `Stop` makes every `Wait` return false.
-/

namespace RemoteControl

open Transition CondVar

/-- What `Wait` has on its stack. -/
structure Seen where
  kind : EventKind
  version : BitVec 64
deriving DecidableEq

/-- The calls that change what the waits look at. -/
inductive Change
  | notify (kind : EventKind)
  | stop
deriving DecidableEq

namespace StateUpdateEvents

/-- The locked sections of `Wait`, `Notify` and `Stop`. -/
def monitor : Monitor StateUpdateEvents EventKind Seen Change Bool where
  remember kind events := ⟨kind, events.enter kind⟩
  predicate events seen := events.predicate seen.kind seen.version
  result events seen := events.waitResult seen.kind seen.version
  update
    | .notify kind, events => events.notify kind
    | .stop, events => events.stop

/-- The state of the object and of the `Wait` calls on it. -/
abbrev Waits := CondVar.State StateUpdateEvents Seen Bool

abbrev WaitAction := CondVar.Action EventKind Change

/-- The number of `Notify` calls of a kind in a run. -/
def notifies (kind : EventKind) (as : List WaitAction) : Nat :=
  (updates as).count (.notify kind)

section Counters

variable {s t : Waits} {as : List WaitAction} {kind : EventKind}

theorem notify_versions (e : StateUpdateEvents) (kind other : EventKind) :
    (e.notify other).versions kind =
      e.versions kind + BitVec.ofNat 64 (if other = kind then 1 else 0) := by
  simp only [notify]
  by_cases heq : kind = other
  · subst heq
    simp
  · rw [if_neg heq, if_neg (Ne.symm heq)]
    simp

theorem foldl_versions (us : List Change) (e : StateUpdateEvents) :
    (us.foldl (fun x u => monitor.update u x) e).versions kind =
      e.versions kind + BitVec.ofNat 64 (us.count (.notify kind)) := by
  induction us generalizing e with
  | nil => simp
  | cons u us ih =>
    rw [List.foldl_cons, ih]
    cases u with
    | stop => simp [monitor, stop]
    | notify other =>
      rw [List.count_cons]
      simp only [monitor, notify_versions, beq_iff_eq, Change.notify.injEq]
      rw [BitVec.ofNat_add, BitVec.add_assoc, BitVec.add_comm (BitVec.ofNat 64 _)]

/-- The version counts the `Notify` calls, modulo 2^64. -/
theorem run_versions (h : run monitor.step s as = some t) :
    t.shared.versions kind = s.shared.versions kind + BitVec.ofNat 64 (notifies kind as) := by
  rw [run_shared h, foldl_versions]
  rfl

theorem foldl_stopped (us : List Change) (e : StateUpdateEvents) :
    (us.foldl (fun x u => monitor.update u x) e).stopped = true ↔
      e.stopped = true ∨ Change.stop ∈ us := by
  induction us generalizing e with
  | nil => simp
  | cons u us ih =>
    rw [List.foldl_cons, ih]
    cases u <;> simp [monitor, notify, stop]

theorem run_stopped (h : run monitor.step s as = some t) :
    t.shared.stopped = true ↔ s.shared.stopped = true ∨ Change.stop ∈ updates as := by
  rw [run_shared h, foldl_stopped]

theorem notifies_append (as bs : List WaitAction) :
    notifies kind (as ++ bs) = notifies kind as + notifies kind bs := by
  simp [notifies, updates]

theorem notifies_le {as bs : List WaitAction} (h : as <+: bs) :
    notifies kind as ≤ notifies kind bs := by
  obtain ⟨cs, rfl⟩ := h
  rw [notifies_append]
  exact Nat.le_add_right _ _

/-- The counter has moved on when there were some `Notify` calls, but not 2^64. -/
theorem version_moved {version : BitVec 64} {n : Nat} (hpos : 0 < n) (hfew : n < 2 ^ 64) :
    version + BitVec.ofNat 64 n ≠ version := by
  intro heq
  have hmod := congrArg BitVec.toNat heq
  rw [BitVec.toNat_add, BitVec.toNat_ofNat, Nat.mod_eq_of_lt hfew] at hmod
  have := version.isLt
  omega

end Counters

/-! ## One wait -/

section Wait

variable {s₀ s t : Waits} {as : List WaitAction} {w : Nat} {kind : EventKind} {seen : Seen}

/-- `Wait` enters: it sleeps, or returns false at once when the server has stopped. -/
theorem enter_phase (h : monitor.step s₀ (.enter w kind) = some s) :
    (s.phase w = .asleep ⟨kind, s.shared.versions kind⟩ ∧ s.shared.stopped = false) ∨
      (s.phase w = .returned ⟨kind, s.shared.versions kind⟩ false ∧ s.shared.stopped = true) := by
  simp only [Monitor.step] at h
  split at h <;> cases h
  rw [State.setPhase_phase, if_pos rfl]
  cases hstopped : s₀.shared.stopped with
  | true => simp [Monitor.look, monitor, predicate, waitResult, enter, hstopped]
  | false => simp [Monitor.look, monitor, predicate, enter, hstopped]

/-- What a pending wait remembers is the version it saw when it entered. -/
theorem pending_seen (henter : monitor.step s₀ (.enter w kind) = some s)
    (hrun : run monitor.step s as = some t) (hpending : (t.phase w).pending? = some seen) :
    s.phase w = .asleep seen ∧ seen = ⟨kind, s.shared.versions kind⟩ := by
  rcases enter_phase henter with ⟨hasleep, -⟩ | ⟨hreturned, -⟩
  · have hk : (s.phase w).pending? = some ⟨kind, s.shared.versions kind⟩ := by rw [hasleep]; rfl
    rcases pending_run hrun hk with hk' | ⟨r, hr⟩
    · rw [hpending] at hk'
      cases hk'
      exact ⟨hasleep, rfl⟩
    · rw [hr] at hpending
      cases hpending
  · rw [returned_stays hrun hreturned] at hpending
    cases hpending

theorem predicate_of_notifies (hseen : seen = ⟨kind, s.shared.versions kind⟩)
    (hrun : run monitor.step s as = some t) (hpos : 0 < notifies kind as)
    (hfew : notifies kind as < 2 ^ 64) : monitor.predicate t.shared seen = true := by
  subst hseen
  simp only [monitor, predicate, run_versions hrun, Bool.or_eq_true, bne_iff_ne]
  exact .inr (version_moved hpos hfew)

theorem predicate_of_no_notifies (hseen : seen = ⟨kind, s.shared.versions kind⟩)
    (hrun : run monitor.step s as = some t) (hnone : notifies kind as = 0)
    (hstopped : t.shared.stopped = false) : monitor.predicate t.shared seen = false := by
  subst hseen
  simp [monitor, predicate, run_versions hrun, hnone, hstopped]

/-- After a `Notify` of its kind a pending wait does not go back to sleep, and once the
`notify_all` of that call is through it is not asleep either. -/
theorem awake_after_notify {before after : List WaitAction} {n : Nat}
    (henter : monitor.step s₀ (.enter w kind) = some s)
    (hrun : run monitor.step s (before ++ .update n (.notify kind) :: after) = some t)
    (hfew : notifies kind (before ++ .update n (.notify kind) :: after) < 2 ^ 64)
    (hpending : (t.phase w).pending? = some seen) :
    monitor.predicate t.shared seen = true ∧
      (.announce n ∈ after → ¬ (t.phase w).Asleep) := by
  obtain ⟨hasleep, hseen⟩ := pending_seen henter hrun hpending
  have hpos : ∀ bs, 0 < notifies kind (before ++ .update n (.notify kind) :: bs) := by
    intro bs
    rw [notifies_append]
    simp only [notifies, updates, List.filterMap_cons, List.count_cons_self]
    omega
  refine ⟨predicate_of_notifies hseen hrun (hpos after) hfew, ?_⟩
  intro hannounce
  obtain ⟨mid, rest, rfl⟩ := List.append_of_mem hannounce
  rw [← List.cons_append, ← List.append_assoc] at hrun
  obtain ⟨x, hx, hrest⟩ := run_append_eq_some.mp hrun
  obtain ⟨y, hy, hrest⟩ := run_cons_eq_some.mp hrest
  have hto_y : run monitor.step s
      ((before ++ .update n (.notify kind) :: mid) ++ [.announce n]) = some y :=
    run_concat_eq_some.mpr ⟨x, hx, hy⟩
  -- the wait is still pending there, since it is at the end
  have hk : (y.phase w).pending? = some seen := by
    rcases pending_run hto_y (k := seen) (by rw [hasleep]; rfl) with hk | ⟨r, hr⟩
    · exact hk
    · rw [returned_stays hrest hr] at hpending
      cases hpending
  refine awake_run hrest hk (announce_awake hy w) ?_
  intro ahead z hprefix hz
  have hto_z := run_append_eq_some.mpr ⟨y, hto_y, hz⟩
  refine predicate_of_notifies hseen hto_z ?_ (lt_of_le_of_lt (notifies_le ?_) hfew)
  · rw [List.append_assoc, List.append_assoc]
    exact hpos _
  · obtain ⟨last, rfl⟩ := hprefix
    exact ⟨last, by simp⟩

/-- Without a `Notify` of its kind, and before `Stop`, only its timeout ends a wait. -/
theorem pending_without_notify (henter : monitor.step s₀ (.enter w kind) = some s)
    (hrun : run monitor.step s as = some t) (hnone : notifies kind as = 0)
    (hstopped : t.shared.stopped = false) (htimeout : .timeout w ∉ as) :
    (t.phase w).pending? = some ⟨kind, s.shared.versions kind⟩ := by
  have hrunning : ∀ before after mid, as = before ++ after →
      run monitor.step s before = some mid → mid.shared.stopped = false := by
    rintro before after mid rfl hbefore
    obtain ⟨mid', hmid', hafter⟩ := run_append_eq_some.mp hrun
    cases hbefore.symm.trans hmid'
    rw [Bool.eq_false_iff] at hstopped ⊢
    exact fun hstop => hstopped ((run_stopped hafter).mpr (.inl hstop))
  rcases enter_phase henter with ⟨hasleep, -⟩ | ⟨-, hstop⟩
  · refine blocked_run hrun (by rw [hasleep]; rfl) (by rw [hasleep]; nofun) htimeout ?_
    rintro before mid ⟨after, rfl⟩ hbefore
    refine predicate_of_no_notifies rfl hbefore ?_ (hrunning before after mid rfl hbefore)
    exact Nat.eq_zero_of_le_zero (hnone ▸ notifies_le ⟨after, rfl⟩)
  · rw [hrunning [] as s rfl rfl] at hstop
    cases hstop

/-- A wait that returned true did so in a state that was not stopped, after a `Notify`
of its kind. -/
theorem notified_of_returned_true (henter : monitor.step s₀ (.enter w kind) = some s)
    (hrun : run monitor.step s as = some t) (hreturned : t.phase w = .returned seen true) :
    ∃ before after mid, as = before ++ after ∧ run monitor.step s before = some mid ∧
      (mid.phase w).pending? = some seen ∧ mid.shared.stopped = false ∧
        0 < notifies kind before := by
  rcases enter_phase henter with ⟨hasleep, -⟩ | ⟨hfalse, -⟩
  · obtain ⟨before, after, mid, rfl, hbefore, hpending, rfl, hresult⟩ :=
      returned_run hrun (by rw [hasleep]; rfl) hreturned
    have hwait : monitor.predicate mid.shared ⟨kind, s.shared.versions kind⟩ = true ∧
        mid.shared.stopped = false := by
      simpa [monitor, waitResult] using hresult.symm
    refine ⟨before, after, mid, rfl, hbefore, hpending, hwait.2, ?_⟩
    rw [Nat.pos_iff_ne_zero]
    intro hnone
    rw [predicate_of_no_notifies rfl hbefore hnone hwait.2] at hwait
    cases hwait.1
  · rw [returned_stays hrun hfalse] at hreturned
    cases hreturned

end Wait

/-! ## Stop -/

section Stop

variable {s t : Waits} {as : List WaitAction} {w : Nat} {seen : Seen}

theorem predicate_of_stopped (hstopped : s.shared.stopped = true) (seen : Seen) :
    monitor.predicate s.shared seen = true := by
  simp [monitor, predicate, hstopped]

theorem result_of_stopped (hstopped : s.shared.stopped = true) (seen : Seen) :
    monitor.result s.shared seen = false := by
  simp [monitor, waitResult, hstopped]

theorem stopped_of_step {a : WaitAction} (hst : monitor.step s a = some t)
    (hstopped : s.shared.stopped = true) : t.shared.stopped = true := by
  have hrun : run monitor.step s [a] = some t := by
    rw [run_cons, hst]
    rfl
  exact (run_stopped hrun).mpr (.inl hstopped)

/-- A wait that has not returned true. -/
def NotTrue (s : Waits) (w : Nat) : Prop := ∀ seen, s.phase w ≠ .returned seen true

theorem stopped_notTrue_step {a : WaitAction} (hst : monitor.step s a = some t)
    (hstopped : s.shared.stopped = true) (h : NotTrue s w) :
    t.shared.stopped = true ∧ NotTrue t w := by
  refine ⟨stopped_of_step hst hstopped, ?_⟩
  intro seen hreturned
  rcases result_of_step hst hreturned with hbefore | hresult
  · exact h seen hbefore
  · rw [result_of_stopped hstopped] at hresult
    cases hresult

/-- Once the `notify_all` of a `Stop` is through, a pending wait can return, and
returns false. -/
theorem false_after_stop {s₀ : Waits} {n : Nat} (hstop : monitor.step s₀ (.update n .stop) = some s)
    (hrun : run monitor.step s as = some t) (hannounce : .announce n ∈ as)
    (hpending : (t.phase w).pending? = some seen) :
    monitor.step t (.resume w) = some (t.setPhase w (.returned seen false)) := by
  have hstopped : s.shared.stopped = true := by
    rw [step_shared hstop]
    rfl
  obtain ⟨before, rest, rfl⟩ := List.append_of_mem hannounce
  obtain ⟨x, hx, hrest⟩ := run_append_eq_some.mp hrun
  obtain ⟨y, hy, hrest⟩ := run_cons_eq_some.mp hrest
  have hstopped_y : y.shared.stopped = true :=
    (run_stopped (run_concat_eq_some.mpr ⟨x, hx, hy⟩)).mpr (.inl hstopped)
  -- from here on nobody sleeps: a wait that enters now returns at once
  have ⟨hstopped_t, hawake⟩ : t.shared.stopped = true ∧ ¬ (t.phase w).Asleep := by
    refine run_preserves (I := fun s : Waits => s.shared.stopped = true ∧ ¬ (s.phase w).Asleep)
      hrest ⟨hstopped_y, announce_awake hy w⟩ ?_
    intro u a v ⟨hu, hawake⟩ hst
    exact ⟨stopped_of_step hst hu,
      awake_of_predicate hst hawake (predicate_of_stopped hu)⟩
  rw [← result_of_stopped hstopped_t seen]
  exact resume_returns hpending hawake (predicate_of_stopped hstopped_t seen)

end Stop

end StateUpdateEvents

/-! ## Subscriptions -/

namespace Subscriptions

open StateUpdateEvents

/-- What `SubscribeOnAIMPStateUpdateEvent` does after `Wait`: the error reply, or the
snapshot of its kind. -/
def answerTo (kind : EventKind) (result stopped : Bool) : Except Failure EventKind :=
  if !result && stopped then .error (.rpcError (-32000) (ascii "server is stopping")) else .ok kind

structure System where
  waits : Waits := { shared := {} }
  answer : Nat → Option (Except Failure EventKind) := fun _ => none

inductive Action
  | wait (action : WaitAction)
  /-- The test of `IsStopped` after the wait `w` has returned. -/
  | answer (w : Nat)

def System.step (s : System) : Action → Option System
  | .wait action => (monitor.step s.waits action).map fun waits => { s with waits }
  | .answer w =>
    match s.waits.phase w, s.answer w with
    | .returned seen result, none => some { s with
        answer := fun other =>
          if other = w then some (answerTo seen.kind result s.waits.shared.stopped)
          else s.answer other }
    | _, _ => none

/-- After `Stop` a request that had not got true from its wait is refused. -/
structure Refused (w : Nat) (s : System) : Prop where
  stopped : s.waits.shared.stopped = true
  notTrue : NotTrue s.waits w
  answer : s.answer w = none ∨
    s.answer w = some (.error (.rpcError (-32000) (ascii "server is stopping")))

theorem Refused.step {s t : System} {a : Action} {w : Nat} (h : Refused w s)
    (hst : s.step a = some t) : Refused w t := by
  cases a with
  | wait action =>
    simp only [System.step, Option.map_eq_some_iff] at hst
    obtain ⟨waits, hwaits, rfl⟩ := hst
    have ⟨hstopped, hnotTrue⟩ := stopped_notTrue_step hwaits h.stopped h.notTrue
    exact ⟨hstopped, hnotTrue, h.answer⟩
  | answer w' =>
    simp only [System.step] at hst
    split at hst <;> cases hst
    next seen result hphase _ =>
      refine ⟨h.stopped, h.notTrue, ?_⟩
      dsimp only
      split
      · next heq =>
        subst heq
        cases result with
        | true => exact absurd hphase (h.notTrue seen)
        | false => rw [h.stopped]; exact .inr rfl
      · exact h.answer

/-- **`StateUpdateEvents` wakes exactly the right waiters.** After a `Notify` of its
kind a pending `Wait` never goes back to blocking, and it is free to return when the
call is through; without one, and before `Stop`, only its timeout ends it; it returns
true only after one and before `Stop`. Once `Stop` has been called no `Wait` returns
true, pending or later, and its request is refused. -/
theorem wakes_the_right_waiters :
    (∀ {s₀ s t : Waits} {w : Nat} {kind : EventKind} {as : List WaitAction},
      monitor.step s₀ (.enter w kind) = some s → run monitor.step s as = some t →
        (∀ before after n seen, as = before ++ .update n (.notify kind) :: after →
          notifies kind as < 2 ^ 64 → (t.phase w).pending? = some seen →
            (∀ u, monitor.step t (.resume w) = some u → ∃ r, u.phase w = .returned seen r) ∧
            (.announce n ∈ after → ∃ u, monitor.step t (.resume w) = some u)) ∧
        (notifies kind as = 0 → t.shared.stopped = false → .timeout w ∉ as →
          ∃ seen, (t.phase w).pending? = some seen) ∧
        (∀ seen, t.phase w = .returned seen true →
          ∃ before after mid, as = before ++ after ∧ run monitor.step s before = some mid ∧
            (mid.phase w).pending? = some seen ∧ mid.shared.stopped = false ∧
              0 < notifies kind before)) ∧
    (∀ {s₀ s t : Waits} {n w : Nat} {seen : Seen} {as : List WaitAction},
      monitor.step s₀ (.update n .stop) = some s → run monitor.step s as = some t →
        .announce n ∈ as → (t.phase w).pending? = some seen →
          monitor.step t (.resume w) = some (t.setPhase w (.returned seen false))) ∧
    (∀ {s t : System} {w : Nat} {as : List Action},
      s.waits.shared.stopped = true → NotTrue s.waits w → s.answer w = none →
        run System.step s as = some t →
          NotTrue t.waits w ∧ ∀ answer, t.answer w = some answer →
            answer = .error (.rpcError (-32000) (ascii "server is stopping"))) := by
  refine ⟨fun henter hrun => ⟨?_, ?_, ?_⟩, fun hstop hrun hannounce hpending => ?_, ?_⟩
  · rintro before after n seen rfl hfew hpending
    have ⟨hpred, hawake⟩ := awake_after_notify henter hrun hfew hpending
    exact ⟨fun u hu => ⟨_, returned_of_resume hu hpending hpred⟩,
      fun hannounce => ⟨_, resume_returns hpending (hawake hannounce) hpred⟩⟩
  · exact fun hnone hstopped htimeout =>
      ⟨_, pending_without_notify henter hrun hnone hstopped htimeout⟩
  · exact fun seen hreturned => notified_of_returned_true henter hrun hreturned
  · exact false_after_stop hstop hrun hannounce hpending
  · intro s t w as hstopped hnotTrue hnone hrun
    have h : Refused w t :=
      run_preserves (I := Refused w) hrun ⟨hstopped, hnotTrue, .inl hnone⟩ Refused.step
    refine ⟨h.notTrue, ?_⟩
    intro answer hanswer
    rcases h.answer with hnone | herror
    · rw [hanswer] at hnone
      cases hnone
    · rw [hanswer] at herror
      exact Option.some.inj herror

/-- Two requests wait, for the queue and for the timer, when the queue changes. -/
def sampleRun : List WaitAction :=
  [.enter 1 .timer, .update 7 (.notify .queue), .announce 7]

theorem wakes_the_right_waiters_sample :
    ∃ s t u, monitor.step { shared := {} } (.enter 0 .queue) = some s ∧
      run monitor.step s sampleRun = some t ∧ monitor.step t (.resume 0) = some u ∧
        ∃ r, u.phase 0 = .returned ⟨.queue, 0⟩ r := by
  obtain ⟨hown, -, -⟩ := wakes_the_right_waiters.1
    (show monitor.step { shared := {} } (.enter 0 .queue) = some _ from rfl)
    (show run monitor.step _ sampleRun = some _ from rfl)
  obtain ⟨hreturns, henabled⟩ := hown [.enter 1 .timer] [.announce 7] 7 ⟨.queue, 0⟩ rfl
    (by decide) rfl
  obtain ⟨u, hu⟩ := henabled List.mem_cons_self
  exact ⟨_, _, u, rfl, rfl, hu, hreturns u hu⟩

end Subscriptions

end RemoteControl
