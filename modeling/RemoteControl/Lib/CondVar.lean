import RemoteControl.Lib.Transition
import Mathlib.Data.List.Basic

/-!
# Condition variables

Threads that share a state under one mutex and one condition variable. A wait is
cut at its blocking points, so that each section under the lock is one step, and
an update and its `notify_all`, which comes after the unlock, are two.

An awake wait does not sleep again while its predicate keeps holding (`awake_run`),
and what it returns is the result in the state it got the lock back in
(`returned_run`).
-/

namespace CondVar

open Transition

variable {σ ι κ υ ρ : Type*}

/-- The sections under the lock. A wait for `i` remembers something of the state it
enters in, sleeps until the predicate holds or its time is up, and then returns its
result. -/
structure Monitor (σ ι κ υ ρ : Type*) where
  remember : ι → σ → κ
  predicate : σ → κ → Bool
  result : σ → κ → ρ
  update : υ → σ → σ

inductive Phase (κ ρ : Type*)
  | idle
  | asleep (k : κ)
  /-- Unblocked, and about to take the lock. -/
  | woken (k : κ)
  /-- Unblocked because the time is up: it looks at the predicate once more. -/
  | timedOut (k : κ)
  | returned (k : κ) (result : ρ)
deriving DecidableEq

namespace Phase

/-- What a wait that has not returned yet remembers. -/
def pending? : Phase κ ρ → Option κ
  | .asleep k | .woken k | .timedOut k => some k
  | .idle | .returned _ _ => none

def Asleep : Phase κ ρ → Prop
  | .asleep _ => True
  | _ => False

instance decidableAsleep : DecidablePred (Phase.Asleep : Phase κ ρ → Prop) := fun p =>
  match p with
  | .asleep _ => .isTrue trivial
  | .idle | .woken _ | .timedOut _ | .returned _ _ => .isFalse id

/-- `notify_all`. -/
def wake : Phase κ ρ → Phase κ ρ
  | .asleep k => .woken k
  | p => p

theorem not_asleep_wake (p : Phase κ ρ) : ¬ p.wake.Asleep := by
  cases p <;> exact id

end Phase

structure State (σ κ ρ : Type*) where
  shared : σ
  /-- Whether a thread is between its unlock and its `notify_all`. -/
  owing : Nat → Bool := fun _ => false
  phase : Nat → Phase κ ρ := fun _ => .idle

inductive Action (ι υ : Type*)
  | enter (w : Nat) (i : ι)
  | spurious (w : Nat)
  | timeout (w : Nat)
  /-- The wait gets the lock back. -/
  | resume (w : Nat)
  | update (thread : Nat) (u : υ)
  | announce (thread : Nat)

namespace State

def setPhase (s : State σ κ ρ) (w : Nat) (p : Phase κ ρ) : State σ κ ρ :=
  { s with phase := fun other => if other = w then p else s.phase other }

@[simp] theorem setPhase_shared (s : State σ κ ρ) (w : Nat) (p : Phase κ ρ) :
    (s.setPhase w p).shared = s.shared := rfl

@[simp] theorem setPhase_owing (s : State σ κ ρ) (w : Nat) (p : Phase κ ρ) :
    (s.setPhase w p).owing = s.owing := rfl

@[simp] theorem setPhase_phase (s : State σ κ ρ) (w other : Nat) (p : Phase κ ρ) :
    (s.setPhase w p).phase other = if other = w then p else s.phase other := rfl

end State

namespace Monitor

variable (m : Monitor σ ι κ υ ρ)

/-- A wait with the lock: it returns when the predicate holds and sleeps otherwise. -/
def look (shared : σ) (k : κ) : Phase κ ρ :=
  if m.predicate shared k then .returned k (m.result shared k) else .asleep k

def step (s : State σ κ ρ) : Action ι υ → Option (State σ κ ρ)
  | .enter w i =>
    match s.phase w with
    | .idle => some (s.setPhase w (m.look s.shared (m.remember i s.shared)))
    | _ => none
  | .spurious w =>
    match s.phase w with
    | .asleep k => some (s.setPhase w (.woken k))
    | _ => none
  | .timeout w =>
    match s.phase w with
    | .asleep k | .woken k => some (s.setPhase w (.timedOut k))
    | _ => none
  | .resume w =>
    match s.phase w with
    | .woken k => some (s.setPhase w (m.look s.shared k))
    | .timedOut k => some (s.setPhase w (.returned k (m.result s.shared k)))
    | _ => none
  | .update thread u =>
    if s.owing thread then none
    else some { s with
      shared := m.update u s.shared
      owing := fun other => if other = thread then true else s.owing other }
  | .announce thread =>
    if s.owing thread then some { s with
      owing := fun other => if other = thread then false else s.owing other
      phase := fun w => (s.phase w).wake }
    else none

/-- What one step can do to one wait. -/
inductive Move (shared : σ) : Phase κ ρ → Phase κ ρ → Prop
  | stay (p : Phase κ ρ) : Move shared p p
  | enter (i : ι) : Move shared .idle (m.look shared (m.remember i shared))
  | wake (k : κ) : Move shared (.asleep k) (.woken k)
  | expire (k : κ) : Move shared (.asleep k) (.timedOut k)
  | expireAwake (k : κ) : Move shared (.woken k) (.timedOut k)
  | look (k : κ) : Move shared (.woken k) (m.look shared k)
  | giveUp (k : κ) : Move shared (.timedOut k) (.returned k (m.result shared k))

end Monitor

section Steps

variable {m : Monitor σ ι κ υ ρ} {s t : State σ κ ρ} {a : Action ι υ}

theorem move_setPhase {w : Nat} {p : Phase κ ρ} (h : m.Move s.shared (s.phase w) p) (other : Nat) :
    m.Move s.shared (s.phase other) ((s.setPhase w p).phase other) := by
  rw [State.setPhase_phase]
  split
  · next heq => exact heq ▸ h
  · exact .stay _

theorem step_move (hst : m.step s a = some t) (w : Nat) :
    m.Move s.shared (s.phase w) (t.phase w) := by
  cases a with
  | enter w' i =>
    simp only [Monitor.step] at hst
    split at hst <;> cases hst
    next hw => exact move_setPhase (hw ▸ .enter i) w
  | spurious w' =>
    simp only [Monitor.step] at hst
    split at hst <;> cases hst
    next k hw => exact move_setPhase (hw ▸ .wake k) w
  | timeout w' =>
    simp only [Monitor.step] at hst
    split at hst <;> cases hst
    · next k hw => exact move_setPhase (hw ▸ .expire k) w
    · next k hw => exact move_setPhase (hw ▸ .expireAwake k) w
  | resume w' =>
    simp only [Monitor.step] at hst
    split at hst <;> cases hst
    · next k hw => exact move_setPhase (hw ▸ .look k) w
    · next k hw => exact move_setPhase (hw ▸ .giveUp k) w
  | update thread u =>
    simp only [Monitor.step] at hst
    split at hst <;> cases hst
    exact .stay _
  | announce thread =>
    simp only [Monitor.step] at hst
    split at hst <;> cases hst
    dsimp only
    cases s.phase w with
    | asleep k => exact .wake k
    | idle | woken | timedOut | returned => exact .stay _

theorem step_shared (hst : m.step s a = some t) :
    t.shared = match a with
      | .update _ u => m.update u s.shared
      | _ => s.shared := by
  cases a with
  | enter | spurious | timeout | resume | update | announce =>
    simp only [Monitor.step] at hst
    split at hst <;> cases hst <;> rfl

/-- A pending wait stays pending, and remembers the same, until it returns the result
in the state it looks at. -/
theorem pending_step {w : Nat} {k : κ} (hst : m.step s a = some t)
    (hk : (s.phase w).pending? = some k) :
    (t.phase w).pending? = some k ∨ t.phase w = .returned k (m.result s.shared k) := by
  have hmove := step_move hst w
  revert hk hmove
  generalize s.phase w = p
  generalize t.phase w = q
  intro hk hmove
  cases hmove with
  | stay => exact .inl hk
  | enter => cases hk
  | wake | expire | expireAwake => exact .inl hk
  | look k' =>
    cases hk
    unfold Monitor.look
    split
    · exact .inr rfl
    · exact .inl rfl
  | giveUp k' =>
    cases hk
    exact .inr rfl

theorem pending_of_blocked {w : Nat} {k : κ} (hst : m.step s a = some t)
    (hk : (s.phase w).pending? = some k) (hnot : s.phase w ≠ .timedOut k)
    (hpred : m.predicate s.shared k = false) : (t.phase w).pending? = some k := by
  have hmove := step_move hst w
  revert hk hnot hmove
  generalize s.phase w = p
  generalize t.phase w = q
  intro hk hnot hmove
  cases hmove with
  | stay => exact hk
  | enter => cases hk
  | wake | expire | expireAwake => exact hk
  | look k' =>
    cases hk
    rw [Monitor.look, hpred]
    rfl
  | giveUp k' =>
    cases hk
    exact absurd rfl hnot

theorem returned_step {w : Nat} {k : κ} {r : ρ} (hst : m.step s a = some t)
    (hr : s.phase w = .returned k r) : t.phase w = .returned k r := by
  have hmove := step_move hst w
  rw [hr] at hmove
  generalize t.phase w = q at hmove ⊢
  cases hmove
  rfl

/-- A step in which a wait returns evaluates its result in the state of this step. -/
theorem result_of_step {w : Nat} {k : κ} {r : ρ} (hst : m.step s a = some t)
    (hr : t.phase w = .returned k r) :
    s.phase w = .returned k r ∨ r = m.result s.shared k := by
  have hmove := step_move hst w
  revert hr hmove
  generalize s.phase w = p
  generalize t.phase w = q
  intro hr hmove
  cases hmove with
  | stay => exact .inl hr
  | wake | expire | expireAwake => cases hr
  | enter i | look k' =>
    unfold Monitor.look at hr
    split at hr <;> cases hr
    exact .inr rfl
  | giveUp k' =>
    cases hr
    exact .inr rfl

theorem awake_step {w : Nat} {k : κ} (hst : m.step s a = some t)
    (hk : (s.phase w).pending? = some k) (hawake : ¬ (s.phase w).Asleep)
    (hpred : m.predicate s.shared k = true) : ¬ (t.phase w).Asleep := by
  have hmove := step_move hst w
  revert hk hawake hmove
  generalize s.phase w = p
  generalize t.phase w = q
  intro hk hawake hmove
  cases hmove with
  | stay => exact hawake
  | enter => cases hk
  | wake | expire | expireAwake | giveUp => exact id
  | look k' =>
    cases hk
    rw [Monitor.look, if_pos hpred]
    exact id

/-- Where the predicate holds for every wait, none falls asleep. -/
theorem awake_of_predicate {w : Nat} (hst : m.step s a = some t)
    (hawake : ¬ (s.phase w).Asleep) (hpred : ∀ k, m.predicate s.shared k = true) :
    ¬ (t.phase w).Asleep := by
  have hmove := step_move hst w
  revert hawake hmove
  generalize s.phase w = p
  generalize t.phase w = q
  intro hawake hmove
  cases hmove with
  | stay => exact hawake
  | wake | expire | expireAwake | giveUp => exact id
  | enter | look =>
    rw [Monitor.look, if_pos (hpred _)]
    exact id

/-- An awake wait whose predicate holds returns as soon as it gets the lock. -/
theorem resume_returns {w : Nat} {k : κ} (hk : (s.phase w).pending? = some k)
    (hawake : ¬ (s.phase w).Asleep) (hpred : m.predicate s.shared k = true) :
    m.step s (.resume w) = some (s.setPhase w (.returned k (m.result s.shared k))) := by
  simp only [Monitor.step]
  revert hk hawake
  cases s.phase w with
  | idle | returned => intro hk; cases hk
  | asleep k' => intro _ hawake; exact absurd True.intro hawake
  | woken k' =>
    intro hk _
    cases hk
    simp only [Monitor.look, hpred, if_true]
  | timedOut k' =>
    intro hk _
    cases hk
    rfl

/-- A wait whose predicate holds does not go back to sleep. -/
theorem returned_of_resume {w : Nat} {k : κ} (hst : m.step s (.resume w) = some t)
    (hk : (s.phase w).pending? = some k) (hpred : m.predicate s.shared k = true) :
    t.phase w = .returned k (m.result s.shared k) := by
  have hawake : ¬ (s.phase w).Asleep := by
    intro hasleep
    simp only [Monitor.step] at hst
    revert hasleep hst
    cases s.phase w with
    | asleep => intro hst; cases hst
    | idle | woken | timedOut | returned => intro _ hasleep; exact hasleep.elim
  rw [resume_returns hk hawake hpred] at hst
  cases hst
  rw [State.setPhase_phase, if_pos rfl]

theorem timedOut_step {w : Nat} {k : κ} (hst : m.step s a = some t)
    (ht : t.phase w = .timedOut k) : s.phase w = .timedOut k ∨ a = .timeout w := by
  cases a with
  | timeout w' =>
    by_cases heq : w = w'
    · exact .inr (heq ▸ rfl)
    · simp only [Monitor.step] at hst
      split at hst <;> cases hst <;> simp only [State.setPhase_phase, if_neg heq] at ht <;>
        exact .inl ht
  | enter w' i =>
    simp only [Monitor.step, Monitor.look] at hst
    split at hst <;> cases hst
    simp only [State.setPhase_phase] at ht
    split at ht
    · split at ht <;> cases ht
    · exact .inl ht
  | spurious w' =>
    simp only [Monitor.step] at hst
    split at hst <;> cases hst
    simp only [State.setPhase_phase] at ht
    split at ht
    · cases ht
    · exact .inl ht
  | resume w' =>
    simp only [Monitor.step, Monitor.look] at hst
    split at hst <;> cases hst <;> simp only [State.setPhase_phase] at ht <;> split at ht
    · split at ht <;> cases ht
    · exact .inl ht
    · cases ht
    · exact .inl ht
  | update thread u =>
    simp only [Monitor.step] at hst
    split at hst <;> cases hst
    exact .inl ht
  | announce thread =>
    simp only [Monitor.step] at hst
    split at hst <;> cases hst
    dsimp only at ht
    revert ht
    cases s.phase w with
    | timedOut k' => exact .inl
    | idle | asleep | woken | returned => intro ht; cases ht

theorem announce_awake {thread : Nat} (hst : m.step s (.announce thread) = some t) (w : Nat) :
    ¬ (t.phase w).Asleep := by
  simp only [Monitor.step] at hst
  split at hst <;> cases hst
  exact Phase.not_asleep_wake _

end Steps

section Runs

variable {m : Monitor σ ι κ υ ρ} {s t : State σ κ ρ} {as : List (Action ι υ)}

/-- The updates of a run, in their order. -/
def updates (as : List (Action ι υ)) : List υ :=
  as.filterMap fun
    | .update _ u => some u
    | _ => none

theorem run_shared (h : run m.step s as = some t) :
    t.shared = (updates as).foldl (fun x u => m.update u x) s.shared := by
  induction as generalizing s with
  | nil => cases h; rfl
  | cons a as ih =>
    obtain ⟨mid, hst, h⟩ := run_cons_eq_some.mp h
    rw [ih h, step_shared hst]
    cases a <;> rfl

theorem pending_run {w : Nat} {k : κ} (h : run m.step s as = some t)
    (hk : (s.phase w).pending? = some k) :
    (t.phase w).pending? = some k ∨ ∃ r, t.phase w = .returned k r := by
  refine run_preserves
    (I := fun s => (s.phase w).pending? = some k ∨ ∃ r, s.phase w = .returned k r) h (.inl hk) ?_
  rintro s a t (hk | ⟨r, hr⟩) hst
  · exact (pending_step hst hk).imp_right fun hr => ⟨_, hr⟩
  · exact .inr ⟨r, returned_step hst hr⟩

theorem returned_stays {w : Nat} {k : κ} {r : ρ} (h : run m.step s as = some t)
    (hr : s.phase w = .returned k r) : t.phase w = .returned k r :=
  run_preserves (I := fun s => s.phase w = .returned k r) h hr fun hr hst => returned_step hst hr

/-- A wait that was pending and has returned did so at one step of the run. -/
theorem returned_run {w : Nat} {k k' : κ} {r : ρ} (h : run m.step s as = some t)
    (hk : (s.phase w).pending? = some k) (hr : t.phase w = .returned k' r) :
    ∃ before after mid, as = before ++ after ∧ run m.step s before = some mid ∧
      (mid.phase w).pending? = some k ∧ k' = k ∧ r = m.result mid.shared k := by
  induction as generalizing s with
  | nil =>
    cases h
    rw [hr] at hk
    cases hk
  | cons a as ih =>
    obtain ⟨next, hst, h⟩ := run_cons_eq_some.mp h
    rcases pending_step hst hk with hpending | hreturned
    · obtain ⟨before, after, mid, rfl, hbefore, hrest⟩ := ih h hpending
      exact ⟨a :: before, after, mid, rfl, run_cons_eq_some.mpr ⟨next, hst, hbefore⟩, hrest⟩
    · rw [returned_stays h hreturned] at hr
      cases hr
      exact ⟨[], a :: as, s, rfl, rfl, hk, rfl, rfl⟩

theorem awake_run {w : Nat} {k : κ} (h : run m.step s as = some t)
    (hk : (s.phase w).pending? = some k) (hawake : ¬ (s.phase w).Asleep)
    (hpred : ∀ before mid, before <+: as → run m.step s before = some mid →
      m.predicate mid.shared k = true) : ¬ (t.phase w).Asleep := by
  induction as generalizing s with
  | nil => cases h; exact hawake
  | cons a as ih =>
    obtain ⟨next, hst, h⟩ := run_cons_eq_some.mp h
    rcases pending_step hst hk with hpending | hreturned
    · refine ih h hpending ?_ fun before mid hprefix hbefore => ?_
      · exact awake_step hst hk hawake (hpred [] s List.nil_prefix rfl)
      · exact hpred (a :: before) mid (List.cons_prefix_cons.mpr ⟨rfl, hprefix⟩)
          (run_cons_eq_some.mpr ⟨next, hst, hbefore⟩)
    · rw [returned_stays h hreturned]
      exact id

/-- A wait whose predicate never holds, and whose time is not up, does not return. -/
theorem blocked_run {w : Nat} {k : κ} (h : run m.step s as = some t)
    (hk : (s.phase w).pending? = some k) (hnot : s.phase w ≠ .timedOut k)
    (htimeout : .timeout w ∉ as)
    (hpred : ∀ before mid, before <+: as → run m.step s before = some mid →
      m.predicate mid.shared k = false) : (t.phase w).pending? = some k := by
  induction as generalizing s with
  | nil => cases h; exact hk
  | cons a as ih =>
    obtain ⟨next, hst, h⟩ := run_cons_eq_some.mp h
    rw [List.mem_cons, not_or] at htimeout
    have hfalse := hpred [] s List.nil_prefix rfl
    have hnext : (next.phase w).pending? = some k :=
      pending_of_blocked hst hk hnot hfalse
    refine ih h hnext (fun hout => ?_) htimeout.2 fun before mid hprefix hbefore => ?_
    · rcases timedOut_step hst hout with hout | rfl
      · exact hnot hout
      · exact htimeout.1 rfl
    · exact hpred (a :: before) mid (List.cons_prefix_cons.mpr ⟨rfl, hprefix⟩)
        (run_cons_eq_some.mpr ⟨next, hst, hbefore⟩)

end Runs

end CondVar
