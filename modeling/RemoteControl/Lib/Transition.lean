import Mathlib.Logic.Function.Iterate

/-!
# Transition systems with a partial step function

A system is a function `step : σ → α → Option σ`: `step s a = some s'` when the
action `a` is enabled in `s` and leads to `s'`. All nondeterminism (the
scheduler, the environment) sits in the choice of the next action, so one run is
a list of actions and a schedule can be evaluated.

`Reachable.invariant` is the induction every safety result goes through.
`ReachableBy` restricts the runs to those whose steps all meet a condition.
-/

namespace Transition

variable {σ α : Type*}

/-- Take the actions of `as` in order; `none` when one of them is not enabled. -/
def run (step : σ → α → Option σ) : σ → List α → Option σ
  | s, [] => some s
  | s, a :: as => (step s a).bind fun t => run step t as

variable {step : σ → α → Option σ} {init s t u : σ} {a : α} {as bs : List α}

@[simp] theorem run_nil : run step s [] = some s := rfl

theorem run_cons : run step s (a :: as) = (step s a).bind fun t => run step t as := rfl

theorem run_cons_eq_some :
    run step s (a :: as) = some u ↔ ∃ t, step s a = some t ∧ run step t as = some u := by
  rw [run_cons, Option.bind_eq_some_iff]

theorem run_append : run step s (as ++ bs) = (run step s as).bind fun t => run step t bs := by
  induction as generalizing s with
  | nil => rfl
  | cons a as ih =>
    simp only [List.cons_append, run_cons, Option.bind_assoc]
    congr 1
    funext t
    exact ih

theorem run_append_eq_some :
    run step s (as ++ bs) = some u ↔ ∃ t, run step s as = some t ∧ run step t bs = some u := by
  rw [run_append, Option.bind_eq_some_iff]

theorem run_concat_eq_some :
    run step s (as ++ [a]) = some u ↔ ∃ t, run step s as = some t ∧ step t a = some u := by
  simp [run_append_eq_some, run_cons_eq_some]

/-- What every step with an admitted action preserves, a run of such actions preserves. -/
theorem run_preserves_of {I : σ → Prop} {ok : α → Prop} (h : run step s as = some t) (hs : I s)
    (hok : ∀ a ∈ as, ok a) (hstep : ∀ {s a t}, I s → ok a → step s a = some t → I t) : I t := by
  induction as generalizing s with
  | nil => cases h; exact hs
  | cons a as ih =>
    obtain ⟨m, hm, h⟩ := run_cons_eq_some.mp h
    exact ih h (hstep hs (hok a List.mem_cons_self) hm)
      fun b hb => hok b (List.mem_cons_of_mem a hb)

theorem run_preserves {I : σ → Prop} (h : run step s as = some t) (hs : I s)
    (hstep : ∀ {s a t}, I s → step s a = some t → I t) : I t :=
  run_preserves_of h hs (fun _ _ => True.intro) fun hs _ h => hstep hs h

/-- The states some run from `init` ends in. -/
def Reachable (step : σ → α → Option σ) (init s : σ) : Prop :=
  ∃ as, run step init as = some s

theorem Reachable.refl : Reachable step init init := ⟨[], rfl⟩

theorem Reachable.tail (h : Reachable step init s) (hst : step s a = some t) :
    Reachable step init t := by
  obtain ⟨as, has⟩ := h
  exact ⟨as ++ [a], run_concat_eq_some.mpr ⟨s, has, hst⟩⟩

theorem Reachable.invariant {I : σ → Prop} (h : Reachable step init s) (h0 : I init)
    (hstep : ∀ {s a t}, I s → step s a = some t → I t) : I s := by
  obtain ⟨as, has⟩ := h
  exact run_preserves has h0 hstep

/-- The states reached by runs whose every step `a`, taken in `s`, meets `ok s a`. -/
inductive ReachableBy (step : σ → α → Option σ) (ok : σ → α → Prop) (init : σ) : σ → Prop
  | refl : ReachableBy step ok init init
  | tail {s t : σ} {a : α} (h : ReachableBy step ok init s) (hok : ok s a)
      (hst : step s a = some t) : ReachableBy step ok init t

/-- An invariant of the steps that meet the condition holds along the runs that do. -/
theorem ReachableBy.invariant {ok : σ → α → Prop} {I : σ → Prop}
    (h : ReachableBy step ok init s) (h0 : I init)
    (hstep : ∀ {s a t}, I s → ok s a → step s a = some t → I t) : I s := by
  induction h with
  | refl => exact h0
  | tail _ hok hst ih => exact hstep ih hok hst

theorem ReachableBy.reachable {ok : σ → α → Prop} (h : ReachableBy step ok init s) :
    Reachable step init s :=
  h.invariant .refl fun hs _ hst => hs.tail hst

theorem ReachableBy.mono {ok ok' : σ → α → Prop} (h : ReachableBy step ok init s)
    (himp : ∀ s a, ok s a → ok' s a) : ReachableBy step ok' init s := by
  induction h with
  | refl => exact .refl
  | tail _ hok hst ih => exact ih.tail (himp _ _ hok) hst

/-- The system without the steps that miss the condition, to run a schedule in. -/
def guarded (step : σ → α → Option σ) (ok : σ → α → Prop) [∀ s a, Decidable (ok s a)] (s : σ)
    (a : α) : Option σ :=
  if ok s a then step s a else none

theorem ReachableBy.of_guarded {ok : σ → α → Prop} [∀ s a, Decidable (ok s a)]
    (h : Reachable (guarded step ok) init s) : ReachableBy step ok init s := by
  refine h.invariant .refl fun hs hst => ?_
  unfold guarded at hst
  split at hst
  · next hok => exact hs.tail hok hst
  · cases hst

theorem ReachableBy.of_run {admits : α → Prop} (h : run step init as = some s)
    (hadmits : ∀ a ∈ as, admits a) : ReachableBy step (fun _ a => admits a) init s :=
  run_preserves_of h .refl hadmits fun hs hok hst => hs.tail hok hst

/-- The same, with a condition on the actions alone beside it. -/
theorem ReachableBy.of_guarded_run {ok : σ → α → Prop} [∀ s a, Decidable (ok s a)] {admits : α → Prop}
    (h : run (guarded step ok) init as = some s) (hadmits : ∀ a ∈ as, admits a) :
    ReachableBy step (fun s a => ok s a ∧ admits a) init s := by
  refine run_preserves_of h .refl hadmits fun hs hadmits hst => ?_
  unfold guarded at hst
  split at hst
  · next hok => exact hs.tail ⟨hok, hadmits⟩ hst
  · cases hst

end Transition
