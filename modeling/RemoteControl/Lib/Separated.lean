import Mathlib.Data.List.Basic
import Mathlib.Data.List.Count

/-!
# Fields joined by a separator

A string `x ++ c :: y` can be taken apart again at the separator `c` when one of
the two sides is known not to hold it. Joins whose numbers of separators differ
are different strings.
-/

namespace Separated

variable {α : Type*} {c : α} {x x' y y' : List α}

/-- Splitting at the first separator. -/
theorem append_cons_inj_left (hx : c ∉ x) (hx' : c ∉ x') :
    x ++ c :: y = x' ++ c :: y' ↔ x = x' ∧ y = y' := by
  constructor
  · intro h
    induction x generalizing x' with
    | nil =>
      cases x' with
      | nil => exact ⟨rfl, List.tail_eq_of_cons_eq h⟩
      | cons b x' =>
        obtain ⟨rfl, -⟩ := List.cons_eq_cons.mp h
        exact absurd List.mem_cons_self hx'
    | cons a x ih =>
      cases x' with
      | nil =>
        obtain ⟨rfl, -⟩ := List.cons_eq_cons.mp h
        exact absurd List.mem_cons_self hx
      | cons b x' =>
        obtain ⟨rfl, htail⟩ := List.cons_eq_cons.mp h
        have ⟨hxx, hyy⟩ := ih (List.not_mem_of_not_mem_cons hx)
          (List.not_mem_of_not_mem_cons hx') htail
        exact ⟨congrArg _ hxx, hyy⟩
  · intro ⟨hx, hy⟩
    rw [hx, hy]

/-- Splitting at the last separator. -/
theorem append_cons_inj_right (hy : c ∉ y) (hy' : c ∉ y') :
    x ++ c :: y = x' ++ c :: y' ↔ x = x' ∧ y = y' := by
  have hrev : ∀ u v : List α, (u ++ c :: v).reverse = v.reverse ++ c :: u.reverse := by
    intro u v
    simp
  rw [← List.reverse_inj, hrev, hrev,
    append_cons_inj_left (by simpa using hy) (by simpa using hy'), List.reverse_inj,
    List.reverse_inj, and_comm]

theorem count_append_cons [DecidableEq α] (c : α) (x y : List α) :
    (x ++ c :: y).count c = x.count c + y.count c + 1 := by
  rw [List.count_append, List.count_cons_self, Nat.add_assoc]

end Separated
