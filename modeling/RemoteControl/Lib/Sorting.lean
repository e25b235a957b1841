import Mathlib.Data.List.Lex
import Mathlib.Order.Defs.Unbundled
import Mathlib.Order.Lattice

/-!
# Sorting by a strict weak order

What an unstable sort promises, for comparisons that are strict weak orders only: the same
elements, none after one that it is less than. Lists are compared by the keys of their
elements (`lexicographicalCompare_iff`).
-/

namespace Sorting

variable {α β : Type*}

/-- A sort; elements that are neither less than the other may change their order. -/
structure Sorter (α : Type*) where
  sort : (α → α → Bool) → List α → List α
  perm : ∀ {lt : α → α → Bool}, IsStrictWeakOrder α (fun a b => lt a b = true) →
    ∀ xs, (sort lt xs).Perm xs
  sorted : ∀ {lt : α → α → Bool}, IsStrictWeakOrder α (fun a b => lt a b = true) →
    ∀ xs, (sort lt xs).Pairwise fun a b => lt b a = false

/-! ## Strict weak orders -/

/-- Comparing keys of a linear order. -/
theorem isStrictWeakOrder_of_key [LinearOrder β] (key : α → β) :
    IsStrictWeakOrder α (fun a b => key a < key b) where
  irrefl a := lt_irrefl (key a)
  trans _ _ _ := lt_trans
  incomp_trans a b c hab hbc := by
    have hab : key a = key b := le_antisymm (not_lt.mp hab.2) (not_lt.mp hab.1)
    rwa [hab]

/-- Not being less is transitive too. -/
theorem not_lt_trans {lt : α → α → Prop} (h : IsStrictWeakOrder α lt) {a b c : α}
    (hba : ¬lt b a) (hcb : ¬lt c b) : ¬lt c a := by
  intro hca
  by_cases hab : lt a b
  · exact hcb (h.trans c a b hca hab)
  · by_cases hbc : lt b c
    · exact hba (h.trans b c a hbc hca)
    · exact (h.incomp_trans a b c ⟨hab, hba⟩ ⟨hbc, hcb⟩).2 hca

/-- A stable sort is a sort. -/
def mergeSorter (α : Type*) : Sorter α where
  sort lt xs := xs.mergeSort fun a b => !lt b a
  perm _ xs := List.mergeSort_perm xs _
  sorted {lt} h xs := by
    have htrans : ∀ a b c, (!lt b a) = true → (!lt c b) = true → (!lt c a) = true := by
      intro a b c hba hcb
      have hca := not_lt_trans h (a := a) (b := b) (c := c) (by simpa using hba) (by simpa using hcb)
      simpa using hca
    have htotal : ∀ a b, (!lt b a || !lt a b) = true := by
      intro a b
      by_cases hab : lt a b = true
      · have hba : ¬lt b a = true := fun hba => h.irrefl a (h.trans a b a hab hba)
        simp [hba]
      · simp [hab]
    refine (List.pairwise_mergeSort htrans htotal xs).imp fun {a b} hle => ?_
    simpa using hle

/-! ## Lists -/

/-- `std::lexicographical_compare`. -/
def lexicographicalCompare (lt : α → α → Bool) : List α → List α → Bool
  | _, [] => false
  | [], _ :: _ => true
  | a :: as, b :: bs =>
    if lt a b then true else if lt b a then false else lexicographicalCompare lt as bs

theorem lexicographicalCompare_iff [LinearOrder β] {key : α → β} {lt : α → α → Bool}
    (hlt : ∀ a b, lt a b = true ↔ key a < key b) (as bs : List α) :
    lexicographicalCompare lt as bs = true ↔ as.map key < bs.map key := by
  induction as generalizing bs with
  | nil =>
    cases bs with
    | nil => simp [lexicographicalCompare]
    | cons b bs => simp [lexicographicalCompare]
  | cons a as ih =>
    cases bs with
    | nil => simp [lexicographicalCompare]
    | cons b bs =>
      rw [lexicographicalCompare, List.map_cons, List.map_cons, List.cons_lt_cons_iff]
      rcases lt_trichotomy (key a) (key b) with hab | hab | hab
      · simp [(hlt a b).mpr hab, hab]
      · have hnot : ∀ c d, key c = key d → lt c d = false := by
          intro c d hcd
          rw [← Bool.not_eq_true, hlt, hcd]
          exact lt_irrefl _
        simp [hnot a b hab, hnot b a hab.symm, ih, hab]
      · have hnot : lt a b = false := by
          rw [← Bool.not_eq_true, hlt]
          exact hab.asymm
        simp [hnot, (hlt b a).mpr hab, hab.asymm, hab.ne']

theorem isStrictWeakOrder_lexicographicalCompare [LinearOrder β] {key : α → β}
    {lt : α → α → Bool} (hlt : ∀ a b, lt a b = true ↔ key a < key b) :
    IsStrictWeakOrder (List α) (fun as bs => lexicographicalCompare lt as bs = true) := by
  simp only [lexicographicalCompare_iff hlt]
  exact isStrictWeakOrder_of_key (List.map key)

end Sorting
