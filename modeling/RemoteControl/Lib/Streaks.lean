import Mathlib.Data.Nat.Count
import Mathlib.Data.Set.Card

/-!
# Maximal streaks

A streak of a predicate is a stretch of consecutive numbers that meet it. A counter that
goes up where a streak starts goes up once in every maximal streak (`CountsStarts.once`)
and nowhere else (`CountsStarts.outside`), so it counts them (`CountsStarts.total`).
-/

namespace Streaks

variable {P : Nat → Prop} {n i j : Nat}

def Starts (P : Nat → Prop) (k : Nat) : Prop := P k ∧ ∀ m, m + 1 = k → ¬P m

/-- The numbers from `i` to `j - 1` are a streak, and none around it below `n` is longer. -/
structure Maximal (P : Nat → Prop) (n i j : Nat) : Prop where
  lt : i < j
  le : j ≤ n
  holds : ∀ k, i ≤ k → k < j → P k
  before : ∀ m, m + 1 = i → ¬P m
  after : j < n → ¬P j

theorem Maximal.starts (h : Maximal P n i j) : Starts P i := ⟨h.holds i le_rfl h.lt, h.before⟩

/-- A streak has one end. -/
theorem Maximal.end_unique {j' : Nat} (h : Maximal P n i j) (h' : Maximal P n i j') : j = j' := by
  have hle : ∀ {j j'}, Maximal P n i j → Maximal P n i j' → j ≤ j' := by
    intro j j' h h'
    by_contra hlt
    have hlt : j' < j := not_le.mp hlt
    exact h'.after (hlt.trans_le h.le) (h.holds j' h'.lt.le hlt)
  exact le_antisymm (hle h h') (hle h' h)

theorem Starts.maximal (h : Starts P i) (hi : i < n) : ∃ j, Maximal P n i j := by
  classical
  have hex : ∃ j, i < j ∧ (j = n ∨ ¬P j) := ⟨n, hi, Or.inl rfl⟩
  obtain ⟨hlt, hend⟩ := Nat.find_spec hex
  refine ⟨Nat.find hex, hlt, Nat.find_min' hex ⟨hi, Or.inl rfl⟩, fun k hik hk => ?_, h.2, ?_⟩
  · rcases hik.eq_or_lt with rfl | hik
    · exact h.1
    · by_contra hnot
      exact Nat.find_min hex hk ⟨hik, Or.inr hnot⟩
  · intro hn
    exact hend.resolve_left hn.ne

/-- The counter goes up by one at each start. -/
structure CountsStarts (P : Nat → Prop) (n : Nat) (f : Nat → Nat) : Prop where
  start : ∀ k < n, Starts P k → f (k + 1) = f k + 1
  rest : ∀ k < n, ¬Starts P k → f (k + 1) = f k

namespace CountsStarts

variable {f : Nat → Nat}

theorem outside (h : CountsStarts P n f) {k : Nat} (hk : k < n) (hnot : ¬P k) :
    f (k + 1) = f k :=
  h.rest k hk fun hstarts => hnot hstarts.1

theorem once (h : CountsStarts P n f) (hmax : Maximal P n i j) : f j = f i + 1 := by
  have hrest : ∀ k, i + 1 ≤ k → k ≤ j → f k = f (i + 1) := by
    intro k hik
    induction k, hik using Nat.le_induction with
    | base => intro _; rfl
    | succ k hik ih =>
      intro hk
      have hnot : ¬Starts P k := fun hstarts =>
        hstarts.2 (k - 1) (by omega) (hmax.holds (k - 1) (by omega) (by omega))
      rw [h.rest k (by have := hmax.le; omega) hnot, ih (by omega)]
  rw [hrest j hmax.lt le_rfl, h.start i (hmax.lt.trans_le hmax.le) hmax.starts]

theorem total (h : CountsStarts P n f) :
    f n = f 0 + {streak : Nat × Nat | Maximal P n streak.1 streak.2}.ncard := by
  classical
  have hcount : ∀ k ≤ n, f k = f 0 + Nat.count (Starts P) k := by
    intro k hk
    induction k with
    | zero => rfl
    | succ k ih =>
      rw [Nat.count_succ]
      by_cases hstarts : Starts P k
      · rw [h.start k hk hstarts, ih (by omega), if_pos hstarts, add_assoc]
      · rw [h.rest k hk hstarts, ih (by omega), if_neg hstarts, add_zero]
  have himage : Prod.fst '' {streak : Nat × Nat | Maximal P n streak.1 streak.2} =
      ((Finset.range n).filter (Starts P) : Set Nat) := by
    ext i
    rw [Finset.coe_filter, Set.mem_image, Set.mem_ofPred_eq, Finset.mem_range]
    constructor
    · rintro ⟨⟨i, j⟩, hmax, rfl⟩
      exact ⟨hmax.lt.trans_le hmax.le, hmax.starts⟩
    · rintro ⟨hi, hstarts⟩
      obtain ⟨j, hmax⟩ := hstarts.maximal hi
      exact ⟨(i, j), hmax, rfl⟩
  have hinj : Set.InjOn Prod.fst {streak : Nat × Nat | Maximal P n streak.1 streak.2} := by
    rintro ⟨i, j⟩ hmax ⟨i', j'⟩ hmax' heq
    cases heq
    exact Prod.ext rfl (hmax.end_unique hmax')
  rw [hcount n le_rfl, Nat.count_eq_card_filter_range, ← hinj.ncard_image, himage,
    Set.ncard_coe_finset]

end CountsStarts

end Streaks
