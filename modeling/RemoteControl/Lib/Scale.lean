import Mathlib.Algebra.Order.Floor.Ring
import Mathlib.Data.Int.ConditionallyCompleteOrder
import Mathlib.Order.Bounds.Basic
import Mathlib.Order.Hom.Basic
import Mathlib.Tactic.FieldSimp
import Mathlib.Tactic.Linarith
import Mathlib.Tactic.Ring

/-!
# Scales made of straight pieces

`line a b c d` is the line through `(a, c)` and `(b, d)`; `bent a p b c q d` is the two
lines that meet in the pivot `(p, q)`, the piece chosen by the argument. Read the other
way round, choosing the piece by the value, it is its own inverse (`bent_bent`), so both
are order isomorphisms.

A scale that shows the floor of the inverse of an order isomorphism shows the greatest
step whose value is not above the shown one (`Steps.of_orderIso`).
-/

namespace Scale

section Line

variable {K : Type*} [Field K] {a p b c q d x y : K}

def line (a b c d x : K) : K := c + (d - c) * (x - a) / (b - a)

theorem line_left : line a b c d a = c := by
  rw [line, sub_self, mul_zero, zero_div, add_zero]

variable [LinearOrder K]

def bent (a p b c q d x : K) : K := if x < p then line a p c q x else line p b q d x

theorem bent_of_lt (hx : x < p) : bent a p b c q d x = line a p c q x := if_pos hx

theorem bent_of_le (hx : p ≤ x) : bent a p b c q d x = line p b q d x := if_neg hx.not_gt

theorem bent_pivot : bent a p b c q d p = q := by
  rw [bent_of_le le_rfl, line_left]

/-! ## One line -/

variable [IsStrictOrderedRing K]

theorem line_right (hab : a < b) : line a b c d b = d := by
  rw [line, mul_div_cancel_right₀ _ (sub_pos.2 hab).ne', add_sub_cancel]

theorem line_strictMono (hab : a < b) (hcd : c < d) : StrictMono (line a b c d) := by
  intro x y hxy
  have hslope : (d - c) * (x - a) < (d - c) * (y - a) :=
    mul_lt_mul_of_pos_left (sub_lt_sub_right hxy a) (sub_pos.2 hcd)
  exact add_lt_add_right (div_lt_div_of_pos_right hslope (sub_pos.2 hab)) c

/-- The line through the swapped points is the inverse. -/
theorem line_line (hab : a < b) (hcd : c < d) : line c d a b (line a b c d x) = x := by
  have hb : b - a ≠ 0 := (sub_pos.2 hab).ne'
  have hd : d - c ≠ 0 := (sub_pos.2 hcd).ne'
  unfold line
  field_simp
  ring

def lineIso (hab : a < b) (hcd : c < d) : K ≃o K :=
  (line_strictMono hab hcd).orderIsoOfRightInverse _ (line c d a b) fun _ => line_line hcd hab

/-! ## Two lines -/

/-- Below the pivot the values are below the pivot's. -/
theorem bent_lt_pivot_iff (hap : a < p) (hpb : p < b) (hcq : c < q) (hqd : q < d) :
    bent a p b c q d x < q ↔ x < p := by
  constructor
  · intro h
    by_contra hx
    have hle : p ≤ x := not_lt.1 hx
    have hq : q ≤ line p b q d x := by
      calc q = line p b q d p := line_left.symm
        _ ≤ line p b q d x := (line_strictMono hpb hqd).monotone hle
    rw [bent_of_le hle] at h
    exact absurd h hq.not_gt
  · intro hx
    rw [bent_of_lt hx]
    calc line a p c q x < line a p c q p := line_strictMono hap hcq hx
      _ = q := line_right hap

theorem bent_strictMono (hap : a < p) (hpb : p < b) (hcq : c < q) (hqd : q < d) :
    StrictMono (bent a p b c q d) := by
  intro x y hxy
  rcases lt_or_ge y p with hy | hy
  · rw [bent_of_lt hy, bent_of_lt (hxy.trans hy)]
    exact line_strictMono hap hcq hxy
  · rcases lt_or_ge x p with hx | hx
    · have hlow : bent a p b c q d x < q := (bent_lt_pivot_iff hap hpb hcq hqd).2 hx
      have hhigh : ¬bent a p b c q d y < q :=
        fun h => hy.not_gt ((bent_lt_pivot_iff hap hpb hcq hqd).1 h)
      exact hlow.trans_le (not_lt.1 hhigh)
    · rw [bent_of_le hx, bent_of_le hy]
      exact line_strictMono hpb hqd hxy

/-- The piece taken on the way back is the piece taken on the way out. -/
theorem bent_bent (hap : a < p) (hpb : p < b) (hcq : c < q) (hqd : q < d) :
    bent c q d a p b (bent a p b c q d x) = x := by
  rcases lt_or_ge x p with hx | hx
  · rw [bent_of_lt ((bent_lt_pivot_iff hap hpb hcq hqd).2 hx), bent_of_lt hx,
      line_line hap hcq]
  · have hq : q ≤ bent a p b c q d x :=
      not_lt.1 fun h => hx.not_gt ((bent_lt_pivot_iff hap hpb hcq hqd).1 h)
    rw [bent_of_le hq, bent_of_le hx, line_line hpb hqd]

def bentIso (hap : a < p) (hpb : p < b) (hcq : c < q) (hqd : q < d) : K ≃o K :=
  (bent_strictMono hap hpb hcq hqd).orderIsoOfRightInverse _ (bent c q d a p b)
    fun _ => bent_bent hcq hqd hap hpb

omit [IsStrictOrderedRing K] in
theorem bent_left (hap : a < p) : bent a p b c q d a = c := by
  rw [bent_of_lt hap, line_left]

theorem bent_right (hpb : p < b) : bent a p b c q d b = d := by
  rw [bent_of_le hpb.le, line_right hpb]

end Line

/-! ## Steps -/

/-- `step` shows a value as the greatest integer step that is not above it. -/
structure Steps {K : Type*} [LinearOrder K] (value : ℤ → K) (step : K → ℤ) : Prop where
  step_value : ∀ p, step (value p) = p
  strictMono : StrictMono value
  greatest : ∀ v, IsGreatest {p | value p ≤ v} (step v)

theorem Steps.of_orderIso {K : Type*} [Ring K] [LinearOrder K] [IsStrictOrderedRing K]
    [FloorRing K] {value : ℤ → K} {step : K → ℤ} (e : K ≃o K)
    (hvalue : ∀ p : ℤ, value p = e p) (hstep : ∀ v, step v = ⌊e.symm v⌋) :
    Steps value step := by
  have hle : ∀ (p : ℤ) (v : K), value p ≤ v ↔ p ≤ step v := by
    intro p v
    rw [hvalue, hstep, Int.le_floor, OrderIso.le_symm_apply]
  refine ⟨fun p => ?_, fun p r hpr => ?_, fun v => ⟨?_, fun p hp => ?_⟩⟩
  · rw [hstep, hvalue, OrderIso.symm_apply_apply, Int.floor_intCast]
  · rw [hvalue, hvalue]
    exact e.strictMono (Int.cast_lt.2 hpr)
  · exact (hle _ v).2 le_rfl
  · exact (hle p v).1 hp

end Scale
