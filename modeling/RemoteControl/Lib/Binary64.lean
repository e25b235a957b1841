import Mathlib.Data.Int.Log
import Mathlib.Data.Rat.Floor
import Mathlib.Tactic.Linarith

/-!
# Binary64 numbers

A `double` is the rational it stands for; `round` is the double nearest to a rational, the
even one of two. The exponent is unbounded: nothing overflows and nothing is subnormal.

* `abs_round_sub_le`: the error is at most half a unit in the last place.
* `round_dyadic`: a number of 53 significant bits is kept.
-/

namespace Binary64

/-! ## The nearest integer -/

/-- The nearest integer, the even one of two. -/
def nearestEven (x : Rat) : Int :=
  if Int.fract x < 1 / 2 then ⌊x⌋
  else if 1 / 2 < Int.fract x then ⌊x⌋ + 1
  else if ⌊x⌋ % 2 = 0 then ⌊x⌋
  else ⌊x⌋ + 1

theorem abs_nearestEven_sub_le (x : Rat) : |(nearestEven x : Rat) - x| ≤ 1 / 2 := by
  have hfract : x = ⌊x⌋ + Int.fract x := (Int.floor_add_fract x).symm
  have hnonneg := Int.fract_nonneg x
  have hlt := Int.fract_lt_one x
  rw [abs_le]
  unfold nearestEven
  split_ifs <;> push_cast <;> constructor <;> linarith

theorem nearestEven_intCast (n : Int) : nearestEven (n : Rat) = n := by
  unfold nearestEven
  rw [Int.fract_intCast, if_pos (by norm_num), Int.floor_intCast]

theorem nearestEven_nonneg {x : Rat} (hx : 0 ≤ x) : 0 ≤ nearestEven x := by
  have hfloor : 0 ≤ ⌊x⌋ := Int.floor_nonneg.2 hx
  unfold nearestEven
  split_ifs <;> omega

theorem nearestEven_nonpos {x : Rat} (hx : x ≤ 0) : nearestEven x ≤ 0 := by
  by_contra hpositive
  have hone : (1 : Rat) ≤ nearestEven x := by exact_mod_cast not_le.1 hpositive
  have hdist := (abs_le.1 (abs_nearestEven_sub_le x)).2
  linarith

/-! ## Units in the last place -/

/-- The distance of the doubles around `x`. -/
def ulp (x : Rat) : Rat := 2 ^ (Int.log 2 |x| - 52)

theorem ulp_pos (x : Rat) : 0 < ulp x := zpow_pos (by norm_num) _

theorem ulp_le {x : Rat} {k : Int} (hx : x ≠ 0) (h : |x| < 2 ^ k) : ulp x ≤ 2 ^ (k - 53) := by
  have hlog : Int.log 2 |x| < k := (Int.lt_zpow_iff_log_lt (by decide) (abs_pos.2 hx)).1 h
  exact zpow_le_zpow_right₀ (by norm_num) (by omega)

/-! ## Rounding -/

/-- The double nearest to `x`. -/
def round (x : Rat) : Rat := nearestEven (x / ulp x) * ulp x

theorem abs_round_sub_le (x : Rat) : |round x - x| ≤ ulp x / 2 := by
  have hulp := ulp_pos x
  have hscale : round x - x = (nearestEven (x / ulp x) - x / ulp x) * ulp x := by
    rw [round, sub_mul, div_mul_cancel₀ x hulp.ne']
  rw [hscale, abs_mul, abs_of_pos hulp]
  calc |(nearestEven (x / ulp x) : Rat) - x / ulp x| * ulp x
      ≤ 1 / 2 * ulp x := mul_le_mul_of_nonneg_right (abs_nearestEven_sub_le _) hulp.le
    _ = ulp x / 2 := by ring

theorem round_zero : round 0 = 0 := by
  unfold round
  rw [zero_div]
  exact mul_eq_zero_of_left (by exact_mod_cast nearestEven_intCast 0) _

theorem round_nonneg {x : Rat} (hx : 0 ≤ x) : 0 ≤ round x :=
  mul_nonneg (by exact_mod_cast nearestEven_nonneg (div_nonneg hx (ulp_pos x).le)) (ulp_pos x).le

theorem round_nonpos {x : Rat} (hx : x ≤ 0) : round x ≤ 0 :=
  mul_nonpos_of_nonpos_of_nonneg
    (by exact_mod_cast nearestEven_nonpos (div_nonpos_of_nonpos_of_nonneg hx (ulp_pos x).le))
    (ulp_pos x).le

/-- What 53 bits hold is not rounded. -/
theorem round_dyadic {m : Int} (e : Int) (hm : |m| < 2 ^ 53) :
    round (m * 2 ^ e) = m * 2 ^ e := by
  obtain rfl | hne := eq_or_ne m 0
  · rw [Int.cast_zero, zero_mul, round_zero]
  · have htwo : (0 : Rat) < 2 ^ e := zpow_pos (by norm_num) e
    have hx : (m : Rat) * 2 ^ e ≠ 0 := mul_ne_zero (Int.cast_ne_zero.2 hne) htwo.ne'
    have hsmall : |(m : Rat) * 2 ^ e| < 2 ^ (53 + e) := by
      rw [abs_mul, abs_of_pos htwo, zpow_add₀ (by norm_num)]
      exact mul_lt_mul_of_pos_right (by exact_mod_cast hm) htwo
    have hlog : Int.log 2 |(m : Rat) * 2 ^ e| < 53 + e :=
      (Int.lt_zpow_iff_log_lt (by decide) (abs_pos.2 hx)).1 hsmall
    -- the unit divides `2 ^ e`
    obtain ⟨k, hk⟩ := Int.eq_ofNat_of_zero_le
      (show 0 ≤ e - (Int.log 2 |(m : Rat) * 2 ^ e| - 52) by omega)
    have hsplit : (2 : Rat) ^ e = 2 ^ k * ulp (m * 2 ^ e) := by
      rw [ulp, ← zpow_natCast, ← zpow_add₀ (by norm_num)]
      congr 1
      omega
    have hquotient : (m : Rat) * 2 ^ e / ulp (m * 2 ^ e) = ((m * 2 ^ k : Int) : Rat) := by
      rw [div_eq_iff (ulp_pos _).ne']
      push_cast
      rw [mul_assoc, ← hsplit]
    rw [round, hquotient, nearestEven_intCast]
    push_cast
    rw [mul_assoc, ← hsplit]

theorem round_intCast {n : Int} (hn : |n| < 2 ^ 53) : round (n : Rat) = n := by
  simpa using round_dyadic 0 hn

end Binary64
