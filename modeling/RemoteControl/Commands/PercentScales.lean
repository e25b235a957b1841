import Mathlib.Data.Rat.Floor
import RemoteControl.Lib.Scale
import RemoteControl.Commands.Status

/-!
# The percent scales of Status

`ToPercent` and `FromPercent` choose their piece by different tests, the one by the value
and the other by the percent. Over a range whose pivot is inside it, or that has none,
they are the two directions of one order isomorphism (`RangeProperty.exists_scale`).
-/

namespace RemoteControl

open Scale

namespace RangeProperty

/-- No pivot, or one strictly inside the range. -/
structure Scaled (r : RangeProperty) : Prop where
  min_lt_max : r.min < r.max
  pivot : r.pivotPercent = 0 ∧ r.pivotValue = r.min ∨
    (0 < r.pivotPercent ∧ r.pivotPercent < 100) ∧ r.min < r.pivotValue ∧ r.pivotValue < r.max

/-- Every range of `RangeFor` is one. -/
theorem scaled_of_rangeFor {id : Int} {r : RangeProperty} (h : rangeFor id = some r) :
    r.Scaled := by
  unfold rangeFor at h
  split at h <;> first
    | (cases h; exact ⟨by decide +kernel, by decide +kernel⟩)
    | cases h

/-- The terms of `ToPercent` in the order of `FromPercent`. -/
theorem toPercent_line (a b c d v : Rat) : c + (v - a) / (b - a) * (d - c) = line a b c d v := by
  unfold line
  ring

variable {r : RangeProperty}

theorem fromPercent_lower {p : Int} (hp : p < r.pivotPercent) (h : 0 < r.pivotPercent) :
    fromPercent p r = line 0 (r.pivotPercent : Rat) r.min r.pivotValue (p : Rat) := by
  simp only [fromPercent, hp, h, and_self, decide_true, if_true, line]

theorem fromPercent_upper {p : Int} (h : ¬(p < r.pivotPercent ∧ 0 < r.pivotPercent)) :
    fromPercent p r = line (r.pivotPercent : Rat) 100 r.pivotValue r.max (p : Rat) := by
  simp only [fromPercent, h, decide_false, Bool.false_eq_true, if_false, line]

theorem toPercent_lower {v : Rat} (hv : v < r.pivotValue) (h : 0 < r.pivotPercent) :
    toPercent v r = ⌊line r.min r.pivotValue 0 (r.pivotPercent : Rat) v⌋ := by
  simp only [toPercent, hv, h, and_self, decide_true, if_true, toPercent_line]
  rfl

theorem toPercent_upper {v : Rat} (h : ¬(v < r.pivotValue ∧ 0 < r.pivotPercent)) :
    toPercent v r = ⌊line r.pivotValue r.max (r.pivotPercent : Rat) 100 v⌋ := by
  simp only [toPercent, h, decide_false, Bool.false_eq_true, if_false, toPercent_line]
  rfl

theorem fromPercent_eq_bent (h : 0 < r.pivotPercent) (p : Int) :
    fromPercent p r = bent 0 (r.pivotPercent : Rat) 100 r.min r.pivotValue r.max (p : Rat) := by
  by_cases hp : p < r.pivotPercent
  · rw [bent_of_lt (Int.cast_lt.2 hp), fromPercent_lower hp h]
  · rw [bent_of_le (Int.cast_le.2 (not_lt.1 hp)), fromPercent_upper fun hlower => hp hlower.1]

theorem toPercent_eq_bent (h : 0 < r.pivotPercent) (v : Rat) :
    toPercent v r = ⌊bent r.min r.pivotValue r.max 0 (r.pivotPercent : Rat) 100 v⌋ := by
  by_cases hv : v < r.pivotValue
  · rw [bent_of_lt hv, toPercent_lower hv h]
  · rw [bent_of_le (not_lt.1 hv), toPercent_upper fun hlower => hv hlower.1]

/-- The scale the two functions are the directions of. -/
theorem Scaled.exists_scale (hr : r.Scaled) :
    ∃ e : Rat ≃o Rat, (∀ p : Int, fromPercent p r = e p) ∧ (∀ v, toPercent v r = ⌊e.symm v⌋) ∧
      e 0 = r.min ∧ e r.pivotPercent = r.pivotValue ∧ e 100 = r.max := by
  have h100 : (0 : Rat) < 100 := by norm_num
  rcases hr.pivot with ⟨hzero, hmin⟩ | ⟨⟨hpos, hlt⟩, hlow, hhigh⟩
  · have hrange : r.pivotValue < r.max := hmin ▸ hr.min_lt_max
    have hnever : ∀ P : Prop, ¬(P ∧ 0 < r.pivotPercent) := fun P h => h.2.ne' hzero
    have hcast : (r.pivotPercent : Rat) = 0 := by rw [hzero, Int.cast_zero]
    have hstart : line 0 100 r.pivotValue r.max 0 = r.pivotValue := line_left
    refine ⟨lineIso h100 hrange, fun p => ?_, fun v => ?_, hstart.trans hmin, ?_,
      line_right h100⟩
    · rw [fromPercent_upper (hnever _), hcast]
      rfl
    · rw [toPercent_upper (hnever _), hcast]
      rfl
    · rw [hcast]
      exact hstart
  · have hp : (0 : Rat) < r.pivotPercent := Int.cast_pos.2 hpos
    have hp' : (r.pivotPercent : Rat) < 100 := by exact_mod_cast hlt
    exact ⟨bentIso hp hp' hlow hhigh, fromPercent_eq_bent hpos, toPercent_eq_bent hpos,
      bent_left hp, bent_pivot, bent_right hp'⟩

end RangeProperty

/-! ## The equalizer -/

theorem equalizerPercentToDb_eq (p : Int) :
    equalizerPercentToDb p = line 0 100 (-15) 15 (p : Rat) := by
  unfold equalizerPercentToDb line
  ring

theorem equalizerDbToPercent_eq (db : Rat) :
    equalizerDbToPercent db = ⌊line (-15) 15 0 100 db⌋ := by
  have h : (db + 15) / (2 * 15) * 100 = line (-15) 15 0 100 db := by
    unfold line
    ring
  rw [equalizerDbToPercent, h]
  rfl

theorem equalizer_steps : Steps equalizerPercentToDb equalizerDbToPercent :=
  Steps.of_orderIso (lineIso (by norm_num) (by norm_num)) equalizerPercentToDb_eq
    equalizerDbToPercent_eq

/-! ## Both scales -/

/-- **The percent scales are exact inverses.** -/
theorem percent_scales_exact (r : RangeProperty) (hr : r.Scaled) :
    (Steps (fromPercent · r) (toPercent · r) ∧ fromPercent 0 r = r.min ∧
      fromPercent r.pivotPercent r = r.pivotValue ∧ fromPercent 100 r = r.max) ∧
    (Steps equalizerPercentToDb equalizerDbToPercent ∧ equalizerPercentToDb 0 = -15 ∧
      equalizerPercentToDb 50 = 0 ∧ equalizerPercentToDb 100 = 15) := by
  obtain ⟨e, hfrom, hto, hmin, hpivot, hmax⟩ := hr.exists_scale
  refine ⟨⟨Steps.of_orderIso e hfrom hto, ?_, ?_, ?_⟩,
    equalizer_steps, by decide +kernel, by decide +kernel, by decide +kernel⟩
  · rw [hfrom, Int.cast_zero, hmin]
  · rw [hfrom, hpivot]
  · rw [hfrom, Int.cast_ofNat, hmax]

theorem percent_scales_exact_tempo :
    (rangeFor 50).any fun r => toPercent (fromPercent 27 r) r = 27 :=
  (Option.any_eq_true _ _).2 ⟨_, rfl, decide_eq_true
    ((percent_scales_exact _
      (RangeProperty.scaled_of_rangeFor (show rangeFor 50 = some _ from rfl))).1.1.step_value 27)⟩

end RemoteControl
