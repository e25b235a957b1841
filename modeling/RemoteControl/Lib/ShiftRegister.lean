import Mathlib.Logic.Function.Iterate

/-!
# Shift registers with feedback

A register of `w` bits shifts down one place at a time, and the polynomial is added to it
whenever the bit shifted out is set. A message is fed in bit by bit, each bit added to the
one shifted out.

* `shift` is linear and, where the polynomial has its top bit set, loses nothing.
* `feed_eq`: up to `w` message bits can be added to the register at once.
* `feed_burst`: two messages that differ in a burst of at most `w` bits leave different
  registers, whatever comes before and after the burst.
-/

namespace ShiftRegister

variable {w : Nat} {poly c d : BitVec w} {bits burst burst' : List Bool}

/-! ## Shifting -/

/-- Shift once. -/
def shift (poly c : BitVec w) : BitVec w := if c.getLsbD 0 then poly ^^^ (c >>> 1) else c >>> 1

theorem shift_xor (poly c d : BitVec w) :
    shift poly (c ^^^ d) = shift poly c ^^^ shift poly d := by
  unfold shift
  rw [BitVec.getLsbD_xor, BitVec.ushiftRight_xor_distrib]
  cases hc : c.getLsbD 0 <;> cases hd : d.getLsbD 0
  · rfl
  · simp only [Bool.false_xor, if_true, Bool.false_eq_true, if_false]
    ac_rfl
  · simp only [Bool.xor_false, if_true, Bool.false_eq_true, if_false]
    ac_rfl
  · -- the polynomial is added twice
    have hcancel : ∀ x y : BitVec w, poly ^^^ x ^^^ (poly ^^^ y) = x ^^^ y := fun x y => by
      rw [BitVec.xor_comm poly x, BitVec.xor_assoc, ← BitVec.xor_assoc poly, BitVec.xor_self,
        BitVec.zero_xor]
    simp only [Bool.xor_self, Bool.false_eq_true, if_false, if_true, hcancel]

theorem iterate_shift_xor (poly c d : BitVec w) (n : Nat) :
    (shift poly)^[n] (c ^^^ d) = (shift poly)^[n] c ^^^ (shift poly)^[n] d := by
  induction n generalizing c d with
  | zero => rfl
  | succ n ih => rw [Function.iterate_succ_apply, shift_xor, ih]; rfl

theorem width_pos (hpoly : poly.getLsbD (w - 1) = true) : 0 < w := by
  by_contra h
  rw [BitVec.getLsbD_of_ge _ _ (by omega)] at hpoly
  cases hpoly

/-- The top bit tells whether the polynomial was added. -/
theorem getLsbD_shift_top (hpoly : poly.getLsbD (w - 1) = true) :
    (shift poly c).getLsbD (w - 1) = c.getLsbD 0 := by
  have hw := width_pos hpoly
  have htop : (c >>> 1).getLsbD (w - 1) = false := by
    rw [BitVec.getLsbD_ushiftRight]
    exact BitVec.getLsbD_of_ge c _ (by omega)
  unfold shift
  split
  · next hc => rw [BitVec.getLsbD_xor, hpoly, htop, hc]; rfl
  · next hc => rw [htop, Bool.not_eq_true _ |>.mp hc]

theorem shift_injective (hpoly : poly.getLsbD (w - 1) = true) :
    Function.Injective (shift poly) := by
  intro c d h
  have hlow : c.getLsbD 0 = d.getLsbD 0 := by
    rw [← getLsbD_shift_top hpoly, ← getLsbD_shift_top hpoly, h]
  have hhigh : c >>> 1 = d >>> 1 := by
    unfold shift at h
    rw [hlow] at h
    split at h
    · exact (BitVec.xor_right_inj poly).mp h
    · exact h
  apply BitVec.eq_of_getLsbD_eq
  intro i hi
  cases i with
  | zero => exact hlow
  | succ i =>
    have hbit := congrArg (fun x => BitVec.getLsbD x i) hhigh
    simpa [Nat.add_comm] using hbit

/-- What stands above clear bits just moves down. -/
theorem iterate_shift_of_clear {n : Nat} (hclear : ∀ i < n, c.getLsbD i = false) :
    (shift poly)^[n] c = c >>> n := by
  induction n with
  | zero => simp
  | succ n ih =>
    rw [Function.iterate_succ_apply', ih fun i hi => hclear i (Nat.lt_succ_of_lt hi), shift,
      BitVec.getLsbD_ushiftRight, Nat.add_zero, hclear n (Nat.lt_succ_self n),
      if_neg Bool.false_ne_true, BitVec.shiftRight_add]

/-! ## Feeding a message -/

/-- One message bit: it is added to the bit that is shifted out. -/
def feedBit (poly c : BitVec w) (b : Bool) : BitVec w :=
  if c.getLsbD 0 != b then poly ^^^ (c >>> 1) else c >>> 1

def feed (poly c : BitVec w) (bits : List Bool) : BitVec w := bits.foldl (feedBit poly) c

/-- Message bits as a register, the first one lowest. -/
def ofBits (w : Nat) : List Bool → BitVec w
  | [] => 0
  | b :: bits => (BitVec.ofBool b).setWidth w ^^^ (ofBits w bits <<< 1)

theorem feed_append (poly c : BitVec w) (bits bits' : List Bool) :
    feed poly c (bits ++ bits') = feed poly (feed poly c bits) bits' := List.foldl_append

theorem getLsbD_ofBits {i : Nat} (hi : i < w) :
    (ofBits w bits).getLsbD i = bits[i]?.getD false := by
  induction bits generalizing i with
  | nil => simp [ofBits]
  | cons b bits ih =>
    rw [ofBits, BitVec.getLsbD_xor, BitVec.getLsbD_setWidth, BitVec.getLsbD_shiftLeft]
    cases i with
    | zero => simp [hi]
    | succ i =>
      have hrest := ih (Nat.lt_of_succ_lt hi)
      simp [hi, hrest]

theorem ofBits_inj (hlength : burst.length = burst'.length) (hburst : burst.length ≤ w)
    (h : ofBits w burst = ofBits w burst') : burst = burst' := by
  apply List.ext_getElem hlength
  intro i hi hi'
  have hbit : (ofBits w burst).getLsbD i = (ofBits w burst').getLsbD i := by rw [h]
  rw [getLsbD_ofBits (by omega), getLsbD_ofBits (by omega), List.getElem?_eq_getElem hi,
    List.getElem?_eq_getElem hi'] at hbit
  exact hbit

theorem feedBit_eq (hw : 0 < w) (poly c : BitVec w) (b : Bool) :
    feedBit poly c b = shift poly (c ^^^ (BitVec.ofBool b).setWidth w) := by
  have hlow : ((BitVec.ofBool b).setWidth w).getLsbD 0 = b := by
    simp [hw]
  have hhigh : (BitVec.ofBool b).setWidth w >>> 1 = 0#w := by
    apply BitVec.eq_of_getLsbD_eq
    intro i hi
    simp [BitVec.getLsbD_setWidth, BitVec.getLsbD_of_ge]
  unfold feedBit shift
  rw [BitVec.getLsbD_xor, hlow, BitVec.ushiftRight_xor_distrib, hhigh, BitVec.xor_zero]

/-- Up to `w` bits can be added first and shifted out afterwards. -/
theorem feed_eq (hlength : bits.length ≤ w) :
    feed poly c bits = (shift poly)^[bits.length] (c ^^^ ofBits w bits) := by
  induction bits generalizing c with
  | nil => simp [feed, ofBits]
  | cons b bits ih =>
    have hw : bits.length < w := hlength
    -- the later bits stand one place higher, and come down with the first shift
    have hdown : shift poly (ofBits w bits <<< 1) = ofBits w bits := by
      have hclear : ∀ i < 1, (ofBits w bits <<< 1).getLsbD i = false := by
        intro i hi
        simp [BitVec.getLsbD_shiftLeft, hi]
      refine (iterate_shift_of_clear hclear).trans ?_
      apply BitVec.eq_of_getLsbD_eq
      intro i hi
      rw [BitVec.getLsbD_ushiftRight, BitVec.getLsbD_shiftLeft]
      rcases Nat.lt_or_ge (1 + i) w with hlt | hge
      · simp [hlt]
      · rw [getLsbD_ofBits hi, List.getElem?_eq_none (by omega)]
        simp [Nat.not_lt.mpr hge]
    calc feed poly c (b :: bits)
        = feed poly (feedBit poly c b) bits := rfl
      _ = (shift poly)^[bits.length] (feedBit poly c b ^^^ ofBits w bits) :=
        ih (Nat.le_of_lt hw)
      _ = (shift poly)^[bits.length]
          (shift poly (c ^^^ ((BitVec.ofBool b).setWidth w ^^^ (ofBits w bits <<< 1)))) := by
        rw [feedBit_eq (by omega), ← BitVec.xor_assoc, shift_xor poly (c ^^^ _), hdown]
      _ = (shift poly)^[(b :: bits).length] (c ^^^ ofBits w (b :: bits)) := rfl

/-! ## What the register tells apart -/

theorem feed_injective (hpoly : poly.getLsbD (w - 1) = true) (bits : List Bool) :
    Function.Injective fun c => feed poly c bits := by
  have hw := width_pos hpoly
  induction bits with
  | nil => exact fun c d h => h
  | cons b bits ih =>
    intro c d h
    have hbit : feedBit poly c b = feedBit poly d b := ih h
    rw [feedBit_eq hw, feedBit_eq hw] at hbit
    exact (BitVec.xor_left_inj _).mp (shift_injective hpoly hbit)

/-- A burst of at most `w` bits changes the register, for whatever follows it too. -/
theorem feed_burst (hpoly : poly.getLsbD (w - 1) = true) {front back : List Bool}
    (hlength : burst.length = burst'.length) (hburst : burst.length ≤ w)
    (h : feed poly c (front ++ burst ++ back) = feed poly c (front ++ burst' ++ back)) :
    burst = burst' := by
  rw [feed_append, feed_append, feed_append poly c (front ++ burst'), feed_append] at h
  have hregister := feed_injective hpoly back h
  generalize feed poly c front = c at hregister
  rw [feed_eq hburst, feed_eq (hlength ▸ hburst), ← hlength] at hregister
  have hadded := (shift_injective hpoly).iterate burst.length hregister
  exact ofBits_inj hlength hburst ((BitVec.xor_right_inj _).mp hadded)

end ShiftRegister
