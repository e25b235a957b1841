import RemoteControl.Helpers.Crc32
import RemoteControl.Lib.ShiftRegister

/-!
# CRC-32 bit by bit

* `crc32Update_eq_bitwise`: the table-driven CRC is the bitwise one.
* `crc32Update_append`: it can be computed in pieces.
* `crc32Update_burst`: it tells apart strings that differ in four bytes in a row.
-/

namespace RemoteControl

open ShiftRegister

def crcPolynomial : BitVec 32 := 0xEDB88320

/-- The bits of a byte, the lowest first. -/
def bitsOf (b : UInt8) : List Bool := (List.range 8).map b.toBitVec.getLsbD

def messageBits (s : Bytes) : List Bool := s.flatMap bitsOf

/-- The reflected CRC-32, one bit of the message at a time; initial value and final xor are
`0xFFFFFFFF`. -/
def crc32Bitwise (s : Bytes) : BitVec 32 :=
  feed crcPolynomial 0xFFFFFFFF (messageBits s) ^^^ 0xFFFFFFFF

theorem length_bitsOf (b : UInt8) : (bitsOf b).length = 8 := by simp [bitsOf]

theorem bitsOf_injective : Function.Injective bitsOf := by
  intro b b' h
  apply UInt8.toBitVec_inj.mp
  apply BitVec.eq_of_getLsbD_eq
  intro i hi
  have hbit := congrArg (fun bits => bits[i]?) h
  simpa [bitsOf, hi] using hbit

theorem messageBits_append (s s' : Bytes) :
    messageBits (s ++ s') = messageBits s ++ messageBits s' := List.flatMap_append

theorem length_messageBits (s : Bytes) : (messageBits s).length = 8 * s.length := by
  induction s with
  | nil => rfl
  | cons b s ih =>
    rw [messageBits, List.flatMap_cons, List.length_append, length_bitsOf]
    rw [messageBits] at ih
    rw [ih, List.length_cons]
    omega

theorem messageBits_injective : Function.Injective messageBits := by
  intro s s' h
  induction s generalizing s' with
  | nil =>
    have hlength := congrArg List.length h
    rw [length_messageBits, length_messageBits] at hlength
    exact (List.length_eq_zero_iff.mp (Nat.eq_of_mul_eq_mul_left (by decide) hlength.symm)).symm
  | cons b s ih =>
    cases s' with
    | nil =>
      have hlength := congrArg List.length h
      rw [length_messageBits, length_messageBits] at hlength
      simp at hlength
    | cons b' s' =>
      have hsplit : bitsOf b ++ messageBits s = bitsOf b' ++ messageBits s' := h
      obtain ⟨hb, hs⟩ := List.append_inj hsplit (by rw [length_bitsOf, length_bitsOf])
      rw [bitsOf_injective hb, ih hs]

/-! ## The table -/

theorem crcShift_eq (c : BitVec 32) : crcShift c = shift crcPolynomial c := by
  have hlow : c &&& 1 = 1 ↔ c.getLsbD 0 = true := by
    rw [show (1 : BitVec 32) = 1#32 from rfl, BitVec.and_one_eq_setWidth_ofBool_getLsbD]
    cases c.getLsbD 0 <;> decide
  unfold crcShift shift
  simp only [hlow]
  rfl

theorem kTable_eq (i : BitVec 32) : kTable i = (shift crcPolynomial)^[8] i := by
  have hstep : (fun c (_ : Nat) => crcShift c) = fun c _ => shift crcPolynomial c := by
    funext c n
    exact crcShift_eq c
  rw [kTable, hstep, List.foldl_const, List.length_range]

theorem getLsbD_255 (i : Nat) : (0xFF#32).getLsbD i = decide (i < 8) := by
  rw [show 0xFF#32 = BitVec.ofNat 32 (2 ^ 8 - 1) from rfl, BitVec.getLsbD_ofNat,
    Nat.testBit_two_pow_sub_one]
  by_cases hi : i < 8
  · simp [hi, show i < 32 by omega]
  · simp [hi]

/-- Eight shifts turn the low byte into its table entry and move the others down. -/
theorem iterate_shift_eight (x : BitVec 32) :
    (shift crcPolynomial)^[8] x = kTable (x &&& 0xFF#32) ^^^ (x >>> 8) := by
  have hsplit : x = (x &&& 0xFF#32) ^^^ (x >>> 8 <<< 8) := by
    apply BitVec.eq_of_getLsbD_eq
    intro i hi
    rw [BitVec.getLsbD_xor, BitVec.getLsbD_and, getLsbD_255, BitVec.getLsbD_shiftLeft,
      BitVec.getLsbD_ushiftRight]
    by_cases h : i < 8
    · simp [h]
    · simp [h, hi, show 8 + (i - 8) = i by omega]
  have hclear : ∀ i < 8, (x >>> 8 <<< 8).getLsbD i = false := by
    intro i hi
    simp [BitVec.getLsbD_shiftLeft, hi]
  have hdown : x >>> 8 <<< 8 >>> 8 = x >>> 8 := by
    apply BitVec.eq_of_getLsbD_eq
    intro i hi
    rw [BitVec.getLsbD_ushiftRight, BitVec.getLsbD_shiftLeft, BitVec.getLsbD_ushiftRight]
    by_cases h : 8 + i < 32
    · simp [h]
    · simp [h, BitVec.getLsbD_of_ge x (8 + i) (by omega)]
  calc (shift crcPolynomial)^[8] x
      = (shift crcPolynomial)^[8] ((x &&& 0xFF#32) ^^^ (x >>> 8 <<< 8)) := by rw [← hsplit]
    _ = kTable (x &&& 0xFF#32) ^^^ (x >>> 8) := by
      rw [iterate_shift_xor, iterate_shift_of_clear hclear, hdown, kTable_eq]

/-- One turn of the loop takes in the eight bits of its byte. -/
theorem crcByte_eq (crc : BitVec 32) (b : UInt8) :
    crcByte crc b = feed crcPolynomial crc (bitsOf b) := by
  have hbits : ofBits 32 (bitsOf b) = b.toBitVec.setWidth 32 := by
    apply BitVec.eq_of_getLsbD_eq
    intro i hi
    rw [getLsbD_ofBits hi, BitVec.getLsbD_setWidth]
    by_cases h : i < 8
    · simp [bitsOf, h, hi]
    · simp [bitsOf, h, BitVec.getLsbD_of_ge b.toBitVec i (by omega)]
  have hhigh : b.toBitVec.setWidth 32 >>> 8 = 0#32 := by
    apply BitVec.eq_of_getLsbD_eq
    intro i hi
    rw [BitVec.getLsbD_ushiftRight, BitVec.getLsbD_setWidth,
      BitVec.getLsbD_of_ge b.toBitVec (8 + i) (by omega)]
    simp
  rw [feed_eq (by rw [length_bitsOf]; decide), length_bitsOf, hbits, iterate_shift_eight,
    BitVec.ushiftRight_xor_distrib, hhigh, BitVec.xor_zero]
  rfl

theorem foldl_crcByte (crc : BitVec 32) (s : Bytes) :
    s.foldl crcByte crc = feed crcPolynomial crc (messageBits s) := by
  induction s generalizing crc with
  | nil => rfl
  | cons b s ih =>
    rw [List.foldl_cons, ih, crcByte_eq, ← feed_append]
    rfl

/-! ## Whole strings -/

theorem crc32Update_eq_bitwise (s : Bytes) : crc32Update 0 s = crc32Bitwise s := by
  rw [crc32Update, foldl_crcByte]
  rfl

theorem crc32Update_append (crc : BitVec 32) (s s' : Bytes) :
    crc32Update (crc32Update crc s) s' = crc32Update crc (s ++ s') := by
  have hback : ∀ x : BitVec 32, x ^^^ 0xFFFFFFFF ^^^ 0xFFFFFFFF = x := fun x => by
    rw [BitVec.xor_assoc, BitVec.xor_self, BitVec.xor_zero]
  rw [crc32Update, crc32Update, crc32Update, hback, List.foldl_append]

theorem crc32Update_nil (crc : BitVec 32) : crc32Update crc [] = crc := by
  rw [crc32Update, List.foldl_nil, BitVec.xor_assoc, BitVec.xor_self, BitVec.xor_zero]

/-- Up to four bytes in a row that differ are told apart. -/
theorem crc32Update_burst {crc : BitVec 32} {front back window window' : Bytes}
    (hlength : window.length = window'.length) (hwindow : window.length ≤ 4)
    (h : crc32Update crc (front ++ window ++ back) = crc32Update crc (front ++ window' ++ back)) :
    window = window' := by
  have hregister := (BitVec.xor_left_inj _).mp h
  rw [foldl_crcByte, foldl_crcByte, messageBits_append, messageBits_append,
    messageBits_append (front ++ window'), messageBits_append] at hregister
  refine messageBits_injective (feed_burst (by decide) ?_ ?_ hregister)
  · rw [length_messageBits, length_messageBits, hlength]
  · rw [length_messageBits]
    omega

end RemoteControl
