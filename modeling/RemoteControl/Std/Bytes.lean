import Mathlib.Algebra.Group.Int.Defs
import Mathlib.Algebra.Group.Nat.Defs
import Mathlib.Data.List.Basic
import Mathlib.Data.List.TakeWhile
import Mathlib.Data.Int.Basic

/-!
# Byte strings

`std::string` as a list of bytes, with the members the plugin uses: `find` of
one character or of a string, `substr` (as `take` and `drop`), `std::to_string`
and `std::stoll`. `ascii` writes a literal of the source.
-/

namespace RemoteControl

/-- A `std::string`: any bytes, no encoding assumed. -/
abbrev Bytes := List UInt8

instance : LawfulBEq Bytes := inferInstance

/-- The bytes of an ASCII literal. -/
def ascii (s : String) : Bytes := s.toList.map fun c => UInt8.ofNat c.toNat

/-- `s.find(c)`, with `none` for `npos`. -/
def findByte (c : UInt8) (s : Bytes) : Option Nat := s.findIdx? (· == c)

/-- `s.find(pattern, pos)`, with `none` for `npos`. -/
def findFrom (pattern : Bytes) : Bytes → Nat → Option Nat
  | s, pos + 1 =>
    match s with
    | [] => none
    | _ :: s => (findFrom pattern s pos).map (· + 1)
  | [], 0 => if pattern = [] then some 0 else none
  | c :: s, 0 =>
    if pattern.isPrefixOf (c :: s) then some 0 else (findFrom pattern s 0).map (· + 1)

theorem findByte_append_cons {c : UInt8} {s t : Bytes} (h : c ∉ s) :
    findByte c (s ++ c :: t) = some s.length := by
  have hs : ∀ b ∈ s, (b == c) = false := fun b hb => by
    simp only [beq_eq_false_iff_ne, ne_eq]
    rintro rfl
    exact h hb
  rw [findByte, List.findIdx?_append, List.findIdx?_eq_none_iff.mpr hs, List.findIdx?_cons]
  simp

theorem findByte_eq_some {c : UInt8} {s : Bytes} {i : Nat} (h : findByte c s = some i) :
    s = s.take i ++ c :: s.drop (i + 1) ∧ c ∉ s.take i := by
  obtain ⟨hi, hc, hlt⟩ := List.findIdx?_eq_some_iff_getElem.mp h
  simp only [beq_iff_eq] at hc
  refine ⟨?_, fun hm => ?_⟩
  · conv_lhs => rw [← List.take_append_drop i s, List.drop_eq_getElem_cons hi, hc]
  · obtain ⟨j, hj, he⟩ := List.getElem_of_mem hm
    rw [List.getElem_take] at he
    have hji : j < i := by
      rw [List.length_take] at hj
      omega
    exact hlt j hji (by simp [he])

theorem findByte_eq_none {c : UInt8} {s : Bytes} (h : findByte c s = none) : c ∉ s := by
  intro hmem
  have := List.findIdx?_eq_none_iff.mp h c hmem
  simp at this

/-! The first separator splits a string. -/

theorem splitOn_of_findByte_eq_none {c : UInt8} {s : Bytes} (h : findByte c s = none) :
    s.splitOn c = [s] :=
  List.splitOn_eq_singleton (findByte_eq_none h)

theorem splitOn_of_findByte_eq_some {c : UInt8} {s : Bytes} {n : Nat} (h : findByte c s = some n) :
    s.splitOn c = s.take n :: (s.drop (n + 1)).splitOn c := by
  obtain ⟨hsplit, hnot⟩ := findByte_eq_some h
  conv_lhs => rw [hsplit]
  rw [List.splitOn_append_cons_self_of_not_mem hnot]

/-! ## Decimal numbers -/

/-- The decimal digits of a natural number. -/
def digitsOf (n : Nat) : Bytes := (Nat.toDigits 10 n).map fun c => UInt8.ofNat c.toNat

/-- `std::to_string` of an integer. -/
def toDecimal (n : Int) : Bytes :=
  if n < 0 then ascii "-" ++ digitsOf n.natAbs else digitsOf n.natAbs

/-- `std::isspace` in the C locale. -/
def isSpace (b : UInt8) : Bool := b == 32 || (9 ≤ b && b ≤ 13)

/-- An ASCII decimal digit. -/
def isDigit (b : UInt8) : Bool := 48 ≤ b && b ≤ 57

/-- The value of a string of decimal digits. -/
def digitsValue (ds : Bytes) : Nat := ds.foldl (fun n d => 10 * n + (d.toNat - 48)) 0

/-- The optional sign in front of a number: whether it is `-`, and the rest. -/
def takeSign : Bytes → Bool × Bytes
  | [] => (false, [])
  | b :: s => if b = 45 then (true, s) else if b = 43 then (false, s) else (false, b :: s)

/-- `std::stoll`: leading blanks and one sign are skipped, the longest run of
digits is read and the rest ignored. `none` is `invalid_argument` (no digit) or
`out_of_range` (does not fit in 64 bits). -/
def stoll (s : Bytes) : Option Int :=
  let (negative, s) := takeSign (s.dropWhile isSpace)
  let digits := s.takeWhile isDigit
  if digits = [] then none
  else
    let n : Int := if negative then -(digitsValue digits : Int) else digitsValue digits
    if -2 ^ 63 ≤ n ∧ n < 2 ^ 63 then some n else none

theorem isDigit_ofNat {c : Char} (h : c.isDigit = true) : isDigit (UInt8.ofNat c.toNat) = true := by
  simp only [Char.isDigit, Bool.and_eq_true, decide_eq_true_eq, UInt32.le_iff_toNat_le] at h
  have h48 : 48 ≤ c.toNat := h.1
  have h57 : c.toNat ≤ 57 := h.2
  simp only [isDigit, Bool.and_eq_true, decide_eq_true_eq, UInt8.le_iff_toNat_le,
    UInt8.toNat_ofNat']
  constructor
  · show 48 ≤ _
    omega
  · show _ ≤ 57
    omega

theorem toNat_ofNat_digit {c : Char} (h : c.isDigit = true) :
    (UInt8.ofNat c.toNat).toNat = c.toNat := by
  simp only [Char.isDigit, Bool.and_eq_true, decide_eq_true_eq, UInt32.le_iff_toNat_le] at h
  have h57 : c.toNat ≤ 57 := h.2
  rw [UInt8.toNat_ofNat']
  omega

theorem isDigit_of_mem_digitsOf {n : Nat} {b : UInt8} (h : b ∈ digitsOf n) : isDigit b = true := by
  obtain ⟨c, hc, rfl⟩ := List.mem_map.mp h
  exact isDigit_ofNat (Nat.isDigit_of_mem_toDigits (by decide) (by decide) hc)

theorem digitsOf_ne_nil (n : Nat) : digitsOf n ≠ [] := by
  simp [digitsOf, Nat.toDigits_ne_nil]

/-- Reading the digits written gives the number back. -/
theorem digitsValue_digitsOf (n : Nat) : digitsValue (digitsOf n) = n := by
  have hfold : ∀ (cs : List Char) (m : Nat), (∀ c ∈ cs, c.isDigit = true) →
      (cs.map fun c => UInt8.ofNat c.toNat).foldl (fun n d => 10 * n + (d.toNat - 48)) m =
        Nat.ofDigitChars 10 cs m := by
    intro cs
    induction cs with
    | nil => intro m _; rw [Nat.ofDigitChars_nil]; rfl
    | cons c cs ih =>
      intro m h
      rw [List.map_cons, List.foldl_cons, toNat_ofNat_digit (h c List.mem_cons_self),
        ih _ (fun c' hc' => h c' (List.mem_cons_of_mem c hc')), Nat.ofDigitChars_cons]
      rfl
  rw [digitsValue, digitsOf,
    hfold _ 0 fun c hc => Nat.isDigit_of_mem_toDigits (by decide) (by decide) hc,
    Nat.ofDigitChars_ten_toDigits]

theorem not_isSpace_of_isDigit {b : UInt8} (h : isDigit b = true) : isSpace b = false := by
  simp only [isDigit, isSpace, Bool.and_eq_true, decide_eq_true_eq, Bool.or_eq_false_iff,
    beq_eq_false_iff_ne, Bool.and_eq_false_iff, decide_eq_false_iff_not,
    UInt8.le_iff_toNat_le] at h ⊢
  refine ⟨?_, Or.inr ?_⟩
  · rintro rfl
    exact absurd h.1 (by decide)
  · have h48 : 48 ≤ b.toNat := h.1
    show ¬ b.toNat ≤ 13
    omega

theorem takeSign_digitsOf (n : Nat) : takeSign (digitsOf n) = (false, digitsOf n) := by
  cases hd : digitsOf n with
  | nil => rfl
  | cons b s =>
    have hb : isDigit b = true := isDigit_of_mem_digitsOf (hd ▸ List.mem_cons_self)
    have h45 : b ≠ 45 := by rintro rfl; cases hb
    have h43 : b ≠ 43 := by rintro rfl; cases hb
    simp only [takeSign, h45, h43, if_false]

theorem dropWhile_isSpace_digitsOf (n : Nat) : (digitsOf n).dropWhile isSpace = digitsOf n := by
  cases hd : digitsOf n with
  | nil => rfl
  | cons b s =>
    have hb : isDigit b = true := isDigit_of_mem_digitsOf (hd ▸ List.mem_cons_self)
    rw [List.dropWhile_cons_of_neg]
    simp [not_isSpace_of_isDigit hb]

theorem stoll_toDecimal {n : Int} (hlo : -2 ^ 63 ≤ n) (hhi : n < 2 ^ 63) :
    stoll (toDecimal n) = some n := by
  have htake : (digitsOf n.natAbs).takeWhile isDigit = digitsOf n.natAbs :=
    List.takeWhile_eq_self_iff.mpr fun b hb => isDigit_of_mem_digitsOf hb
  rw [toDecimal]
  split
  · next hneg =>
    have hval : -((n.natAbs : Nat) : Int) = n := by omega
    show stoll (45 :: digitsOf n.natAbs) = some n
    have hdrop : (45 :: digitsOf n.natAbs).dropWhile isSpace = 45 :: digitsOf n.natAbs := rfl
    simp only [stoll, hdrop, takeSign, if_true, htake, digitsOf_ne_nil, if_false,
      digitsValue_digitsOf, hval, hlo, hhi, and_self]
  · next hpos =>
    have hval : ((n.natAbs : Nat) : Int) = n := by omega
    simp only [stoll, dropWhile_isSpace_digitsOf, takeSign_digitsOf, htake, digitsOf_ne_nil,
      if_false, digitsValue_digitsOf, hval, hlo, hhi, and_self, if_true, Bool.false_eq_true]

theorem mem_toDecimal {n : Int} {b : UInt8} (h : b ∈ toDecimal n) : b = 45 ∨ isDigit b = true := by
  rw [toDecimal] at h
  split at h
  · rcases List.mem_append.mp h with h | h
    · exact Or.inl (List.mem_singleton.mp h)
    · exact Or.inr (isDigit_of_mem_digitsOf h)
  · exact Or.inr (isDigit_of_mem_digitsOf h)

end RemoteControl
