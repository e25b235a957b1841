import Mathlib

/-!
# Objects that count their references

An object's counter goes up with `AddRef` and down with `Release`, and with the last
reference the object deletes itself. `Counts` says that the counters are right for a
multiset of holders; it is kept as long as no object has as many holders as its counter has
values, and then an object is there exactly as long as someone holds it.
-/

namespace RefCounts

variable {w : Nat} {ε α β : Type}

/-- A program that gets by without an error, with what then holds. -/
def Succeeds (r : Except ε α) (post : α → Prop) : Prop := ∃ a, r = .ok a ∧ post a

namespace Succeeds

variable {r : Except ε α} {post : α → Prop}

theorem pure {a : α} (h : post a) : Succeeds (ε := ε) (Pure.pure a) post := ⟨a, rfl, h⟩

theorem weaken {post' : α → Prop} (h : Succeeds r post) (himp : ∀ a, post a → post' a) :
    Succeeds r post' := by
  obtain ⟨a, hr, ha⟩ := h
  exact ⟨a, hr, himp a ha⟩

theorem bind {k : α → Except ε β} {after : β → Prop} (h : Succeeds r post)
    (hk : ∀ a, post a → Succeeds (k a) after) : Succeeds (r >>= k) after := by
  obtain ⟨a, rfl, ha⟩ := h
  exact hk a ha

end Succeeds

/-- The counters of the objects made so far; `none` of one that has deleted itself. -/
structure Heap (w : Nat) where
  counters : List (Option (BitVec w)) := []

namespace Heap

variable (heap : Heap w) (o : Nat)

def counter : Option (BitVec w) := heap.counters[o]?.join

def set (n : Option (BitVec w)) : Heap w := ⟨heap.counters.set o n⟩

/-- A new object, with the reference of its maker. -/
def make : Nat × Heap w := (heap.counters.length, ⟨heap.counters ++ [some (0 + 1)]⟩)

/-- A call of a method; an error names an object that is not there. -/
def use : Except Nat (BitVec w) :=
  match heap.counter o with
  | some n => .ok n
  | none => .error o

def addRef : Except Nat (Heap w) := do
  let n ← heap.use o
  pure (heap.set o (some (n + 1)))

def release : Except Nat (Heap w) := do
  let n ← heap.use o
  pure (heap.set o (if n - 1 = 0 then none else some (n - 1)))

def releaseAll : List Nat → Heap w → Except Nat (Heap w)
  | [], heap => pure heap
  | o :: objects, heap => do
    let heap ← heap.release o
    releaseAll objects heap

variable {heap} {o}

theorem counter_set {n : Option (BitVec w)} (h : heap.counter o ≠ none) (other : Nat) :
    (heap.set o n).counter other = if other = o then n else heap.counter other := by
  have hlt : o < heap.counters.length := by
    by_contra hge
    rw [counter, List.getElem?_eq_none (Nat.le_of_not_lt hge)] at h
    exact h rfl
  unfold set counter
  simp only [List.getElem?_set, hlt, if_true]
  split
  · next heq =>
    subst heq
    rw [if_pos rfl]
    rfl
  · next hne => rw [if_neg (Ne.symm hne)]

theorem counter_make (other : Nat) :
    heap.make.2.counter other = if other = heap.make.1 then some 1 else heap.counter other := by
  unfold make counter
  rcases Nat.lt_trichotomy other heap.counters.length with hlt | rfl | hgt
  · rw [List.getElem?_append_left hlt, if_neg (Nat.ne_of_lt hlt)]
  · rw [List.getElem?_concat_length, if_pos rfl]
    simp
  · rw [if_neg (Nat.ne_of_gt hgt), List.getElem?_eq_none (Nat.le_of_lt hgt), List.getElem?_eq_none]
    rw [List.length_append]
    exact hgt

end Heap

/-! ## Counting right -/

/-- The counter of an object with these holders. -/
def counterOf (holders : Multiset Nat) (o : Nat) : Option (BitVec w) :=
  if o ∈ holders then some (BitVec.ofNat w (holders.count o)) else none

/-- An object is there when it has holders, and its counter says how many. -/
def Counts (heap : Heap w) (holders : Multiset Nat) : Prop :=
  ∀ o, heap.counter o = counterOf holders o

theorem counterOf_of_mem {holders : Multiset Nat} {o : Nat} (h : o ∈ holders) :
    counterOf holders o = some (BitVec.ofNat w (holders.count o)) := if_pos h

theorem counterOf_cons_self (o : Nat) (holders : Multiset Nat) :
    counterOf (o ::ₘ holders) o = some (BitVec.ofNat w (holders.count o + 1)) := by
  rw [counterOf_of_mem (Multiset.mem_cons_self _ _), Multiset.count_cons_self]

theorem counterOf_cons_of_ne {o other : Nat} (h : other ≠ o) (holders : Multiset Nat) :
    counterOf (w := w) (o ::ₘ holders) other = counterOf holders other := by
  simp only [counterOf, Multiset.mem_cons, or_iff_right h, Multiset.count_cons_of_ne h]

namespace Counts

variable {heap : Heap w} {holders more : Multiset Nat} {o : Nat}

theorem empty : Counts ({} : Heap w) 0 := fun _ => rfl

theorem counter_of_mem (h : Counts heap holders) (ho : o ∈ holders) :
    heap.counter o = some (BitVec.ofNat w (holders.count o)) := (h o).trans (counterOf_of_mem ho)

/-- An object is there exactly as long as someone holds it. -/
theorem alive_iff (h : Counts heap holders) : (heap.counter o).isSome = true ↔ o ∈ holders := by
  rw [h o, counterOf]
  split
  · next ho => exact ⟨fun _ => ho, fun _ => rfl⟩
  · next ho => exact ⟨nofun, fun hmem => absurd hmem ho⟩

theorem use (h : Counts heap holders) (ho : o ∈ holders) :
    heap.use o = .ok (BitVec.ofNat w (holders.count o)) := by
  unfold Heap.use
  rw [h.counter_of_mem ho]

theorem used (h : Counts heap holders) (ho : o ∈ holders) :
    Succeeds (heap.use o) fun _ => True := ⟨_, h.use ho, True.intro⟩

theorem make (h : Counts heap holders) : Counts heap.make.2 (heap.make.1 ::ₘ holders) := by
  have hfresh : heap.make.1 ∉ holders := by
    intro hmem
    have hcounter := h.counter_of_mem hmem
    unfold Heap.make Heap.counter at hcounter
    rw [List.getElem?_eq_none (Nat.le_refl _)] at hcounter
    cases hcounter
  intro other
  rw [Heap.counter_make]
  split
  · next heq =>
    rw [heq, counterOf_cons_self, Multiset.count_eq_zero_of_notMem hfresh]
    rfl
  · next hne => rw [h other, counterOf_cons_of_ne hne]

theorem addRef (h : Counts heap holders) (ho : o ∈ holders) :
    Succeeds (heap.addRef o) fun heap' => Counts heap' (o ::ₘ holders) := by
  have hcounter := h.counter_of_mem ho
  refine ⟨heap.set o (some (BitVec.ofNat w (holders.count o) + 1)), ?_, fun other => ?_⟩
  · unfold Heap.addRef
    rw [h.use ho]
    rfl
  · rw [Heap.counter_set (hcounter ▸ Option.some_ne_none _)]
    split
    · next heq =>
      rw [heq, counterOf_cons_self, BitVec.ofNat_add]
      rfl
    · next hne => rw [h other, counterOf_cons_of_ne hne]

theorem release (h : Counts heap (o ::ₘ holders)) (hfits : holders.count o + 1 < 2 ^ w) :
    Succeeds (heap.release o) fun heap' => Counts heap' holders := by
  have hcounter := h.counter_of_mem (Multiset.mem_cons_self o holders)
  have hminus : BitVec.ofNat w (Multiset.count o (o ::ₘ holders)) - 1 =
      BitVec.ofNat w (holders.count o) := by
    rw [Multiset.count_cons_self, BitVec.ofNat_add]
    exact BitVec.add_sub_cancel _ _
  have hzero : BitVec.ofNat w (holders.count o) = 0 ↔ o ∉ holders := by
    rw [← Multiset.count_eq_zero, ← BitVec.toNat_inj, BitVec.toNat_ofNat,
      Nat.mod_eq_of_lt (Nat.lt_of_succ_lt hfits)]
    exact Iff.rfl
  have hrelease : heap.release o = .ok (heap.set o
      (if BitVec.ofNat w (Multiset.count o (o ::ₘ holders)) - 1 = 0 then none
        else some (BitVec.ofNat w (Multiset.count o (o ::ₘ holders)) - 1))) := by
    unfold Heap.release
    rw [h.use (Multiset.mem_cons_self _ _)]
    rfl
  refine ⟨_, hrelease, fun other => ?_⟩
  rw [Heap.counter_set (hcounter ▸ Option.some_ne_none _), hminus]
  split
  · next heq =>
    rw [heq, counterOf]
    split
    · next hz => rw [if_neg (hzero.mp hz)]
    · next hz => rw [if_pos (Decidable.not_not.mp fun ho => hz (hzero.mpr ho))]
  · next hne => rw [h other, counterOf_cons_of_ne hne]

theorem releaseAll {objects : List Nat} (h : Counts heap (Multiset.ofList objects + holders))
    (hfits : (Multiset.ofList objects + holders).card < 2 ^ w) :
    Succeeds (Heap.releaseAll objects heap) fun heap' => Counts heap' holders := by
  induction objects generalizing heap with
  | nil =>
    rw [Multiset.coe_nil, Multiset.zero_add] at h
    exact Succeeds.pure h
  | cons o objects ih =>
    rw [← Multiset.cons_coe, Multiset.cons_add] at h hfits
    rw [Multiset.card_cons] at hfits
    refine Succeeds.bind (h.release ?_) fun heap' h' => ih h' (Nat.lt_of_succ_lt hfits)
    exact Nat.lt_of_le_of_lt (Nat.succ_le_succ (Multiset.count_le_card _ _)) hfits

end Counts

end RefCounts
