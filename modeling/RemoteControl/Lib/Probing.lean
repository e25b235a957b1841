import Mathlib.Logic.Function.Iterate
import Mathlib.Data.Set.Insert
import Mathlib.Data.Nat.Find
import Mathlib.Data.List.Perm.Basic

/-!
# Linear probing

A key is placed in the first free slot at or after its home slot, slots being
walked by a successor function `next` (cyclic or not). `probe` is the loop;
`FirstFree` says what it finds, with no fuel; `Places S homes T` says that
placing the homes one after another takes the occupied set from `S` to `T`.

`Places.perm`: the set of occupied slots does not depend on the order in which
the homes are placed, only which key sits in which slot does.
-/

namespace Probing

variable {α : Type*} {next : α → α} {S T : Set α} {a b r x : α}

/-! ## The loop -/

/-- Walk from `a` while the slot is taken. The fuel bounds the steps. -/
def probe (next : α → α) (taken : α → Bool) : Nat → α → Option α
  | 0, _ => none
  | fuel + 1, a => if taken a then probe next taken fuel (next a) else some a

/-- `r` is the first slot outside `S` at or after `a`. -/
def FirstFree (next : α → α) (S : Set α) (a r : α) : Prop :=
  ∃ k, next^[k] a = r ∧ r ∉ S ∧ ∀ j < k, next^[j] a ∈ S

theorem probe_firstFree {taken : α → Bool} {fuel : Nat} (h : probe next taken fuel a = some r) :
    FirstFree next {s | taken s = true} a r := by
  induction fuel generalizing a with
  | zero => cases h
  | succ fuel ih =>
    rw [probe] at h
    split at h
    · next ha =>
      obtain ⟨k, hk, hr, hj⟩ := ih h
      refine ⟨k + 1, by rw [Function.iterate_succ_apply]; exact hk, hr, fun j hlt => ?_⟩
      cases j with
      | zero => exact ha
      | succ j =>
        rw [Function.iterate_succ_apply]
        exact hj j (Nat.lt_of_succ_lt_succ hlt)
    · next ha =>
      cases h
      exact ⟨0, rfl, ha, fun j hj => absurd hj (Nat.not_lt_zero j)⟩

theorem probe_isSome {taken : α → Bool} {fuel k : Nat} (hk : k < fuel)
    (hfree : taken (next^[k] a) = false) : ∃ r, probe next taken fuel a = some r := by
  induction fuel generalizing a k with
  | zero => exact absurd hk (Nat.not_lt_zero k)
  | succ fuel ih =>
    rw [probe]
    split
    · next ha =>
      cases k with
      | zero => rw [Function.iterate_zero_apply] at hfree; rw [hfree] at ha; cases ha
      | succ k =>
        rw [Function.iterate_succ_apply] at hfree
        exact ih (Nat.lt_of_succ_lt_succ hk) hfree
    · exact ⟨a, rfl⟩

theorem probe_reaches {taken : α → Bool} {fuel : Nat} (h : probe next taken fuel a = some r) :
    ∃ k < fuel, next^[k] a = r := by
  induction fuel generalizing a with
  | zero => cases h
  | succ fuel ih =>
    rw [probe] at h
    split at h
    · obtain ⟨k, hk, hr⟩ := ih h
      exact ⟨k + 1, Nat.succ_lt_succ hk, by rw [Function.iterate_succ_apply]; exact hr⟩
    · cases h
      exact ⟨0, Nat.succ_pos fuel, rfl⟩

/-- More fuel finds the same slot. -/
theorem probe_of_le {taken : α → Bool} {fuel fuel' : Nat} (hle : fuel ≤ fuel')
    (h : probe next taken fuel a = some r) : probe next taken fuel' a = some r := by
  induction fuel generalizing a fuel' with
  | zero => cases h
  | succ fuel ih =>
    obtain ⟨fuel', rfl⟩ := Nat.exists_eq_succ_of_ne_zero (Nat.ne_of_gt (Nat.lt_of_lt_of_le
      (Nat.succ_pos fuel) hle))
    rw [probe] at h ⊢
    split at h
    · next ha =>
      rw [if_pos ha]
      exact ih (Nat.le_of_succ_le_succ hle) h
    · next ha =>
      rw [if_neg ha]
      exact h

/-! ## The first free slot -/

theorem FirstFree.notMem (h : FirstFree next S a r) : r ∉ S := by
  obtain ⟨k, -, hr, -⟩ := h
  exact hr

theorem FirstFree.self (h : a ∉ S) : FirstFree next S a a :=
  ⟨0, rfl, h, fun j hj => absurd hj (Nat.not_lt_zero j)⟩

theorem FirstFree.unique (h : FirstFree next S a r) (h' : FirstFree next S a x) : r = x := by
  obtain ⟨k, hk, hr, hj⟩ := h
  obtain ⟨k', hk', hx, hj'⟩ := h'
  rcases Nat.lt_trichotomy k k' with hlt | rfl | hlt
  · exact absurd (hk ▸ hj' k hlt) hr
  · exact hk.symm.trans hk'
  · exact absurd (hk' ▸ hj k' hlt) hx

theorem FirstFree.exists {k : Nat} (h : next^[k] a ∉ S) : ∃ r, FirstFree next S a r := by
  classical
  let p := fun k => next^[k] a ∉ S
  have hp : ∃ k, p k := ⟨k, h⟩
  exact ⟨_, Nat.find hp, rfl, Nat.find_spec hp, fun j hj => not_not.mp (Nat.find_min hp hj)⟩

/-- Filling another slot does not change the first free one. -/
theorem FirstFree.insert_of_ne (h : FirstFree next S a r) (hne : r ≠ x) :
    FirstFree next (insert x S) a r := by
  obtain ⟨k, hk, hr, hj⟩ := h
  refine ⟨k, hk, fun hm => ?_, fun j hlt => Set.mem_insert_of_mem x (hj j hlt)⟩
  rcases Set.mem_insert_iff.mp hm with rfl | hm
  · exact hne rfl
  · exact hr hm

/-- Two homes with the same first free slot have the same second free slot:
past that slot both walks are the same. -/
theorem FirstFree.next_of_same (ha : FirstFree next S a r) (hb : FirstFree next S b r)
    (h : FirstFree next (insert r S) b x) : FirstFree next (insert r S) a x := by
  obtain ⟨ka, hka, hra, hja⟩ := ha
  obtain ⟨kb, hkb, -, hjb⟩ := hb
  obtain ⟨m, hm, hx, hjm⟩ := h
  have hlt : kb < m := by
    rcases Nat.lt_or_ge kb m with hlt | hge
    · exact hlt
    · refine absurd ?_ hx
      rcases Nat.lt_or_eq_of_le hge with hlt | rfl
      · exact Set.mem_insert_of_mem r (hm ▸ hjb m hlt)
      · exact hm ▸ hkb ▸ Set.mem_insert r S
  have shift : ∀ i, next^[ka + i] a = next^[kb + i] b := by
    intro i
    rw [Nat.add_comm ka, Nat.add_comm kb, Function.iterate_add_apply, Function.iterate_add_apply,
      hka, hkb]
  obtain ⟨d, rfl⟩ := Nat.exists_eq_add_of_lt hlt
  refine ⟨ka + (d + 1), by rw [shift, ← hm, Nat.add_assoc], hx, fun j hj => ?_⟩
  rcases Nat.lt_or_ge j ka with hjlt | hjge
  · exact Set.mem_insert_of_mem r (hja j hjlt)
  · obtain ⟨i, rfl⟩ := Nat.exists_eq_add_of_le hjge
    rw [shift]
    exact hjm (kb + i) (by omega)

/-! ## Placing several keys -/

/-- Placing the homes in the order given takes the occupied set from `S` to `T`. -/
inductive Places (next : α → α) : Set α → List α → Set α → Prop
  | nil (S : Set α) : Places next S [] S
  | cons {S T : Set α} {a r : α} {homes : List α} (h : FirstFree next S a r)
      (ht : Places next (insert r S) homes T) : Places next S (a :: homes) T

theorem Places.unique {homes : List α} {T' : Set α} (h : Places next S homes T)
    (h' : Places next S homes T') : T = T' := by
  induction h with
  | nil => cases h'; rfl
  | cons hf _ ih =>
    cases h' with
    | cons hf' ht' => exact ih (hf.unique hf' ▸ ht')

theorem Places.concat {homes : List α} (h : Places next S homes T) (hf : FirstFree next T a r) :
    Places next S (homes ++ [a]) (insert r T) := by
  induction h with
  | nil => exact .cons hf (.nil _)
  | cons hf' _ ih => exact .cons hf' (ih hf)

/-- Two adjacent placements commute, as sets of occupied slots. -/
theorem Places.swap {homes : List α} (h : Places next S (a :: b :: homes) T) :
    Places next S (b :: a :: homes) T := by
  cases h with
  | @cons _ _ _ r₁ _ ha h =>
    cases h with
    | @cons _ _ _ r₂ _ hb ht =>
      have hr₂ : r₂ ∉ S := fun hm => hb.notMem (Set.mem_insert_of_mem r₁ hm)
      have hne : r₁ ≠ r₂ := fun he => hb.notMem (he ▸ Set.mem_insert r₁ S)
      obtain ⟨k, hk, -, -⟩ := id hb
      obtain ⟨r, hr⟩ : ∃ r, FirstFree next S b r := FirstFree.exists (k := k) (hk ▸ hr₂)
      by_cases hrr : r = r₁
      · -- both homes lead to `r₁`; whoever comes second gets `r₂`
        subst hrr
        exact .cons hr (.cons (ha.next_of_same hr hb) ht)
      · have he : r = r₂ := (hr.insert_of_ne hrr).unique hb
        subst he
        refine .cons hr (.cons (ha.insert_of_ne hne) ?_)
        rw [Set.insert_comm]
        exact ht

/-- **The occupied set does not depend on the order of the placements.** -/
theorem Places.perm {homes homes' : List α} (hp : homes.Perm homes') :
    ∀ {S T : Set α}, Places next S homes T → Places next S homes' T := by
  induction hp with
  | nil => exact fun h => h
  | cons a _ ih =>
    intro S T h
    cases h with
    | cons hf ht => exact .cons hf (ih ht)
  | swap a b homes => exact fun h => h.swap
  | trans _ _ ih₁ ih₂ => exact fun h => ih₂ (ih₁ h)

end Probing
