import RemoteControl.Lib.Transition
import Mathlib.Data.Multiset.AddSub

/-!
# A count taken down without a lock

Each of several threads holds a reference to an object. To give it back a thread reads the
counter and then writes one less; the thread that writes zero deletes the object. Nothing
keeps two threads from reading before either of them writes.

* `Inv.there`, `Inv.deletions_le_one`: no thread finds the object deleted, and no two delete it.
* `Inv.deleted_iff`: in the end it is deleted exactly if no two threads overlapped.
-/

namespace UnlockedCount

open Transition

structure Count where
  counter : Nat
  /-- The threads that have not begun to give their reference back. -/
  holding : Nat
  /-- What the threads have read that are still to write. -/
  read : Multiset Nat
  /-- Whether a thread has read while another was still to write. -/
  overlapped : Bool
  deletions : Nat

/-- An object with its first reference. -/
def Count.first : Count := ⟨1, 1, 0, false, 0⟩

inductive Action
  /-- The one thread that has the object gives another a reference. -/
  | share
  | load
  | store (n : Nat)

namespace Count

/-- How many threads still need the object. -/
def users (s : Count) : Nat := s.holding + s.read.card

def share (s : Count) : Count := { s with counter := s.counter + 1, holding := s.holding + 1 }

def load (s : Count) : Count :=
  { s with
    holding := s.holding - 1
    read := s.counter ::ₘ s.read
    overlapped := s.overlapped || decide (0 < s.read.card) }

def store (s : Count) (n : Nat) : Count :=
  { s with
    counter := n - 1
    read := s.read.erase n
    deletions := s.deletions + if n - 1 = 0 then 1 else 0 }

def step (s : Count) : Action → Option Count
  | .share => if 0 < s.holding ∧ s.read.card = 0 then some s.share else none
  | .load => if 0 < s.holding then some s.load else none
  | .store n => if n ∈ s.read then some (s.store n) else none

/-- Once two threads have overlapped, what is going to be written last is too much. -/
def TooMany (s : Count) : Prop :=
  2 ≤ s.read.card ∨ (s.read.card = 1 ∧ ∀ n ∈ s.read, s.holding + 2 ≤ n) ∨
    (s.read.card = 0 ∧ s.holding + 1 ≤ s.counter)

/-- The counter and what was read of it never say less than there are threads, and say just
that as long as no two have overlapped. -/
structure Inv (s : Count) : Prop where
  counter : s.users ≤ s.counter
  read : ∀ n ∈ s.read, s.users ≤ n
  exact_counter : s.overlapped = false → s.counter = s.users
  exact_read : s.overlapped = false → s.read.card ≤ 1 ∧ ∀ n ∈ s.read, n = s.users
  too_many : s.overlapped = true → s.TooMany
  deletions : s.deletions = if s.users = 0 ∧ s.overlapped = false then 1 else 0

variable {s t : Count} {n : Nat}

theorem Inv.first : Inv .first where
  counter := Nat.le_refl 1
  read n h := absurd h (Multiset.notMem_zero n)
  exact_counter _ := rfl
  exact_read _ := ⟨Nat.zero_le 1, fun n h => absurd h (Multiset.notMem_zero n)⟩
  too_many h := nomatch h
  deletions := rfl

theorem users_share : s.share.users = s.users + 1 := by
  simp only [users, share]
  omega

theorem users_load (h : 0 < s.holding) : s.load.users = s.users := by
  simp only [users, load, Multiset.card_cons]
  omega

theorem users_store (h : n ∈ s.read) : (s.store n).users + 1 = s.users := by
  have hcard := Multiset.card_erase_add_one h
  simp only [users, store]
  omega

theorem Inv.share (h : s.Inv) (hholding : 0 < s.holding) (hread : s.read.card = 0) :
    s.share.Inv := by
  have hempty : s.read = 0 := Multiset.card_eq_zero.mp hread
  have hnone : ∀ n, n ∉ s.read := by
    intro n hn
    rw [hempty] at hn
    exact Multiset.notMem_zero n hn
  have hcounter := h.counter
  refine ⟨?_, fun n hn => absurd hn (hnone n), fun hov => ?_, fun _ => ⟨?_, fun n hn =>
    absurd hn (hnone n)⟩, fun hov => .inr (.inr ⟨hread, ?_⟩), ?_⟩
  · rw [users_share]
    exact Nat.succ_le_succ hcounter
  · rw [users_share]
    exact congrArg (· + 1) (h.exact_counter hov)
  · show s.read.card ≤ 1
    omega
  · rcases h.too_many hov with hmany | ⟨hone, -⟩ | ⟨-, hmore⟩
    · omega
    · omega
    · exact Nat.succ_le_succ hmore
  · have hdeletions := h.deletions
    rw [if_neg (by unfold users; omega)] at hdeletions
    rw [if_neg (by rw [users_share]; omega)]
    exact hdeletions

theorem Inv.load (h : s.Inv) (hholding : 0 < s.holding) : s.load.Inv := by
  have husers := users_load hholding
  have hcard : s.load.read.card = s.read.card + 1 := Multiset.card_cons _ _
  have hnotbefore (hov : s.load.overlapped = false) :
      s.overlapped = false ∧ s.read.card = 0 := by
    obtain ⟨hov, hread⟩ := Bool.or_eq_false_iff.mp hov
    exact ⟨hov, Nat.eq_zero_of_not_pos (of_decide_eq_false hread)⟩
  refine ⟨?_, fun n hn => ?_, fun hov => ?_, fun hov => ?_, fun hov => ?_, ?_⟩
  · rw [husers]
    exact h.counter
  · rw [husers]
    rcases Multiset.mem_cons.mp hn with rfl | hn
    · exact h.counter
    · exact h.read n hn
  · rw [husers]
    exact h.exact_counter (hnotbefore hov).1
  · obtain ⟨hov, hread⟩ := hnotbefore hov
    refine ⟨by omega, fun n hn => ?_⟩
    rw [husers]
    rcases Multiset.mem_cons.mp hn with rfl | hn
    · exact h.exact_counter hov
    · exact (h.exact_read hov).2 n hn
  · rcases Nat.eq_zero_or_pos s.read.card with hread | hread
    · -- Nobody else is about to write, so the overlap was before.
      have hbefore : s.overlapped = true := by
        rcases Bool.or_eq_true_iff.mp hov with hbefore | hnow
        · exact hbefore
        · exact absurd (of_decide_eq_true hnow) (by omega)
      rcases h.too_many hbefore with hmany | ⟨hone, -⟩ | ⟨-, hmore⟩
      · omega
      · omega
      · refine .inr (.inl ⟨by omega, fun n hn => ?_⟩)
        show s.holding - 1 + 2 ≤ n
        rcases Multiset.mem_cons.mp hn with rfl | hn
        · omega
        · rw [Multiset.card_eq_zero.mp hread] at hn
          exact absurd hn (Multiset.notMem_zero n)
    · exact .inl (by omega)
  · have hdeletions := h.deletions
    rw [if_neg (by unfold users; omega)] at hdeletions
    rw [if_neg (by rw [husers]; unfold users; omega)]
    exact hdeletions

theorem Inv.store (h : s.Inv) (hn : n ∈ s.read) : (s.store n).Inv := by
  have husers := users_store hn
  have hcard : (s.store n).read.card + 1 = s.read.card := Multiset.card_erase_add_one hn
  have hread := h.read n hn
  have hsubset : ∀ m ∈ (s.store n).read, m ∈ s.read := fun m hm => Multiset.mem_of_mem_erase hm
  have hcounter : (s.store n).counter = n - 1 := rfl
  refine ⟨by omega, fun m hm => ?_, fun hov => ?_, fun hov => ?_, fun hov => ?_, ?_⟩
  · have hm := h.read m (hsubset m hm)
    omega
  · have hexact := (h.exact_read hov).2 n hn
    omega
  · obtain ⟨hone, hexact⟩ := h.exact_read hov
    refine ⟨by omega, fun m hm => ?_⟩
    have hpos : 0 < (s.store n).read.card := Multiset.card_pos_iff_exists_mem.mpr ⟨m, hm⟩
    omega
  · have hholding : (s.store n).holding = s.holding := rfl
    rcases h.too_many hov with hmany | ⟨hone, hmore⟩ | ⟨hnone, -⟩
    · rcases Nat.lt_or_ge s.read.card 3 with htwo | hthree
      · refine .inr (.inl ⟨by omega, fun m hm => ?_⟩)
        have hm := h.read m (hsubset m hm)
        unfold users at hm
        omega
      · exact .inl (by omega)
    · have hmore := hmore n hn
      exact .inr (.inr ⟨by omega, by omega⟩)
    · omega
  · have hnone : s.deletions = 0 := by
      have hdeletions := h.deletions
      rw [if_neg (by omega)] at hdeletions
      exact hdeletions
    -- Zero is written by the last thread, if none has overlapped.
    have hlast : n - 1 = 0 ↔ (s.store n).users = 0 ∧ (s.store n).overlapped = false := by
      constructor
      · intro hzero
        refine ⟨by omega, ?_⟩
        by_contra hov
        rcases h.too_many (eq_true_of_ne_false hov) with hmany | ⟨-, hmore⟩ | ⟨hread, -⟩
        · unfold users at hread
          omega
        · have hmore := hmore n hn
          omega
        · omega
      · rintro ⟨hzero, hov⟩
        have hexact := (h.exact_read hov).2 n hn
        omega
    show s.deletions + (if n - 1 = 0 then 1 else 0) = _
    rw [hnone, Nat.zero_add]
    exact if_congr hlast rfl rfl

theorem Inv.step {action : Action} (h : s.Inv) (hst : s.step action = some t) : t.Inv := by
  cases action with
  | share =>
    simp only [Count.step] at hst
    split at hst
    · next hcan =>
      cases hst
      exact h.share hcan.1 hcan.2
    · cases hst
  | load =>
    simp only [Count.step] at hst
    split at hst
    · next hcan =>
      cases hst
      exact h.load hcan
    · cases hst
  | store n =>
    simp only [Count.step] at hst
    split at hst
    · next hcan =>
      cases hst
      exact h.store hcan
    · cases hst

theorem Inv.of_reachable (h : Reachable Count.step .first s) : s.Inv := h.invariant .first Inv.step

/-- A thread that still needs the object finds it. -/
theorem Inv.there (h : s.Inv) (husers : 0 < s.users) : s.deletions = 0 := by
  rw [h.deletions, if_neg (by omega)]

theorem Inv.deletions_le_one (h : s.Inv) : s.deletions ≤ 1 := by
  rw [h.deletions]
  split
  · exact Nat.le_refl 1
  · exact Nat.zero_le 1

/-- After the last thread the object is gone, if no two have overlapped; else it is lost. -/
theorem Inv.deleted_iff (h : s.Inv) (husers : s.users = 0) :
    s.deletions = 1 ↔ s.overlapped = false := by
  rw [h.deletions]
  constructor
  · intro hone
    by_contra hov
    rw [if_neg fun hboth => hov hboth.2] at hone
    cases hone
  · intro hov
    rw [if_pos ⟨husers, hov⟩]

end Count

end UnlockedCount
