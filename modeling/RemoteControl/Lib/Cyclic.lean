import Mathlib.Logic.ExistsUnique

/-!
# Positions around a cycle

`position n a` is where the walk from 0 is after `a` steps around a cycle of `n` places.
`tmod_add_tmod` computes it with the remainder that truncates, which is negative for
negative numbers. `existsUnique_position`: one round passes every place once.
-/

namespace Cyclic

variable {n : Nat} {a b : Int} {k : Nat}

/-- The second remainder takes the negative ones of the first into range. -/
theorem tmod_add_tmod {m : Int} (hm : 0 < m) (a : Int) : (a.tmod m + m).tmod m = a % m := by
  have hlow : 0 ≤ a.tmod m + m := by
    have hlt := Int.lt_tmod_of_pos a hm
    omega
  rw [Int.tmod_eq_emod_of_nonneg hlow, Int.add_emod_right, Int.tmod_def,
    Int.sub_mul_emod_self_left]

def position (n : Nat) (a : Int) : Nat := (a % n).toNat

theorem position_cast (hn : 0 < n) : ((position n a : Nat) : Int) = a % n :=
  Int.toNat_of_nonneg (Int.emod_nonneg a (by omega))

theorem position_lt (hn : 0 < n) : position n a < n := by
  have hlt := Int.emod_lt_of_pos a (show (0 : Int) < n by omega)
  have hcast := position_cast (a := a) hn
  omega

theorem position_of_lt (hk : k < n) : position n k = k := by
  rw [position, Int.emod_eq_of_lt (by omega) (by omega), Int.toNat_natCast]

/-- A walk goes on from where it is. -/
theorem position_position_add (hn : 0 < n) :
    position n (position n a + b) = position n (a + b) := by
  rw [position, position_cast hn, Int.emod_add_emod, position]

theorem position_round : position n (a + n) = position n a := by
  rw [position, Int.add_emod_right, position]

theorem existsUnique_position {j : Nat} (hj : j < n) (a : Int) :
    ∃! i : Nat, i < n ∧ position n (a + i) = j := by
  have hn : 0 < n := by omega
  refine ⟨position n (j + -a), ⟨position_lt hn, ?_⟩, ?_⟩
  · calc position n (a + position n (j + -a)) = position n (j + -a + a) := by
          rw [Int.add_comm, position_position_add hn]
      _ = j := by rw [Int.neg_add_cancel_right, position_of_lt hj]
  · rintro i ⟨hi, hij⟩
    calc i = position n (a + i + -a) := by
          rw [Int.add_comm a, Int.add_neg_cancel_right, position_of_lt hi]
      _ = position n (j + -a) := by rw [← position_position_add hn, hij]

end Cyclic
