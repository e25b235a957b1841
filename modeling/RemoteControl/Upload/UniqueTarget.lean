import Mathlib.Data.Finset.Card
import RemoteControl.Lib.Probing
import RemoteControl.Upload.Path

/-!
# UniqueTarget

The loop of `UniqueTarget`: the name itself, then `<stem> (2)<extension>` and so on.
`uniqueTarget_free`: it ends, and what it ends with does not exist.
-/

namespace RemoteControl

variable {fs : FileSystem} {folder name : Bytes}

/-- The `n`-th name to be tried, from 1 on. -/
def numbered (name : Bytes) (n : Nat) : Bytes :=
  if n < 2 then name
  else Path.stem name ++ ascii " (" ++ digitsOf n ++ ascii ")" ++ Path.extension name

def candidate (folder name : Bytes) (n : Nat) : Bytes := Path.append folder (numbered name n)

/-- As many turns as there are names that could be taken, and two more. -/
def uniqueNumber (fs : FileSystem) (folder name : Bytes) : Option Nat :=
  Probing.probe (· + 1) (fun n => fs.exists (candidate folder name n))
    (fs.entries.length + 2) 1

def uniqueTarget (fs : FileSystem) (folder name : Bytes) : Bytes :=
  candidate folder name ((uniqueNumber fs folder name).getD 1)

/-! ## The loop ends -/

theorem digitsOf_injective : Function.Injective digitsOf := fun m n h => by
  rw [← digitsValue_digitsOf m, h, digitsValue_digitsOf]

theorem numbered_of_two_le {n : Nat} (hn : 2 ≤ n) : numbered name n =
    Path.stem name ++ ascii " (" ++ digitsOf n ++ ascii ")" ++ Path.extension name :=
  if_neg (Nat.not_lt.mpr hn)

theorem slash_notMem_numbered (name : Bytes) {n : Nat} (hn : 2 ≤ n) :
    Path.slash ∉ numbered name n := by
  rw [numbered_of_two_le hn]
  simp only [List.mem_append, not_or]
  refine ⟨⟨⟨⟨Path.slash_notMem_stem name, by decide⟩, fun h => ?_⟩, by decide⟩,
    Path.slash_notMem_extension name⟩
  exact absurd (isDigit_of_mem_digitsOf h) (by decide)

theorem numbered_inj {m n : Nat} (hm : 2 ≤ m) (hn : 2 ≤ n)
    (h : numbered name m = numbered name n) : m = n := by
  rw [numbered_of_two_le hm, numbered_of_two_le hn] at h
  have h := List.append_cancel_right (List.append_cancel_right h)
  exact digitsOf_injective (List.append_cancel_left h)

theorem isFolderName_numbered {n : Nat} (hn : 2 ≤ n) :
    FileSystem.isFolderName (numbered name n) = false := by
  have hparen : 40 ∈ numbered name n := by
    rw [numbered_of_two_le hn]
    simp [ascii]
  cases hfolder : FileSystem.isFolderName (numbered name n) with
  | false => rfl
  | true =>
    simp only [FileSystem.isFolderName, decide_eq_true_eq] at hfolder
    rcases hfolder with h | h | h <;> rw [h] at hparen <;> revert hparen <;> decide

/-- Of more names than there are entries, one is free. -/
theorem exists_free (fs : FileSystem) (folder name : Bytes) :
    ∃ i ≤ fs.entries.length, fs.exists (candidate folder name (i + 2)) = false := by
  by_contra hall
  push Not at hall
  have hcard : fs.entries.toFinset.card < (Finset.range (fs.entries.length + 1)).card := by
    rw [Finset.card_range]
    exact Nat.lt_succ_of_le (List.toFinset_card_le _)
  have hmaps : ∀ i ∈ Finset.range (fs.entries.length + 1),
      candidate folder name (i + 2) ∈ fs.entries.toFinset := by
    intro i hi
    have htaken := hall i (Nat.lt_succ_iff.mp (Finset.mem_range.mp hi))
    have hslash := slash_notMem_numbered name (Nat.le_add_left 2 i)
    refine List.mem_toFinset.mpr (FileSystem.mem_entries_of_exists ?_ (by simpa using htaken))
    rw [candidate, Path.filename_append hslash, isFolderName_numbered (by omega)]
  obtain ⟨i, -, j, -, hne, heq⟩ := Finset.exists_ne_map_eq_of_card_lt_of_maps_to hcard hmaps
  rw [candidate, candidate, Path.append_eq (slash_notMem_numbered name (by omega)),
    Path.append_eq (slash_notMem_numbered name (by omega))] at heq
  have := numbered_inj (by omega) (by omega) (List.append_cancel_left heq)
  omega

theorem iterate_succ (k n : Nat) : (· + 1)^[k] n = n + k := by
  induction k with
  | zero => rfl
  | succ k ih => rw [Function.iterate_succ_apply', ih]; rfl

theorem uniqueNumber_isSome (fs : FileSystem) (folder name : Bytes) :
    ∃ n, uniqueNumber fs folder name = some n := by
  obtain ⟨i, hi, hfree⟩ := exists_free fs folder name
  refine Probing.probe_isSome (k := i + 1) (by omega) ?_
  rw [iterate_succ, show 1 + (i + 1) = i + 2 by omega]
  exact hfree

theorem uniqueTarget_free (fs : FileSystem) (folder name : Bytes) :
    fs.exists (uniqueTarget fs folder name) = false := by
  obtain ⟨n, hn⟩ := uniqueNumber_isSome fs folder name
  have hfree := (Probing.probe_firstFree hn).notMem
  rw [uniqueTarget, hn]
  simpa using hfree

end RemoteControl
