import Mathlib.Logic.Function.Basic

/-!
# A disk that several programs write to

Paths name inodes and inodes hold contents, as on POSIX: a program that has a file open
writes to its inode, whatever has become of the path.

`Extends d₀ d`: the files of `d₀` are as they were, and a file made since has one path.
Opening a free path, writing to a new inode and moving a new file to a free path keep it,
and leave every other new file alone (`Holds.create`, `Holds.write`, `Holds.move`).
-/

structure Disk (κ β : Type) where
  inode : κ → Option Nat
  content : Nat → List β
  /-- The inodes from here on are not in use. -/
  next : Nat
  directory : κ → Bool
  inode_lt : ∀ path i, inode path = some i → i < next

namespace Disk

variable {κ β : Type} {d₀ d e : Disk κ β} {path target source : κ} {bytes former : List β}
  {i : Nat}

/-! ## Reading and writing -/

def read (d : Disk κ β) (path : κ) : Option (List β) := (d.inode path).map d.content

/-- Write at the start of an open file. -/
def write (d : Disk κ β) (i : Nat) (bytes : List β) : Disk κ β :=
  { d with content := Function.update d.content i (bytes ++ (d.content i).drop bytes.length) }

theorem write_content {j : Nat} : (d.write i bytes).content j =
    if j = i then bytes ++ (d.content i).drop bytes.length else d.content j :=
  Function.update_apply ..

/-! ## Files made since -/

/-- The files of `d₀` are untouched in `d`, and every later file has one path. -/
structure Extends (d₀ d : Disk κ β) : Prop where
  next_le : d₀.next ≤ d.next
  kept : ∀ path i, d₀.inode path = some i → d.inode path = some i
  content : ∀ i < d₀.next, d.content i = d₀.content i
  unshared : ∀ path path' i, d₀.next ≤ i → d.inode path = some i → d.inode path' = some i →
    path = path'

/-- The path names a file made since `d₀`, with this inode and content. -/
structure Holds (d₀ d : Disk κ β) (path : κ) (i : Nat) (bytes : List β) : Prop where
  inode : d.inode path = some i
  later : d₀.next ≤ i
  content : d.content i = bytes

theorem Extends.refl : Extends d₀ d₀ where
  next_le := Nat.le_refl _
  kept _ _ hi := hi
  content _ _ := rfl
  unshared path _ i hlater hi _ := absurd (d₀.inode_lt path i hi) (Nat.not_lt.mpr hlater)

theorem Extends.read_kept (h : Extends d₀ d) (hread : d₀.read path = some bytes) :
    d.read path = some bytes := by
  obtain ⟨i, hi, rfl⟩ := Option.map_eq_some_iff.mp hread
  rw [read, h.kept path i hi, Option.map_some, h.content i (d₀.inode_lt path i hi)]

theorem Holds.read (h : Holds d₀ d path i bytes) : d.read path = some bytes := by
  rw [Disk.read, h.inode, Option.map_some, h.content]

theorem ne_of_free (h : d.inode path = some i) (hfree : d.inode target = none) : path ≠ target := by
  rintro rfl
  rw [h] at hfree
  cases hfree

/-! ### Writing to a new file -/

theorem Extends.write (h : Extends d₀ d) (hlater : d₀.next ≤ i) (bytes : List β) :
    Extends d₀ (d.write i bytes) where
  next_le := h.next_le
  kept := h.kept
  content j hj := by
    rw [write_content, if_neg (Nat.ne_of_lt (Nat.lt_of_lt_of_le hj hlater))]
    exact h.content j hj
  unshared := h.unshared

theorem Holds.written (h : Holds d₀ d path i []) (bytes : List β) :
    Holds d₀ (d.write i bytes) path i bytes := by
  refine ⟨h.inode, h.later, ?_⟩
  rw [write_content, if_pos rfl, h.content, List.drop_nil, List.append_nil]

/-- Another path is another inode. -/
theorem Holds.write {j : Nat} (hpath : Holds d₀ d path j bytes) (h : Extends d₀ d)
    (htarget : Holds d₀ d target i former) (hne : path ≠ target) (more : List β) :
    Holds d₀ (d.write i more) path j bytes := by
  have hij : j ≠ i := by
    rintro rfl
    exact hne (h.unshared path target j hpath.later hpath.inode htarget.inode)
  refine ⟨hpath.inode, hpath.later, ?_⟩
  rw [write_content, if_neg hij]
  exact hpath.content

/-! ## Operations on paths -/

variable [DecidableEq κ]

def create (d : Disk κ β) (target : κ) : Disk κ β where
  inode := Function.update d.inode target (some d.next)
  content := Function.update d.content d.next []
  next := d.next + 1
  directory := d.directory
  inode_lt path i hi := by
    rw [Function.update_apply] at hi
    split at hi
    · cases hi
      exact Nat.lt_succ_self _
    · exact Nat.lt_succ_of_lt (d.inode_lt path i hi)

/-- Open for writing with truncation; a file that does not exist is created. -/
def openTruncate (d : Disk κ β) (target : κ) : Disk κ β × Nat :=
  match d.inode target with
  | some i => ({ d with content := Function.update d.content i [] }, i)
  | none => (d.create target, d.next)

def move (d : Disk κ β) (source target : κ) (i : Nat) (hsource : d.inode source = some i) :
    Disk κ β where
  inode := Function.update (Function.update d.inode source none) target (some i)
  content := d.content
  next := d.next
  directory := d.directory
  inode_lt path j hj := by
    simp only [Function.update_apply] at hj
    split at hj
    · cases hj
      exact d.inode_lt source i hsource
    · split at hj
      · cases hj
      · exact d.inode_lt path j hj

/-- `rename`: it replaces a file that is there, fails on a directory, and does nothing
between two names of one file. -/
def rename (d : Disk κ β) (source target : κ) : Option (Disk κ β) :=
  match hsource : d.inode source with
  | none => none
  | some i =>
    if d.directory target then none
    else if d.inode target = some i then some d
    else some (d.move source target i hsource)

def makeDirectory (d : Disk κ β) (path : κ) : Disk κ β :=
  { d with directory := Function.update d.directory path true }

theorem create_inode : (d.create target).inode path =
    if path = target then some d.next else d.inode path := Function.update_apply ..

theorem create_content : (d.create target).content i = if i = d.next then [] else d.content i :=
  Function.update_apply ..

theorem move_inode {hsource : d.inode source = some i} :
    (d.move source target i hsource).inode path =
    if path = target then some i else if path = source then none else d.inode path := by
  simp only [move, Function.update_apply]

theorem openTruncate_of_free (hfree : d.inode target = none) :
    d.openTruncate target = (d.create target, d.next) := by
  rw [openTruncate, hfree]

theorem rename_of_free (hsource : d.inode source = some i) (hfree : d.inode target = none)
    (h : d.rename source target = some e) : e = d.move source target i hsource := by
  unfold rename at h
  split at h
  · cases h
  · next j hj =>
    cases hsource.symm.trans hj
    rw [hfree] at h
    split at h
    · cases h
    · rw [if_neg (by simp)] at h
      exact (Option.some.inj h).symm

/-! ### Opening a free path -/

theorem Extends.create (h : Extends d₀ d) (hfree : d.inode target = none) :
    Extends d₀ (d.create target) := by
  -- a path of the new disk is the target with the new inode, or as it was
  have hinode : ∀ path i, (d.create target).inode path = some i →
      path = target ∧ i = d.next ∨ d.inode path = some i := fun path i hi => by
    rw [create_inode] at hi
    split at hi
    · next hpath => exact .inl ⟨hpath, (Option.some.inj hi).symm⟩
    · exact .inr hi
  refine ⟨Nat.le_succ_of_le h.next_le, fun path i hi => ?_, fun i hi => ?_,
    fun path path' i hlater hi hi' => ?_⟩
  · rw [create_inode, if_neg (ne_of_free (h.kept path i hi) hfree)]
    exact h.kept path i hi
  · rw [create_content, if_neg (Nat.ne_of_lt (Nat.lt_of_lt_of_le hi h.next_le))]
    exact h.content i hi
  · rcases hinode path i hi with ⟨rfl, hnew⟩ | hold
    · rcases hinode path' i hi' with ⟨rfl, -⟩ | hold'
      · rfl
      · exact absurd (d.inode_lt path' i hold') (by omega)
    · rcases hinode path' i hi' with ⟨rfl, hnew⟩ | hold'
      · exact absurd (d.inode_lt path i hold) (by omega)
      · exact h.unshared path path' i hlater hold hold'

theorem Extends.holds_created (h : Extends d₀ d) :
    Holds d₀ (d.create target) target d.next [] := by
  refine ⟨?_, h.next_le, ?_⟩
  · rw [create_inode, if_pos rfl]
  · rw [create_content, if_pos rfl]

theorem Holds.create (hpath : Holds d₀ d path i bytes)
    (hfree : d.inode target = none) : Holds d₀ (d.create target) path i bytes := by
  refine ⟨?_, hpath.later, ?_⟩
  · rw [create_inode, if_neg (ne_of_free hpath.inode hfree)]
    exact hpath.inode
  · rw [create_content, if_neg (Nat.ne_of_lt (d.inode_lt path i hpath.inode))]
    exact hpath.content

/-! ### Moving a new file to a free path -/

theorem Extends.move (h : Extends d₀ d) (hsource : Holds d₀ d source i bytes)
    (hfree : d.inode target = none) : Extends d₀ (d.move source target i hsource.inode) := by
  -- a path of the new disk is the target, or another path than the source
  have hinode : ∀ path j, (d.move source target i hsource.inode).inode path = some j →
      path = target ∧ j = i ∨ path ≠ source ∧ d.inode path = some j := fun path j hj => by
    rw [move_inode] at hj
    split at hj
    · next hpath => exact .inl ⟨hpath, (Option.some.inj hj).symm⟩
    · split at hj
      · cases hj
      · next hpath => exact .inr ⟨hpath, hj⟩
  refine ⟨h.next_le, fun path j hj => ?_, h.content, fun path path' j hlater hj hj' => ?_⟩
  · have hkept := h.kept path j hj
    have hpath : path ≠ source := by
      rintro rfl
      rw [hsource.inode, Option.some.injEq] at hkept
      exact absurd (d₀.inode_lt path j hj) (Nat.not_lt.mpr (hkept ▸ hsource.later))
    rw [move_inode, if_neg (ne_of_free hkept hfree), if_neg hpath]
    exact hkept
  · rcases hinode path j hj with ⟨rfl, rfl⟩ | ⟨hne, hold⟩
    · rcases hinode path' j hj' with ⟨rfl, -⟩ | ⟨hne', hold'⟩
      · rfl
      · exact absurd (h.unshared path' source j hlater hold' hsource.inode) hne'
    · rcases hinode path' j hj' with ⟨rfl, rfl⟩ | ⟨hne', hold'⟩
      · exact absurd (h.unshared path source j hlater hold hsource.inode) hne
      · exact h.unshared path path' j hlater hold hold'

theorem Holds.moved (hsource : Holds d₀ d source i bytes) :
    Holds d₀ (d.move source target i hsource.inode) target i bytes := by
  refine ⟨?_, hsource.later, hsource.content⟩
  rw [move_inode, if_pos rfl]

theorem Holds.move {j : Nat} (hpath : Holds d₀ d path j bytes)
    (hsource : d.inode source = some i) (hne : path ≠ source) (hfree : d.inode target = none) :
    Holds d₀ (d.move source target i hsource) path j bytes := by
  refine ⟨?_, hpath.later, hpath.content⟩
  rw [move_inode, if_neg (ne_of_free hpath.inode hfree), if_neg hne]
  exact hpath.inode

end Disk
