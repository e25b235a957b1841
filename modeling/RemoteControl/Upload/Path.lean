import RemoteControl.Std.Bytes

/-!
# std::filesystem on Linux

`path` as a byte string with the members the upload uses, and the files and
directories its calls see.
-/

namespace RemoteControl

namespace Path

def slash : UInt8 := 47

def dot : UInt8 := 46

/-- `operator/`. -/
def append (folder name : Bytes) : Bytes :=
  if name.head? = some slash then name
  else if folder = [] ∨ folder.getLast? = some slash then folder ++ name
  else folder ++ slash :: name

/-- What follows the last slash. -/
def filename (path : Bytes) : Bytes := (path.reverse.takeWhile (· != slash)).reverse

/-- Where the extension of a file name starts: at its last dot, unless the name begins
with it or is `..`. -/
def extensionStart (name : Bytes) : Option Nat :=
  let afterDot := (name.reverse.takeWhile (· != dot)).length
  if name = [dot, dot] ∨ name.length - afterDot ≤ 1 then none
  else some (name.length - afterDot - 1)

def stem (path : Bytes) : Bytes :=
  match extensionStart (filename path) with
  | none => filename path
  | some i => (filename path).take i

def extension (path : Bytes) : Bytes :=
  match extensionStart (filename path) with
  | none => []
  | some i => (filename path).drop i

example : (stem (ascii "a/b.tar.gz"), extension (ascii "a/b.tar.gz")) =
    (ascii "b.tar", ascii ".gz") := by decide

/-! ## Components hold no slash -/

theorem slash_notMem_filename (path : Bytes) : slash ∉ filename path := by
  intro h
  have := List.mem_takeWhile_imp (List.mem_reverse.mp h)
  simp at this

theorem slash_notMem_stem (path : Bytes) : slash ∉ stem path := by
  intro h
  unfold stem at h
  split at h
  · exact slash_notMem_filename path h
  · exact slash_notMem_filename path (List.mem_of_mem_take h)

theorem slash_notMem_extension (path : Bytes) : slash ∉ extension path := by
  intro h
  unfold extension at h
  split at h
  · cases h
  · exact slash_notMem_filename path (List.mem_of_mem_drop h)

/-! ## Below a folder -/

variable {folder name : Bytes}

/-- What `operator/` puts in front of a name. -/
def base (folder : Bytes) : Bytes :=
  if folder = [] ∨ folder.getLast? = some slash then folder else folder ++ [slash]

theorem append_eq (h : slash ∉ name) : append folder name = base folder ++ name := by
  have hhead : name.head? ≠ some slash := fun heq => h (List.mem_of_mem_head? heq)
  rw [append, if_neg hhead, base]
  split
  · rfl
  · simp

theorem base_eq (folder : Bytes) : base folder = [] ∨ ∃ above, base folder = above ++ [slash] := by
  unfold base
  split
  · next h =>
    rcases h with h | h
    · exact Or.inl h
    · exact Or.inr ⟨_, (List.dropLast_append_getLast? _ h).symm⟩
  · exact Or.inr ⟨folder, rfl⟩

theorem filename_append (h : slash ∉ name) :
    filename (append folder name) = name := by
  have hname : ∀ b ∈ name.reverse, (b != slash) = true := fun b hb => by
    simp only [bne_iff_ne, ne_eq]
    rintro rfl
    exact h (List.mem_reverse.mp hb)
  rw [append_eq h, filename, List.reverse_append, List.takeWhile_append_of_pos hname]
  rcases base_eq folder with hbase | ⟨above, hbase⟩ <;> simp [hbase]

end Path

/-- The files with their contents, newest first, the directories, and the symbolic links with
the path each one holds. -/
structure FileSystem where
  files : List (Bytes × Bytes) := []
  directories : List Bytes := []
  links : List (Bytes × Bytes) := []

namespace FileSystem

/-- A name that stands for its own folder or the one above. -/
def isFolderName (name : Bytes) : Bool :=
  name = [] ∨ name = [Path.dot] ∨ name = [Path.dot, Path.dot]

/-- What is there, links aside. -/
def objects (fs : FileSystem) : List Bytes := fs.files.map Prod.fst ++ fs.directories

/-- The names that are taken. -/
def entries (fs : FileSystem) : List Bytes := fs.objects ++ fs.links.map Prod.fst

/-- Where a path leads after so many links. -/
def follow (fs : FileSystem) : Nat → Bytes → Bytes
  | 0, path => path
  | fuel + 1, path =>
    if path ∈ fs.objects then path
    else
      match fs.links.find? (·.1 == path) with
      | none => path
      | some (_, target) => fs.follow fuel target

/-- The file a path stands for, or would be. Linux follows 40 links; a longer chain is not
opened, and a check of it fails. -/
def place (fs : FileSystem) (path : Bytes) : Bytes := fs.follow 41 path

/-- `std::filesystem::exists`, in a folder that exists. -/
def «exists» (fs : FileSystem) (path : Bytes) : Bool :=
  isFolderName (Path.filename path) || fs.place path ∈ fs.objects

/-- `create_directories`, where it succeeds. -/
def createDirectories (fs : FileSystem) (folder : Bytes) : FileSystem :=
  { fs with directories := folder :: fs.directories }

/-- Open with `trunc` and write, through the links. -/
def write (fs : FileSystem) (path content : Bytes) : FileSystem :=
  let place := fs.place path
  { fs with files := (place, content) :: fs.files.filter (·.1 != place) }

/-- `rename`: a file moves, or a link; what has the new name is replaced. -/
def rename (fs : FileSystem) (source target : Bytes) : FileSystem :=
  match fs.files.find? (·.1 == source) with
  | some (_, content) =>
    { fs with
      files := (target, content) :: fs.files.filter fun f => f.1 != source && f.1 != target
      links := fs.links.filter (·.1 != target) }
  | none =>
    match fs.links.find? (·.1 == source) with
    | none => fs
    | some (_, path) =>
      { fs with
        files := fs.files.filter (·.1 != target)
        links := (target, path) :: fs.links.filter fun l => l.1 != source && l.1 != target }

/-! ## Through the links -/

variable {fs fs' : FileSystem} {path : Bytes}

theorem follow_of_mem {fuel : Nat} (h : path ∈ fs.objects) : fs.follow fuel path = path := by
  cases fuel with
  | zero => rfl
  | succ fuel => rw [follow, if_pos h]

theorem follow_of_not_link {fuel : Nat} (h : path ∉ fs.links.map Prod.fst) :
    fs.follow fuel path = path := by
  cases fuel with
  | zero => rfl
  | succ fuel =>
    have hnone : fs.links.find? (·.1 == path) = none := by
      refine List.find?_eq_none.mpr fun l hl heq => h ?_
      exact List.mem_map.mpr ⟨l, hl, eq_of_beq heq⟩
    rw [follow, hnone]
    exact ite_self path

theorem place_of_not_link (h : path ∉ fs.links.map Prod.fst) : fs.place path = path :=
  follow_of_not_link h

/-- What leads to an object still does when there are more objects. -/
theorem follow_mem_objects (hlinks : fs'.links = fs.links) (hobjects : fs.objects ⊆ fs'.objects)
    {fuel : Nat} (h : fs.follow fuel path ∈ fs.objects) :
    fs'.follow fuel path ∈ fs'.objects := by
  induction fuel generalizing path with
  | zero => exact hobjects h
  | succ fuel ih =>
    rw [follow, hlinks]
    split
    · assumption
    · next hnew =>
      rw [follow, if_neg fun hold => hnew (hobjects hold)] at h
      split at h
      · exact absurd (hobjects h) hnew
      · exact ih h

theorem exists_mono (hlinks : fs'.links = fs.links) (hobjects : fs.objects ⊆ fs'.objects)
    (h : fs.exists path = true) : fs'.exists path = true := by
  rw [FileSystem.exists, Bool.or_eq_true, decide_eq_true_eq] at h ⊢
  exact h.imp_right (follow_mem_objects hlinks hobjects)

theorem exists_of_mem_objects (h : path ∈ fs.objects) : fs.exists path = true := by
  rw [FileSystem.exists, Bool.or_eq_true, decide_eq_true_eq, place, follow_of_mem h]
  exact .inr h

/-- Only a name that is taken leads anywhere. -/
theorem mem_entries_of_exists (hname : isFolderName (Path.filename path) = false)
    (h : fs.exists path = true) : path ∈ fs.entries := by
  rw [FileSystem.exists, hname, Bool.false_or, decide_eq_true_eq] at h
  by_cases hlink : path ∈ fs.links.map Prod.fst
  · exact List.mem_append_right _ hlink
  · rw [place_of_not_link hlink] at h
    exact List.mem_append_left _ h

theorem not_exists_iff : fs.exists path = false ↔
    isFolderName (Path.filename path) = false ∧ fs.place path ∉ fs.objects := by
  rw [FileSystem.exists, Bool.or_eq_false_iff, decide_eq_false_iff_not]

end FileSystem

end RemoteControl
