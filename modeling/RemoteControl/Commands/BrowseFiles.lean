import RemoteControl.Commands.Mutations
import RemoteControl.Http.Message
import RemoteControl.Lib.Sorting
import RemoteControl.Settings.Config
import RemoteControl.Upload.Path

/-!
# GetFormats and BrowseFiles

`SupportedAudioExtensions` of aimpHelper.cpp, and the commands that answer it and the
contents of a folder. The build is a parameter, as the two have their own hidden files.
-/

namespace RemoteControl

open Sorting

variable {ι : Type}

/-! ## SupportedAudioExtensions -/

/-- The extension that a mask stands for: one leading `*.` goes, letters become small. -/
def extensionOfMask (mask : Bytes) : Bytes :=
  (if (ascii "*.").isPrefixOf mask then mask.drop 2 else mask).map toLower

/-- The loop over the masks, between semicolons, from `start` on. -/
def maskLoop (masks : Bytes) (start : Nat) : List Bytes :=
  if start < masks.length then
    let rest := masks.drop start
    let length := (findByte 59 rest).getD rest.length
    let extension := extensionOfMask (rest.take length)
    let extensions := maskLoop masks (start + length + 1)
    if extension ≠ [] then extension :: extensions else extensions
  else []
termination_by masks.length - start

/-- `formats` is what `GetFormats(AUDIO)` of the file formats service gives. -/
def supportedAudioExtensions (formats : Option Bytes) : List Bytes :=
  maskLoop (formats.getD []) 0

def extensionsTask (formats : Option Bytes) : Task ι (List Bytes) :=
  fun _ _ => (supportedAudioExtensions formats, [])

/-- `GetFormatsCommand`. -/
def getFormats (formats : Option Bytes) (moment : Moment ι) : Outcome ι :=
  let done := runOnMainThread [] moment (extensionsTask formats)
  { reply := .rpc (.ok (.obj [(ascii "formats", .arr (done.value.map .str))]))
    ran := done.ran
    calls := done.calls }

/-! ## Folders -/

inductive Build
  | windows
  | linux
deriving DecidableEq

/-- `std::filesystem::directory_entry`; the name is in UTF-8 on Windows, where names with
unpaired surrogates, which UTF-8 has not, are left out. -/
structure DirectoryEntry where
  name : Bytes
  /-- `is_directory(ec)`. -/
  isDirectory : Bool
  /-- `GetFileAttributesW`. -/
  attributes : Option (BitVec 32) := none
deriving DecidableEq

/-- A byte string that an entry of a folder can have as its name. -/
def IsEntryName (name : Bytes) : Prop :=
  name ≠ [] ∧ Path.slash ∉ name ∧ 0 ∉ name ∧ name ≠ [Path.dot] ∧ name ≠ [Path.dot, Path.dot]

/-- What `directory_iterator` goes through. -/
structure Directory where
  entries : List DirectoryEntry
  nodup : (entries.map DirectoryEntry.name).Nodup
  named : ∀ entry ∈ entries, IsEntryName entry.name

/-- What the listing asks of the system. -/
structure BrowsedSystem where
  build : Build
  /-- `none` is an error of `directory_iterator`. -/
  directory : Bytes → Option Directory
  /-- The drives with their labels. -/
  drives : List (Bytes × Bytes) := []
  sorter : Sorter Bytes

def lessIgnoreCase : Bytes → Bytes → Bool :=
  lexicographicalCompare fun x y => toLower x < toLower y

/-- `IsHiddenOrSystemFile`: the attributes `HIDDEN` or `SYSTEM`, or a leading dot. -/
def isHiddenOrSystemFile (build : Build) (entry : DirectoryEntry) : Bool :=
  match build with
  | .windows =>
    match entry.attributes with
    | none => false
    | some attributes => attributes &&& 6 ≠ 0
  | .linux => entry.name.head? = some Path.dot

def hasExtensionFrom (name : Bytes) (extensions : List Bytes) : Bool :=
  match Path.extension name with
  | [] => false
  | _ :: extension => extension.map toLower ∈ extensions

/-- The loop of `Listing`: the files and the folders. -/
def collectNames (build : Build) (extensions : List Bytes) :
    List DirectoryEntry → List Bytes × List Bytes
  | [] => ([], [])
  | entry :: entries =>
    let (files, folders) := collectNames build extensions entries
    if entry.isDirectory then (files, entry.name :: folders)
    else if !isHiddenOrSystemFile build entry && hasExtensionFrom entry.name extensions then
      (entry.name :: files, folders)
    else (files, folders)

def listing (system : BrowsedSystem) (path : Bytes) (extensions : List Bytes) :
    Except Failure Json :=
  match system.directory path with
  | none => .error (rpcError 33 "Path inaccessible")
  | some directory =>
    let (files, folders) := collectNames system.build extensions directory.entries
    .ok (.obj [
      (ascii "files", .arr ((system.sorter.sort lessIgnoreCase files).map .str)),
      (ascii "folders", .arr ((system.sorter.sort lessIgnoreCase folders).map .str))])

def roots (system : BrowsedSystem) : Json :=
  let drives :=
    match system.build with
    | .windows => system.drives
    | .linux => [([], ascii "/")]
  .obj [(ascii "labels", .arr (drives.map fun drive => .str drive.1)),
    (ascii "paths", .arr (drives.map fun drive => .str drive.2))]

/-- `BrowseFilesCommand`. -/
def browseFiles (system : BrowsedSystem) (features : FeatureSettings) (formats : Option Bytes)
    (moment : Moment ι) (params : Json) : Outcome ι :=
  if features.browseFiles = false then
    refuse (rpcError 33
      "Path inaccessible. Reason: file browsing is disabled in the plugin settings.")
  else
    match params.stringValue (ascii "path") with
    | none => refuse .typeError
    | some [] => { reply := .rpc (.ok (roots system)) }
    | some (c :: path) =>
      let done := runOnMainThread [] moment (extensionsTask formats)
      { reply := .rpc (listing system (c :: path) done.value)
        ran := done.ran
        calls := done.calls }

end RemoteControl
