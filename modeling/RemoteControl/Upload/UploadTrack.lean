import RemoteControl.Commands.Mutations
import RemoteControl.Settings.Config
import RemoteControl.Upload.UniqueTarget

/-!
# UploadTrack

The upload endpoint on Linux. What the player and the file system do in the course of
one request is given by an `UploadWorld`; nobody else uses the folder meanwhile.
-/

namespace RemoteControl

variable {ι : Type}

/-- What the handler reads of one part of the form. -/
structure HttpUploadedFile where
  name : Bytes
  fileName : Bytes
  content : Bytes

/-- What becomes of one `WriteFile`; a write can fail half way. -/
inductive WriteOutcome
  | notOpened
  | failed (written : Bytes)
  /-- The stream takes all of it, and loses the rest when it is closed. -/
  | lost (written : Bytes)
  | written

/-- What `WriteFile` answers: it asks the stream before the stream is closed. -/
def WriteOutcome.good : WriteOutcome → Bool
  | notOpened | failed _ => false
  | lost _ | written => true

structure UploadWorld (ι : Type) where
  /-- At the task that looks for the playlist. -/
  check : Moment ι
  /-- At the task that reads the tags of a part. -/
  restore : Nat → Moment ι
  /-- At the task that adds the files. -/
  add : Moment ι
  fileSystem : FileSystem
  foldersCreated : Bool
  writes : Nat → WriteOutcome
  renames : Nat → Bool

def sanitizeFileName (utf8 : Bytes) : Bytes :=
  utf8.map fun c => if c = Path.slash ∨ c = 0 then 95 else c

def clientFileName (fileName : Bytes) : Bytes :=
  let name := Path.filename (sanitizeFileName fileName)
  if FileSystem.isFolderName name then ascii "track" else name

/-- What is in the file afterwards, if it was opened. -/
def WriteOutcome.leaves (content : Bytes) : WriteOutcome → Option Bytes
  | notOpened => none
  | failed bytes | lost bytes => some bytes
  | written => some content

theorem WriteOutcome.leaves_of_good {outcome : WriteOutcome} (h : outcome.good = true)
    (content : Bytes) : ∃ bytes, outcome.leaves content = some bytes := by
  cases outcome with
  | notOpened | failed _ => cases h
  | lost bytes => exact ⟨bytes, rfl⟩
  | written => exact ⟨content, rfl⟩

/-- The file system after `WriteFile` and its answer. -/
def writeFile (outcome : WriteOutcome) (fs : FileSystem) (target content : Bytes) :
    FileSystem × Bool :=
  ((outcome.leaves content).elim fs (fs.write target), outcome.good)

def tagBasedName (core : Core ι) (file : Bytes) : Bytes :=
  let info := match core.fileInfoService with
    | none => none
    | some service => if core.createString file then service file else none
  let artist := (info.bind FileInfo.artist).getD []
  let title := (info.bind FileInfo.title).getD []
  if title = [] then []
  else sanitizeFileName (if artist = [] then title else artist ++ ascii " - " ++ title)

/-- `RestoreName`; `renamed` is whether the rename succeeds. -/
def restoreName (moment : Moment ι) (renamed : Bool) (fs : FileSystem) (folder saved : Bytes) :
    FileSystem × Bytes :=
  let tagName := (runOnMainThread [] moment fun core _ => (tagBasedName core saved, [])).value
  if tagName = [] then (fs, saved)
  else
    let target := uniqueTarget fs folder (tagName ++ Path.extension saved)
    if renamed then (fs.rename saved target, target) else (fs, saved)

/-- The loop over the parts, from part `i` on: `none` is the status 500. -/
def saveParts (world : UploadWorld ι) (folder : Bytes) (i : Nat) (fs : FileSystem) :
    List HttpUploadedFile → FileSystem × Option (List Bytes)
  | [] => (fs, some [])
  | file :: files =>
    let clientName := if file.fileName = [] then file.name else file.fileName
    let target := uniqueTarget fs folder (clientFileName clientName)
    let (fs, good) := writeFile (world.writes i) fs target file.content
    if good then
      let (fs, target) :=
        if 63 ∈ clientName then restoreName (world.restore i) (world.renames i) fs folder target
        else (fs, target)
      let (fs, saved) := saveParts world folder (i + 1) fs files
      (fs, saved.map (target :: ·))
    else (fs, none)

def playlistExists (playlistId : PluginId) : Task ι Bool :=
  fun core idManager => ((findPlaylist core idManager playlistId).isSome, [])

def refuseUpload (status : Int) : Outcome ι := { reply := .http status }

/-- The task that adds the saved files, and the status it leads to. -/
def addUploaded (moment : Moment ι) (playlistId : PluginId) (saved : List Bytes) : Outcome ι :=
  let done := runOnMainThread 0 moment (addFilesToPlaylist playlistId saved)
  { reply := .http <|
      if done.value = eInvalidArg then 404 else if failed done.value then 500 else 200
    ran := done.ran
    calls := done.calls }

/-- The end of the handler, after the loop over the parts. -/
def finishUpload (moment : Moment ι) (playlistId : PluginId) :
    FileSystem × Option (List Bytes) → FileSystem × Outcome ι
  | (fs, none) => (fs, refuseUpload 500)
  | (fs, some saved) => (fs, addUploaded moment playlistId saved)

/-- The upload handler. `std::stol` throws for a number that does not fit in a `long`,
which the HTTP library answers with 500. -/
def uploadTrack (features : FeatureSettings) (platform : Platform) (groups : List Bytes)
    (files : List HttpUploadedFile) (world : UploadWorld ι) : FileSystem × Outcome ι :=
  if features.uploadTracks = false then (world.fileSystem, refuseUpload 403)
  else
    match groups with
    | [] => (world.fileSystem, refuseUpload 400)
    | number :: _ =>
      if files = [] then (world.fileSystem, refuseUpload 400)
      else
        match stoll number with
        | none => (world.fileSystem, refuseUpload 500)
        | some n =>
          let playlistId := BitVec.ofInt 32 n
          if (runOnMainThread false world.check (playlistExists playlistId)).value then
            let folder := features.effectiveUploadFolder platform
            let fs :=
              if world.foldersCreated then world.fileSystem.createDirectories folder
              else world.fileSystem
            finishUpload world.add playlistId (saveParts world folder 0 fs files)
          else (world.fileSystem, refuseUpload 404)

end RemoteControl
