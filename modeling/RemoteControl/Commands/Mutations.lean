import RemoteControl.Commands.MainThread

/-!
# The commands that change playlists and the queue

AddFiles, AddURLToPlaylist, PlaylistRename, PlaylistRemove, EnqueueTrack,
RemoveTrackFromPlayQueue and RemoveTrack. Each checks its parameters, runs its task on
the main thread and classifies the task's `HRESULT`.
-/

namespace RemoteControl

variable {ι : Type}

/-! ## The tasks -/

/-- `AddFilesToPlaylist`. -/
def addFilesToPlaylist (playlistId : PluginId) (fileUris : List Bytes) : Task ι HRESULT :=
  fun core idManager =>
    match findPlaylist core idManager playlistId with
    | none => (eInvalidArg, [])
    | some playlist =>
      if core.createObjectList then
        let list := fileUris.filter fun uri => core.createString uri && core.objectListAdd uri
        let hr := playlist.addList list
        (hr, [⟨.addList playlist.id list, hr⟩])
      else (eFail, [])

def renameTask (playlistId : PluginId) (newName : Bytes) : Task ι HRESULT :=
  fun core idManager =>
    match findPlaylist core idManager playlistId with
    | none => (eInvalidArg, [])
    | some playlist =>
      if playlist.hasProperties ∧ core.createString newName then
        let hr := playlist.setName newName
        (hr, [⟨.setName playlist.id newName, hr⟩])
      else (eFail, [])

def removePlaylistTask (playlistId : PluginId) : Task ι HRESULT :=
  fun core idManager =>
    match findPlaylist core idManager playlistId with
    | none => (eInvalidArg, [])
    | some playlist => (playlist.close, [⟨.close playlist.id, playlist.close⟩])

def enqueueTask (trackId : PluginId) (atBeginning : Bool) : Task ι HRESULT :=
  fun core idManager =>
    match findPlaylistItem core idManager trackId with
    | none => (eInvalidArg, [])
    | some (item, _) =>
      match core.playlistQueue with
      | none => (eFail, [])
      | some queue =>
        let hr := queue.add item atBeginning
        (hr, [⟨.enqueue item atBeginning, hr⟩])

def dequeueTask (trackId : PluginId) : Task ι HRESULT :=
  fun core idManager =>
    match findPlaylistItem core idManager trackId with
    | none => (eInvalidArg, [])
    | some (item, _) =>
      match core.playlistQueue with
      | none => (eFail, [])
      | some queue =>
        let hr := queue.delete item
        (hr, [⟨.dequeue item, hr⟩])

/-- An index that cannot be read is left at -1. -/
def readIndex (core : Core ι) (item : ι) : Int := (core.itemIndex item).getD (-1)

/-- The callback reads the index of every item anew. -/
def deleteOnlyIndex (core : Core ι) (index : Int) (item : ι) : Bool :=
  (core.callbackIndex item).getD (-1) = index

def removeTrackTask (trackId : PluginId) (physically : Bool) : Task ι HRESULT :=
  fun core idManager =>
    match findPlaylistItem core idManager trackId with
    | none => (eInvalidArg, [])
    | some (item, playlist) =>
      if physically then
        let index := readIndex core item
        let hr := playlist.delete3 (deleteOnlyIndex core index)
        (hr, [⟨.delete3 playlist.id index, hr⟩])
      else
        let hr := playlist.delete item
        (hr, [⟨.delete playlist.id item, hr⟩])

/-! ## The commands -/

def invalidParams (message : String) : Failure := .rpcError (-32602) (ascii message)

def rpcError (code : Int) (message : String) : Failure := .rpcError code (ascii message)

def refuse (failure : Failure) : Outcome ι := { reply := .rpc (.error failure) }

/-- `{{"success", true}}`. -/
def success : Json := .obj [(ascii "success", .bool true)]

/-- How every one of the commands ends. -/
def finish (notFound operationFailed : Failure) (result : Json) (moment : Moment ι)
    (task : Task ι HRESULT) : Outcome ι :=
  let done := runOnMainThread 0 moment task
  { reply := .rpc <|
      if done.value = eInvalidArg then .error notFound
      else if failed done.value then .error operationFailed
      else .ok result
    ran := done.ran
    calls := done.calls }

def addFiles (moment : Moment ι) (params : Json) : Outcome ι :=
  match params.int32 (ascii "playlist_id") with
  | none => refuse (invalidParams "playlist_id is required")
  | some playlistId =>
    match params.array (ascii "files") with
    | none => refuse (invalidParams "files is required")
    | some files =>
      match Json.strings files with
      | none => refuse .typeError
      | some files =>
        finish (rpcError 20 "Adding files failed. Reason: playlist not found.")
          (rpcError 27 "Adding files failed.") success moment (addFilesToPlaylist playlistId files)

def addURLToPlaylist (moment : Moment ι) (params : Json) : Outcome ι :=
  match params.int32 (ascii "playlist_id") with
  | none => refuse (invalidParams "playlist_id is required")
  | some playlistId =>
    match params.string (ascii "url") with
    | none => refuse (invalidParams "url is required")
    | some url =>
      finish (rpcError 20 "Adding URL failed. Reason: playlist not found.")
        (rpcError 27 "Adding URL failed.") .null moment (addFilesToPlaylist playlistId [url])

def playlistRename (moment : Moment ι) (params : Json) : Outcome ι :=
  match params.int32 (ascii "playlist_id") with
  | none => refuse (invalidParams "playlist_id is required")
  | some playlistId =>
    match params.string (ascii "new_name") with
    | none => refuse (invalidParams "new_name is required")
    | some newName =>
      finish (rpcError 20 "Renaming playlist failed. Reason: playlist not found.")
        (rpcError 29 "Renaming playlist failed.") success moment (renameTask playlistId newName)

def playlistRemove (moment : Moment ι) (params : Json) : Outcome ι :=
  match params.int32 (ascii "playlist_id") with
  | none => refuse (invalidParams "playlist_id is required")
  | some playlistId =>
    finish (rpcError 20 "Removing playlist failed. Reason: playlist not found.")
      (rpcError 31 "Removing playlist failed.") success moment (removePlaylistTask playlistId)

def enqueueTrack (moment : Moment ι) (params : Json) : Outcome ι :=
  match params.int32 (ascii "track_id") with
  | none => refuse (invalidParams "track_id is required")
  | some trackId =>
    match params.boolValue (ascii "insert_at_queue_beginning") false with
    | none => refuse .typeError
    | some atBeginning =>
      finish (rpcError 21 "Enqueue track failed. Reason: track not found.")
        (rpcError 18 "Enqueue track failed.") .null moment (enqueueTask trackId atBeginning)

def removeTrackFromPlayQueue (moment : Moment ι) (params : Json) : Outcome ι :=
  match params.int32 (ascii "track_id") with
  | none => refuse (invalidParams "track_id is required")
  | some trackId =>
    finish (rpcError 21 "Removing track from queue failed. Reason: track not found.")
      (rpcError 19 "Removing track from queue failed.") .null moment (dequeueTask trackId)

def removeTrack (physicalDeletion : Bool) (moment : Moment ι) (params : Json) : Outcome ι :=
  match params.int32 (ascii "track_id") with
  | none => refuse (invalidParams "track_id is required")
  | some trackId =>
    match params.boolValue (ascii "physically") false with
    | none => refuse .typeError
    | some physically =>
      if physically ∧ physicalDeletion = false then
        refuse (rpcError 28
          "Removing track failed. Reason: physical deletion is disabled in the plugin settings.")
      else
        finish (rpcError 21 "Removing track failed. Reason: track not found.")
          (rpcError 28 "Removing track failed.") success moment
          (removeTrackTask trackId physically)

end RemoteControl
