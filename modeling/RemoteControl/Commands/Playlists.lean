import RemoteControl.Aimp.Core
import RemoteControl.IdManager.Session

/-!
# GetPlaylists and CreatePlaylist
-/

namespace RemoteControl

variable {ι : Type}

/-- `ComputePlaylistCrc32`: over the readable, non-empty file names. -/
def computePlaylistCrc32 (playlist : Playlist ι) : BitVec 32 :=
  match playlist.files with
  | none => 0
  | some files =>
    files.foldl (fun crc name =>
      match name with
      | some (c :: utf8) => crc32Update crc (c :: utf8)
      | _ => crc) 0

/-- One playlist of the reply; a key that is `none` is absent. -/
structure PlaylistJson where
  id : Option PluginId := none
  title : Option Bytes := none
  readonly : Option Bool := none
  entriesCount : Option Int := none
  crc32 : Option Int := none

/-- The `id` of one playlist, generated only when it is asked for. -/
def idField (fields : List Bytes) (playlist : Playlist ι) : IdM (Option PluginId) :=
  if ascii "id" ∈ fields then do
    let id ← playlistId playlist.id
    pure (some id)
  else pure none

/-- `BuildPlaylistJson`. -/
def buildPlaylistJson (fields : List Bytes) (playlist : Playlist ι) : IdM PlaylistJson :=
  if playlist.hasProperties = false then pure {}
  else do
    let id ← idField fields playlist
    pure {
      id := id
      title := if ascii "title" ∈ fields then some playlist.name else none
      readonly :=
        if ascii "readonly" ∈ fields then some (playlist.readonly.getD 0 ≠ 0) else none
      entriesCount :=
        if ascii "entries_count" ∈ fields then some playlist.items.length else none
      crc32 :=
        if ascii "crc32" ∈ fields then some (computePlaylistCrc32 playlist).toNat else none }

/-- The loop of `BuildPlaylists`; each object of the reply with its playlist. -/
def buildEach (fields : List Bytes) :
    List (Playlist ι) → IdM (List (Playlist ι × PlaylistJson))
  | [] => pure []
  | playlist :: playlists => do
    let json ← buildPlaylistJson fields playlist
    let rest ← buildEach fields playlists
    pure ((playlist, json) :: rest)

/-- `GetPlaylistsCommand::BuildPlaylists`. -/
def buildPlaylists (core : Core ι) (fields : List Bytes) :
    IdM (List (Playlist ι × PlaylistJson)) :=
  buildEach fields core.playlists

def errorPlaylistCreationFailed : Int := 30

/-- The main-thread body of `CreatePlaylistCommand`: the new playlist, if any. -/
def createPlaylistBody (core : Core ι) (title : Bytes) : Option (Playlist ι) :=
  match core.playlistManager with
  | none => none
  | some mgr => mgr.createPlaylist (if title ≠ [] ∧ core.createString title then title else [])

/-- `CreatePlaylistCommand`: the id is generated once the playlist exists. -/
def createPlaylist (core : Core ι) (title : Bytes) : IdM (Except Int PluginId) :=
  let aimpId := getPlaylistAIMPId (createPlaylistBody core title)
  if aimpId = [] then pure (.error errorPlaylistCreationFailed)
  else do
    let id ← playlistId aimpId
    pure (.ok id)

end RemoteControl
