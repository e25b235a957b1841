import RemoteControl.Aimp.Find
import RemoteControl.Helpers.PlaylistEntryJson
import RemoteControl.IdManager.Session

/-!
# GetPlaylistEntries and GetQueuedEntries

Both listings are a list of entry contexts, shown row by row in the requested
fields.
-/

namespace RemoteControl

variable {ι : Type}

/-! ## GetPlaylistEntries -/

/-- The loop of `CollectEntries`: every readable item gets an id, whether or not it
is listed. -/
def collectItems (core : Core ι) (searchString : Option Bytes) (playlistAIMPId : Bytes)
    (id : PluginId) : Int → List (Option ι) → IdM (List (PlaylistEntryContext ι))
  | _, [] => pure []
  | i, none :: items => collectItems core searchString playlistAIMPId id (i + 1) items
  | i, some item :: items => do
    let entryId ← trackId playlistAIMPId i
    let ctx := PlaylistEntryContext.of core item entryId id
    let found ← collectItems core searchString playlistAIMPId id (i + 1) items
    pure (if searchString.all (playlistEntryMatches core ctx) then ctx :: found else found)

/-- `CollectEntries`: the item count and the listed entries. -/
def collectEntries (core : Core ι) (searchString : Option Bytes) (playlist : Playlist ι) :
    IdM (Int × List (PlaylistEntryContext ι)) := do
  let playlistAIMPId := getPlaylistAIMPId (some playlist)
  let id ← playlistId playlistAIMPId
  let found ← collectItems core searchString playlistAIMPId id 0 playlist.items
  pure (playlist.items.length, found)

/-- `CollectEntries` on one playlist after another. -/
def collectAll (core : Core ι) (searchString : Option Bytes) :
    List (Playlist ι) → IdM (Int × List (PlaylistEntryContext ι))
  | [] => pure (0, [])
  | playlist :: playlists => do
    let one ← collectEntries core searchString playlist
    let rest ← collectAll core searchString playlists
    pure (one.1 + rest.1, one.2 ++ rest.2)

structure EntriesReply (ι : Type) where
  countOfFoundEntries : Int
  found : List (PlaylistEntryContext ι)
  totalEntriesCount : Option Int := none

/-- The `entries` of the reply. -/
def EntriesReply.entries (core : Core ι) (fields : List Bytes) (reply : EntriesReply ι) :
    List (List Json) :=
  reply.found.map (entryRow core fields)

/-- The playlists a request lists: the one it names, else all that are loaded. -/
def playlistsToList (core : Core ι) (idManager : RemoteControlIdManager) :
    Option PluginId → List (Playlist ι)
  | some playlistId =>
    if core.playlistManager.isSome then (findPlaylist core idManager playlistId).toList else []
  | none => core.playlists

/-- `GetPlaylistEntriesCommand`. -/
def getPlaylistEntries (core : Core ι) (search : Bytes) (byPlaylist : Option PluginId) :
    IdM (EntriesReply ι) := do
  let searchString := if search ≠ [] ∧ core.createString search then some search else none
  let session ← get
  let (total, found) ←
    collectAll core searchString (playlistsToList core session.manager byPlaylist)
  pure {
    countOfFoundEntries := found.length
    found := found
    totalEntriesCount := byPlaylist.map fun _ => total }

/-! ## GetQueuedEntries -/

/-- Playlist id and index of an item as its own properties tell them; this is how the
queue and the control panel name an item. -/
def locate (core : Core ι) (item : ι) : PlaylistItemKey where
  aimpPlaylistId := getPlaylistAIMPId (core.itemPlaylist item)
  index := (core.itemIndex item).getD 0

/-- The loop of `GetQueuedEntriesCommand`. -/
def collectQueued (core : Core ι) :
    Int → List (Option ι) → IdM (List (PlaylistEntryContext ι))
  | _, [] => pure []
  | i, none :: items => collectQueued core (i + 1) items
  | i, some item :: items => do
    let key := locate core item
    let entryId ← trackId key.aimpPlaylistId key.index
    let id ← playlistId key.aimpPlaylistId
    let found ← collectQueued core (i + 1) items
    pure (PlaylistEntryContext.of core item entryId id i :: found)

/-- `GetQueuedEntriesCommand`; the count is the queue's. -/
def getQueuedEntries (core : Core ι) : IdM (EntriesReply ι) :=
  match core.playlistQueue with
  | none => pure { countOfFoundEntries := 0, found := [] }
  | some queue => do
    let found ← collectQueued core 0 queue.items
    pure { countOfFoundEntries := queue.items.length, found := found }

end RemoteControl
