import RemoteControl.Std.Bytes

/-!
# The player's interfaces

What the plugin sees of AIMP through the SDK: each interface is a record of what
its methods answer, and a method that can fail answers an `Option` or an `HRESULT`.
Nothing is assumed of the answers here; `ι` is the type of playlist items, which
the plugin only holds handles to.
-/

namespace RemoteControl

/-- `HRESULT`, as the SDK's Linux headers type it. -/
abbrev HRESULT := BitVec 32

def sOk : HRESULT := 0
def eFail : HRESULT := 0x80004005
def eInvalidArg : HRESULT := 0x80070057

/-- `Failed` of apiTypes.cpp: the top bit. -/
def failed (code : HRESULT) : Bool := code &&& 0x80000000 ≠ 0

def succeeded (code : HRESULT) : Bool := code &&& 0x80000000 = 0

@[simp] theorem not_failed_iff (code : HRESULT) : failed code = false ↔ succeeded code = true := by
  simp [failed, succeeded]

/-- `IAIMPPlaylist` with its `IAIMPPlaylistProperties`. -/
structure Playlist (ι : Type) where
  /-- Whether `QueryInterface(IID_IAIMPPlaylistProperties)` succeeds. -/
  hasProperties : Bool
  /-- `AIMP_PLAYLIST_PROPID_ID`. -/
  id : Bytes
  name : Bytes
  readonly : Option Int
  focusedObject : Option ι
  playbackCursor : Option ι
  /-- `GetItem(0 .. GetItemCount() - 1)`. -/
  items : List (Option ι)
  /-- `GetFiles(0)` and the strings of the list. -/
  files : Option (List (Option Bytes))
  /-- `SetValueAsObject(AIMP_PLAYLIST_PROPID_NAME, name)`. -/
  setName : Bytes → HRESULT
  /-- `AddList(list, 0, -1)`. -/
  addList : List Bytes → HRESULT
  /-- `Close(AIMP_PLAYLIST_CLOSE_FLAGS_FORCE_REMOVE)`. -/
  close : HRESULT
  delete : ι → HRESULT
  /-- `Delete3(PHYSICALLY | NOCONFIRMATION, callback)`. -/
  delete3 : (ι → Bool) → HRESULT

/-- `IAIMPServicePlaylistManager`. -/
structure PlaylistManager (ι : Type) where
  /-- `GetLoadedPlaylist(0 .. GetLoadedPlaylistCount() - 1)`. -/
  loaded : List (Option (Playlist ι))
  getLoadedPlaylistByID : Bytes → Option (Playlist ι)
  playingPlaylist : Option (Playlist ι)
  activePlaylist : Option (Playlist ι)
  /-- `CreatePlaylist(name, false)`. -/
  createPlaylist : Bytes → Option (Playlist ι)

/-- `IAIMPPlaylistQueue`. -/
structure PlaylistQueue (ι : Type) where
  /-- `GetItem(0 .. GetItemCount() - 1)`. -/
  items : List (Option ι)
  add : ι → Bool → HRESULT
  delete : ι → HRESULT

/-- `IAIMPServicePlayer`; what a failed getter leaves untouched is `none`. -/
structure PlayerService (ι : Type) where
  /-- `GetPlaylistItem`. -/
  playlistItem : Option ι
  /-- `GetState`: stopped 0, paused 1, playing 2. -/
  state : Int
  /-- Between 0 and 1. -/
  volume : Option Rat
  mute : Option Bool
  /-- In seconds. -/
  duration : Option Rat
  position : Option Rat

/-- The properties the control panel asks the message dispatcher for. -/
inductive MessageProperty
  | repeatMode
  | shuffle
  | radioCap

/-- `IAIMPFileInfo`; a property that cannot be read is `none`. -/
structure FileInfo where
  title : Option Bytes
  artist : Option Bytes
  album : Option Bytes
  genre : Option Bytes
  date : Option Bytes
  bitrate : Option Int
  channels : Option Int
  samplerate : Option Int
  filesize : Option Int
  /-- In seconds. -/
  duration : Option Rat

/-- `IAIMPServiceFileURI`. -/
structure FileUriService where
  extractFileName : Bytes → Option Bytes
  extractFileParentDirName : Bytes → Option Bytes
  /-- `IsURL(uri) == S_OK`. -/
  isUrl : Bytes → Bool

/-- `IAIMPCore`: the services `QueryInterface` finds, object creation, and the
properties of the items. -/
structure Core (ι : Type) where
  playlistManager : Option (PlaylistManager ι)
  playlistQueue : Option (PlaylistQueue ι)
  player : Option (PlayerService ι)
  /-- Whether `StringToIAIMPString` gives an object. -/
  createString : Bytes → Bool
  /-- Whether `CreateObject(IID_IAIMPObjectList)` gives one. -/
  createObjectList : Bool
  /-- Whether `IAIMPObjectList::Add` takes the string. -/
  objectListAdd : Bytes → Bool := fun _ => true
  /-- `GetFileInfoFromFileURI` of `IAIMPServiceFileInfo`, with the object it fills. -/
  fileInfoService : Option (Bytes → Option FileInfo) := none
  fileUriService : Option FileUriService
  /-- `Send(property, AIMP_MSG_PROPVALUE_GET, &value)` of the dispatcher. -/
  messageProperty : MessageProperty → Option Bool
  /-- `IAIMPString::Find(text, .., AIMP_STRING_FIND_IGNORECASE, 0)`. -/
  find : Bytes → Bytes → Option Int
  /-- `AIMP_PLAYLISTITEM_PROPID_INDEX`. -/
  itemIndex : ι → Option Int
  /-- The same property, as it is read while `Delete3` runs. -/
  callbackIndex : ι → Option Int := itemIndex
  /-- `AIMP_PLAYLISTITEM_PROPID_PLAYLIST`. -/
  itemPlaylist : ι → Option (Playlist ι)
  itemFileInfo : ι → Option FileInfo
  itemFileName : ι → Option Bytes
  itemMark : ι → Option Rat
  itemPlayingSwitch : ι → Option Int

variable {ι : Type}

/-- The loaded playlists that can be read. -/
def PlaylistManager.playlists (mgr : PlaylistManager ι) : List (Playlist ι) :=
  mgr.loaded.filterMap fun playlist => playlist

def Core.playlists (core : Core ι) : List (Playlist ι) :=
  (core.playlistManager.map PlaylistManager.playlists).getD []

/-- `GetPlaylistAIMPId`. -/
def getPlaylistAIMPId : Option (Playlist ι) → Bytes
  | none => []
  | some playlist => if playlist.hasProperties then playlist.id else []

/-- `IAIMPPlaylist::GetItem(index)`. -/
def Playlist.getItem (playlist : Playlist ι) (index : Int) : Option ι :=
  playlist.items[index.toNat]?.join

end RemoteControl
