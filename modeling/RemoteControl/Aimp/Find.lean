import RemoteControl.Aimp.Core
import RemoteControl.IdManager.Basic

/-!
# From plugin ids to player objects

`FindPlaylist` and `FindPlaylistItem` of aimpHelper.cpp, and the current item of
the control panel.
-/

namespace RemoteControl

variable {ι : Type}

/-- An empty id is answered without asking the player: it is what the id manager
answers for an id it does not know. -/
def loadedPlaylistByAIMPId (core : Core ι) (aimpId : Bytes) : Option (Playlist ι) :=
  if aimpId = [] then none
  else
    match core.playlistManager with
    | none => none
    | some mgr => if core.createString aimpId then mgr.getLoadedPlaylistByID aimpId else none

def findPlaylist (core : Core ι) (idManager : RemoteControlIdManager) (playlistId : PluginId) :
    Option (Playlist ι) :=
  loadedPlaylistByAIMPId core (idManager.playlistGetKey playlistId)

/-- The item together with the playlist that owns it. -/
def findPlaylistItem (core : Core ι) (idManager : RemoteControlIdManager) (trackId : PluginId) :
    Option (ι × Playlist ι) :=
  let key := idManager.playlistItemGetKey trackId
  match loadedPlaylistByAIMPId core key.aimpPlaylistId with
  | none => none
  | some owner =>
    if key.index < 0 ∨ key.index ≥ owner.items.length then none
    else (owner.getItem key.index).map fun item => (item, owner)

/-- `CurrentItemOf`: the player's item, else the focused item, the playback cursor
or the first item of the playing or active playlist. -/
def currentItemOf (core : Core ι) (player : PlayerService ι) : Option ι :=
  match player.playlistItem with
  | some item => some item
  | none =>
    match core.playlistManager with
    | none => none
    | some mgr =>
      match mgr.playingPlaylist.or mgr.activePlaylist with
      | none => none
      | some playlist =>
        let item :=
          if playlist.hasProperties then playlist.focusedObject.or playlist.playbackCursor
          else none
        if item = none ∧ playlist.items.length > 0 then playlist.getItem 0 else item

end RemoteControl
