import RemoteControl.Aimp.Core
import RemoteControl.IdManager.Basic
import RemoteControl.Std.Json

/-!
# Playlist entries as JSON

playlistEntryJson.cpp: the context of one entry, its fields, and the search.
-/

namespace RemoteControl

variable {ι : Type}

/-- `PlaylistEntryContext`, with what its constructor reads from the item. -/
structure PlaylistEntryContext (ι : Type) where
  fileUriService : Option FileUriService
  item : ι
  fileInfo : Option FileInfo
  fileUri : Option Bytes
  entryId : PluginId
  playlistId : PluginId
  queueIndex : Int

def PlaylistEntryContext.of (core : Core ι) (item : ι) (entryId playlistId : PluginId)
    (queueIndex : Int := -1) : PlaylistEntryContext ι where
  fileUriService := core.fileUriService
  item := item
  fileInfo := core.itemFileInfo item
  fileUri := core.itemFileName item
  entryId := entryId
  playlistId := playlistId
  queueIndex := queueIndex

namespace PlaylistEntryContext

variable (ctx : PlaylistEntryContext ι)

def parentDirName : Option Bytes :=
  match ctx.fileUriService, ctx.fileUri with
  | some service, some uri => service.extractFileParentDirName uri
  | _, _ => none

def fileName : Option Bytes :=
  match ctx.fileUriService, ctx.fileUri with
  | some service, some uri => service.extractFileName uri
  | _, _ => none

def fileInfoString (property : FileInfo → Option Bytes) : Option Bytes := ctx.fileInfo.bind property

def fileInfoInt (property : FileInfo → Option Int) : Int := (ctx.fileInfo.bind property).getD 0

/-- The title, unless it is missing or empty. -/
def titleOrFileName : Option Bytes :=
  match ctx.fileInfoString FileInfo.title with
  | some (c :: title) => some (c :: title)
  | _ => ctx.fileName

end PlaylistEntryContext

/-- `std::filesystem::path(name).stem()`: the last component without its extension. -/
def pathStem (name : Bytes) : Bytes :=
  let component := (name.reverse.takeWhile (· ≠ 47)).reverse
  if component = ascii "." ∨ component = ascii ".." then component
  else
    match component.reverse.dropWhile (· ≠ 46) with
    | _ :: c :: stem => (c :: stem).reverse
    | _ => component

/-- `PlaylistEntryMatches`. -/
def playlistEntryMatches (core : Core ι) (ctx : PlaylistEntryContext ι) (search : Bytes) : Bool :=
  let hit : Option Bytes → Bool
    | none => false
    | some s =>
      match core.find s search with
      | none => false
      | some index => index ≥ 0
  hit ctx.titleOrFileName || hit (ctx.fileInfoString FileInfo.artist) ||
    hit (ctx.fileInfoString FileInfo.album) || hit (ctx.fileInfoString FileInfo.genre) ||
    hit ctx.parentDirName

/-- `PlaylistEntryField`. -/
def playlistEntryField (core : Core ι) (field : Bytes) (ctx : PlaylistEntryContext ι) : Json :=
  if field = ascii "id" then .int ctx.entryId.toInt
  else if field = ascii "playlist_id" then .int ctx.playlistId.toInt
  else if field = ascii "queue_index" then .int ctx.queueIndex
  else if field = ascii "title" then
    match ctx.fileInfoString FileInfo.title with
    | some (c :: title) => .str (c :: title)
    | _ => .str (pathStem (ctx.fileName.getD []))
  else if field = ascii "artist" then .str ((ctx.fileInfoString FileInfo.artist).getD [])
  else if field = ascii "album" then .str ((ctx.fileInfoString FileInfo.album).getD [])
  else if field = ascii "genre" then .str ((ctx.fileInfoString FileInfo.genre).getD [])
  else if field = ascii "filename" then .str (ctx.fileUri.getD [])
  else if field = ascii "foldername" then .str (ctx.parentDirName.getD [])
  else if field = ascii "bitrate" then .int (ctx.fileInfoInt FileInfo.bitrate)
  else if field = ascii "channels_count" then .int (ctx.fileInfoInt FileInfo.channels)
  else if field = ascii "samplerate" then .int (ctx.fileInfoInt FileInfo.samplerate)
  else if field = ascii "date" then .str ((ctx.fileInfoString FileInfo.date).getD [])
  else if field = ascii "filesize" then .int (ctx.fileInfoInt FileInfo.filesize)
  else if field = ascii "duration" then
    -- whole seconds, rounded up like AIMP shows them
    .int (((ctx.fileInfo.bind FileInfo.duration).getD 0).ceil * 1000)
  else if field = ascii "rating" then .float ((core.itemMark ctx.item).getD 0)
  else if field = ascii "enabled" then .bool ((core.itemPlayingSwitch ctx.item).getD 1 ≠ 0)
  else .null

/-- One row of a listing. -/
def entryRow (core : Core ι) (fields : List Bytes) (ctx : PlaylistEntryContext ι) : List Json :=
  fields.map fun field => playlistEntryField core field ctx

end RemoteControl
