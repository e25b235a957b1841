import RemoteControl.Commands.Mutations
import RemoteControl.Helpers.Crc32
import RemoteControl.Http.Message
import RemoteControl.Upload.Path

/-!
# GetCover, and the endpoints that serve covers and tracks

The handlers of the two `GET` routes take the groups of the path. `std::stol` throws for
a number that does not fit in a `long`, which the HTTP library answers with 500.
-/

namespace RemoteControl

variable {ι : Type}

structure HttpContent where
  contentType : Bytes
  body : Bytes := []
  filePath : Bytes := []
  headers : List (Bytes × Bytes) := []

/-- What becomes of a `GET` handler. -/
inductive GetReply
  | found (content : HttpContent)
  | notFound
  | thrown

/-- A file that is gone when it is served is left to the HTTP library. -/
def GetReply.status : GetReply → Int
  | .found _ => 200
  | .notFound => 404
  | .thrown => 500

def GetReply.of (found : Option HttpContent) : GetReply :=
  match found with
  | none => .notFound
  | some content => .found content

/-! ## Covers -/

/-- `IAIMPImage`: its data as PNG, or `none` when it cannot be saved. -/
structure Image where
  saveToStream : Option Bytes

/-- `IAIMPImageContainer`. -/
structure ImageContainer where
  format : Int
  data : Bytes
  createImage : Option Image

structure AlbumArt (ι : Type) where
  /-- Whether `CreateObject(IID_IAIMPMemoryStream)` gives an object. -/
  createStream : Bool
  /-- What `Get2` of `IAIMPServiceAlbumArt` hands to the callback for an item's file info;
  `none` when there is no service or the callback is not called. -/
  get2 : ι → Option (Option Image × Option ImageContainer)

def encodePng (art : AlbumArt ι) (image : Image) : Option HttpContent :=
  if art.createStream then
    match image.saveToStream with
    | some (c :: data) => some { contentType := ascii "image/png", body := c :: data }
    | _ => none
  else none

/-- The content type of `AIMP_IMAGE_FORMAT_JPG`, `PNG` and `GIF`. -/
def imageContentType (format : Int) : Option Bytes :=
  if format = 3 then some (ascii "image/jpeg")
  else if format = 4 then some (ascii "image/png")
  else if format = 2 then some (ascii "image/gif")
  else none

def rawContent (container : ImageContainer) : Option HttpContent :=
  match imageContentType container.format with
  | none => none
  | some contentType =>
    if container.data = [] then none else some { contentType, body := container.data }

/-- `OnCoverReceived`: the data as it is, else what the image is as PNG. -/
def onCoverReceived (art : AlbumArt ι) (image : Option Image)
    (container : Option ImageContainer) : Option HttpContent :=
  match container.bind rawContent with
  | some content => some content
  | none =>
    match image.or (container.bind ImageContainer.createImage) with
    | none => none
    | some image => encodePng art image

/-- `TrackFileInfo`; the item stands for its file info. -/
def trackFileInfo (trackId : PluginId) : Task ι (Option ι) :=
  fun core idManager =>
    match findPlaylistItem core idManager trackId with
    | none => (none, [])
    | some (item, _) => (if (core.itemFileInfo item).isSome then some item else none, [])

/-- `LoadCover`. -/
def loadCover (art : AlbumArt ι) (done : TaskResult ι (Option ι)) : Option HttpContent :=
  match done.value with
  | none => none
  | some fileInfo =>
    match art.get2 fileInfo with
    | none => none
    | some (image, container) => onCoverReceived art image container

def extensionFor (content : HttpContent) : Bytes :=
  if content.contentType = ascii "image/jpeg" then ascii "jpg"
  else if content.contentType = ascii "image/gif" then ascii "gif"
  else ascii "png"

def albumCoverUri (trackId : PluginId) (cover : HttpContent) : Bytes :=
  ascii "album_covers_cache/cover_0_" ++ toDecimal trackId.toInt ++ ascii "_0x0_" ++
    digitsOf ((crc32Update 0 cover.body).toNat % 100000) ++ ascii "." ++ extensionFor cover

def getCover (art : AlbumArt ι) (moment : Moment ι) (params : Json) : Outcome ι :=
  match params.int32 (ascii "track_id") with
  | none => refuse (invalidParams "track_id is required")
  | some trackId =>
    let done := runOnMainThread none moment (trackFileInfo trackId)
    { reply := .rpc (match loadCover art done with
        | none => .error (rpcError 22 "Getting cover failed. Reason: album cover is not found.")
        | some cover => .ok (.obj [(ascii "album_cover_uri", .str (albumCoverUri trackId cover))]))
      ran := done.ran
      calls := done.calls }

/-- The handler of `/album_covers_cache/..`. -/
def serveCover (art : AlbumArt ι) (moment : Moment ι) : List Bytes → GetReply
  | [] => .notFound
  | number :: _ =>
    match stoll number with
    | none => .thrown
    | some n => .of (loadCover art (runOnMainThread none moment (trackFileInfo (BitVec.ofInt 32 n))))

/-! ## Downloads -/

/-- `ContentTypeFor`. -/
def contentTypeFor (file : Bytes) : Bytes :=
  let ext := (Path.extension file).map toLower
  if ext = ascii ".mp3" then ascii "audio/mpeg"
  else if ext = ascii ".flac" then ascii "audio/flac"
  else if ext = ascii ".ogg" ∨ ext = ascii ".oga" ∨ ext = ascii ".opus" then ascii "audio/ogg"
  else if ext = ascii ".m4a" ∨ ext = ascii ".mp4" ∨ ext = ascii ".aac" then ascii "audio/mp4"
  else if ext = ascii ".wav" then ascii "audio/wav"
  else if ext = ascii ".wma" then ascii "audio/x-ms-wma"
  else if ext = ascii ".ape" then ascii "audio/x-ape"
  else ascii "application/octet-stream"

/-- What a download asks of the URI service and the file system. -/
structure LocalFiles where
  /-- The container that `IAIMPServiceFileURI::Parse` gives, when it gives one. -/
  container : Bytes → Option Bytes
  isRegularFile : Bytes → Bool

/-- `LocalFileName`; empty for a URL and where there is no URI service. -/
def localFileName (localFiles : LocalFiles) (trackId : PluginId) : Task ι Bytes :=
  fun core idManager =>
    match findPlaylistItem core idManager trackId with
    | none => ([], [])
    | some (item, _) =>
      match core.itemFileName item, core.fileUriService with
      | some uri, some fileUri =>
        (if fileUri.isUrl uri then [] else (localFiles.container uri).getD uri, [])
      | _, _ => ([], [])

def fileContent (localFiles : LocalFiles) (fileName : Bytes) : Option HttpContent :=
  if fileName = [] then none
  else if localFiles.isRegularFile fileName then
    some {
      contentType := contentTypeFor fileName
      filePath := fileName
      headers := [(ascii "Content-Disposition",
        ascii "attachment; filename=\"" ++ Path.filename fileName ++ ascii "\"")] }
  else none

/-- The handler of `/downloadTrack/..`. -/
def downloadTrack (localFiles : LocalFiles) (moment : Moment ι) : List Bytes → GetReply
  | [] => .notFound
  | number :: _ =>
    match stoll number with
    | none => .thrown
    | some n =>
      .of (fileContent localFiles
        (runOnMainThread [] moment (localFileName localFiles (BitVec.ofInt 32 n))).value)

end RemoteControl
