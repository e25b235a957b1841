import RemoteControl.Commands.ControlPanel
import RemoteControl.Commands.Mutations

/-!
# The commands on one track, and GetPlaylistEntries

Play, GetPlaylistEntryInfo, SetTrackRating, SetTrackEnabled and Lyrics. Each looks its
track up in its task; the value the task's result starts from reads as a track that was
not found, so it is also what a task that is not run leaves. Play, GetPlaylistEntryInfo and
GetPlaylistEntries issue ids, and run in `IdM`.
-/

namespace RemoteControl

variable {ι α : Type}

/-- `RunOnMainThread` for a task that issues ids. -/
def runIssuing (initial : α) (scheduling : Scheduling) (task : IdM (α × List (Call ι))) :
    IdM (TaskResult ι α) :=
  match scheduling with
  | .noService | .executed _ => do
    let (value, calls) ← task
    pure ⟨value, true, calls⟩
  | .refused _ => pure ⟨initial, false, []⟩

theorem runIssuing_eq_some {initial : α} {scheduling : Scheduling}
    {task : IdM (α × List (Call ι))} {ids ids' : IdSession} {done : TaskResult ι α}
    (h : runIssuing initial scheduling task ids = some (done, ids')) :
    (done = ⟨initial, false, []⟩ ∧ ids' = ids) ∨
    task ids = some ((done.value, done.calls), ids') := by
  cases scheduling with
  | refused answer =>
    cases h
    exact Or.inl ⟨rfl, rfl⟩
  | noService | executed answer =>
    obtain ⟨⟨⟨value, calls⟩, t⟩, htask, hdone⟩ := Option.bind_eq_some_iff.mp h
    cases hdone
    exact Or.inr htask

/-- How the commands end whose task's result may be missing. -/
def answerFound (notFound : Failure) (reply : α → Json) (done : TaskResult ι (Option α)) :
    Outcome ι where
  reply := .rpc (match done.value with
    | none => .error notFound
    | some value => .ok (reply value))
  ran := done.ran
  calls := done.calls

/-! ## SetTrackRating and SetTrackEnabled -/

/-- `std::clamp`. -/
def clamp (low high value : Rat) : Rat :=
  if value ≤ low then low else if high ≤ value then high else value

/-- The new mark, as it is read back; one that cannot be read stays 0. -/
def setRatingTask (controls : PlayerControls ι) (trackId : PluginId) (rating : Rat) :
    Task ι (Option Rat) :=
  fun core idManager =>
    match findPlaylistItem core idManager trackId with
    | none => (none, [])
    | some (item, _) =>
      (some ((controls.markAfter item rating).getD 0),
        [⟨.setMark item rating, controls.setMark item rating⟩])

def setTrackRating (controls : PlayerControls ι) (moment : Moment ι) (params : Json) :
    Outcome ι :=
  match params.int32 (ascii "track_id") with
  | none => refuse (invalidParams "track_id is required")
  | some trackId =>
    match params.number (ascii "rating") with
    | none => refuse (invalidParams "rating is required")
    | some rating =>
      let rating := clamp 0 5 rating
      answerFound (rpcError 21 "Setting rating failed. Reason: track not found.")
        (fun actual => .obj [(ascii "rating", .float actual)])
        (runOnMainThread none moment (setRatingTask controls trackId rating))

def setEnabledTask (controls : PlayerControls ι) (trackId : PluginId) (enabled : Bool) :
    Task ι Bool :=
  fun core idManager =>
    match findPlaylistItem core idManager trackId with
    | none => (false, [])
    | some (item, _) =>
      let value := if enabled then 1 else 0
      (true, [⟨.setPlayingSwitch item value, controls.setPlayingSwitch item value⟩])

def setTrackEnabled (controls : PlayerControls ι) (moment : Moment ι) (params : Json) :
    Outcome ι :=
  match params.int32 (ascii "track_id") with
  | none => refuse (invalidParams "track_id is required")
  | some trackId =>
    match params.boolean (ascii "enabled") with
    | none => refuse (invalidParams "enabled is required")
    | some enabled =>
      let done := runOnMainThread false moment (setEnabledTask controls trackId enabled)
      { reply := .rpc (if done.value then .ok success
          else .error (rpcError 21 "Setting track state failed. Reason: track not found."))
        ran := done.ran
        calls := done.calls }

/-! ## Lyrics -/

/-- Where lyrics are read from; what cannot be read is empty. -/
structure LyricsSources (ι : Type) where
  /-- `AIMP_FILEINFO_PROPID_LYRICS` of the item's file info. -/
  ofItem : ι → Bytes
  /-- The same property, of the file info that is read from a file. -/
  ofFile : Bytes → Bytes
  /-- What `IAIMPServiceLyrics` finds for the item's file info. -/
  ofService : ι → Bytes

/-- `LyricsFromTags`. -/
def lyricsFromTags (sources : LyricsSources ι) (core : Core ι) (item : ι) : Bytes :=
  let text := if (core.itemFileInfo item).isSome then sources.ofItem item else []
  if text ≠ [] then text
  else
    match core.itemFileName item with
    | none => text
    | some uri => sources.ofFile uri

/-- The text of the tags, and the item where it has a file info to search with. -/
def lyricsTask (sources : LyricsSources ι) (trackId : PluginId) : Task ι (Bytes × Option ι) :=
  fun core idManager =>
    match findPlaylistItem core idManager trackId with
    | none => (([], none), [])
    | some (item, _) =>
      ((lyricsFromTags sources core item,
        if (core.itemFileInfo item).isSome then some item else none), [])

def lyrics (sources : LyricsSources ι) (moment : Moment ι) (params : Json) : Outcome ι :=
  match params.int32 (ascii "track_id") with
  | none => refuse (invalidParams "track_id is required")
  | some trackId =>
    let done := runOnMainThread ([], none) moment (lyricsTask sources trackId)
    let text :=
      match done.value with
      | (text, none) => text
      | (text, some item) => if text = [] then sources.ofService item else text
    { reply := .rpc (if text = [] then .error (rpcError 35 "Lyrics not available")
        else .ok (.obj [(ascii "text", .str text)]))
      ran := done.ran
      calls := done.calls }

/-! ## Play -/

/-- `PickFields` of the control panel's state: the fields that tell what was playing. -/
def panelBefore : Option (PlayerPanel ι) → Bytes × Option (PluginId × PluginId)
  | none => (ascii "stopped", none)
  | some panel => (panel.playbackState, panel.track.map fun track => (track.playlistId, track.trackId))

def beforeJson (before : Bytes × PluginId × PluginId) : Json :=
  .obj [(ascii "playback_state", .str before.1), (ascii "playlist_id", .int before.2.1.toInt),
    (ascii "track_id", .int before.2.2.toInt)]

/-- The state before the switch; without a current track it names the new one. -/
def playTask (controls : PlayerControls ι) (core : Core ι) (trackId : PluginId) :
    IdM (Option (Bytes × PluginId × PluginId) × List (Call ι)) := do
  let session ← get
  match findPlaylistItem core session.manager trackId with
  | none => pure (none, [])
  | some (item, playlist) =>
    let panel ← buildState core
    let (playbackState, track) := panelBefore panel
    let ids ←
      match track with
      | some ids => pure ids
      | none => do
        let id ← playlistId (getPlaylistAIMPId (some playlist))
        pure (id, trackId)
    let calls :=
      if core.player.isSome then [⟨.play2 item, controls.play2 item⟩] else []
    pure (some (playbackState, ids), calls)

def play (controls : PlayerControls ι) (core : Core ι) (scheduling : Scheduling) (params : Json) :
    IdM (Outcome ι) :=
  match params.int32 (ascii "track_id") with
  | none => pure (refuse (invalidParams "track_id is required"))
  | some trackId => do
    let done ← runIssuing none scheduling (playTask controls core trackId)
    pure (answerFound (rpcError 21 "Track not found.") beforeJson done)

/-! ## GetPlaylistEntryInfo -/

def infoFields : List Bytes :=
  [ascii "album", ascii "artist", ascii "bitrate", ascii "channels_count", ascii "date",
    ascii "duration", ascii "filesize", ascii "genre", ascii "id", ascii "playlist_id",
    ascii "rating", ascii "samplerate", ascii "title"]

def entryInfoTask (core : Core ι) (trackId : PluginId) :
    IdM (Option (PlaylistEntryContext ι) × List (Call ι)) := do
  let session ← get
  match findPlaylistItem core session.manager trackId with
  | none => pure (none, [])
  | some (item, playlist) =>
    let id ← playlistId (getPlaylistAIMPId (some playlist))
    pure (some (PlaylistEntryContext.of core item trackId id), [])

def getPlaylistEntryInfo (core : Core ι) (scheduling : Scheduling) (params : Json) :
    IdM (Outcome ι) :=
  match params.int32 (ascii "track_id") with
  | none => pure (refuse (invalidParams "track_id is required"))
  | some trackId => do
    let done ← runIssuing none scheduling (entryInfoTask core trackId)
    pure (answerFound
      (rpcError 21 "Getting info about track failed. Reason: track not found.")
      (fun ctx => .obj (infoFields.map fun field => (field, playlistEntryField core field ctx)))
      done)

/-! ## GetPlaylistEntries -/

def EntriesReply.json (core : Core ι) (fields : List Bytes) (reply : EntriesReply ι) : Json :=
  .obj ([(ascii "count_of_found_entries", .int reply.countOfFoundEntries),
      (ascii "entries", .arr ((reply.entries core fields).map .arr))] ++
    reply.totalEntriesCount.toList.map fun total => (ascii "total_entries_count", .int total))

/-- An id that names no playlist is answered with an empty list. -/
def getPlaylistEntriesCommand (core : Core ι) (scheduling : Scheduling) (params : Json) :
    IdM (Outcome ι) :=
  match params.stringsValue (ascii "fields"), params.stringValue (ascii "search_string") with
  | some fields, some search => do
    let done ← runIssuing none scheduling do
      let reply ← getPlaylistEntries core search (params.int32 (ascii "playlist_id"))
      pure (some reply, [])
    pure {
      reply := .rpc (.ok (match done.value with
        | none => .null
        | some reply => EntriesReply.json core fields reply))
      ran := done.ran
      calls := done.calls }
  | _, _ => pure (refuse .typeError)

end RemoteControl
