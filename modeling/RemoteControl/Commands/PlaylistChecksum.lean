import RemoteControl.Commands.TrackIds
import RemoteControl.Commands.Tracks
import RemoteControl.Helpers.Crc32Bits

/-!
# The checksum of a playlist

* `crc32_standard`: `Crc32Update` is the CRC-32 of the textbook, in pieces too, so a
  playlist's checksum is that of its file names one after another.
* `short_edit_detected`: it changes with every edit of at most four bytes in a row.
* `crc32_signed_iff`: in the replies it is a signed 32-bit number only while its top bit is
  clear.
-/

namespace RemoteControl

variable {ι : Type}

/-! ## The checksum -/

/-- The readable file names, one after another. -/
def Playlist.fileText (playlist : Playlist ι) : Bytes :=
  ((playlist.files.getD []).filterMap fun name => name).flatten

theorem computePlaylistCrc32_eq (playlist : Playlist ι) :
    computePlaylistCrc32 playlist = crc32Update 0 playlist.fileText := by
  unfold computePlaylistCrc32 Playlist.fileText
  cases playlist.files with
  | none => exact (crc32Update_nil 0).symm
  | some files =>
    dsimp only [Option.getD_some]
    generalize (0 : BitVec 32) = crc
    induction files generalizing crc with
    | nil => exact (crc32Update_nil crc).symm
    | cons name files ih =>
      rw [List.foldl_cons]
      cases name with
      | none => exact ih crc
      | some name =>
        cases name with
        | nil => exact ih crc
        | cons b name =>
          rw [ih, crc32Update_append]
          rfl

theorem fileText_of_readable {playlist : Playlist ι} {names : List Bytes}
    (h : playlist.files = some (names.map some)) : playlist.fileText = names.flatten := by
  rw [Playlist.fileText, h, Option.getD_some, List.filterMap_map]
  congr 1
  exact List.filterMap_some

/-- **`Crc32Update` is the standard CRC-32**, and can be computed in pieces; the checksum of
readable file names is the CRC-32 of their concatenation. -/
theorem crc32_standard :
    (∀ a, crc32Update 0 a = crc32Bitwise a) ∧
    (∀ crc a b, crc32Update (crc32Update crc a) b = crc32Update crc (a ++ b)) ∧
    ∀ (playlist : Playlist ι) (names : List Bytes),
      computePlaylistCrc32 { playlist with files := some (names.map some) } =
        crc32Bitwise names.flatten := by
  refine ⟨crc32Update_eq_bitwise, crc32Update_append, ?_⟩
  intro playlist names
  rw [computePlaylistCrc32_eq, fileText_of_readable rfl, crc32Update_eq_bitwise]

/-! ## Short edits -/

/-- Strings of one length that agree outside four bytes in a row have their own checksums. -/
theorem eq_of_crc32_window {text text' : Bytes} {start : Nat}
    (hlength : text.length = text'.length)
    (hwindow : ∀ i, ¬(start ≤ i ∧ i < start + 4) → text[i]? = text'[i]?)
    (h : crc32Update 0 text = crc32Update 0 text') : text = text' := by
  have hcut : ∀ s : Bytes, s = s.take start ++ (s.drop start).take 4 ++ s.drop (start + 4) := by
    intro s
    rw [List.append_assoc, ← List.drop_drop, List.take_append_drop, List.take_append_drop]
  have hfront : text'.take start = text.take start := by
    apply List.ext_getElem?
    intro i
    rw [List.getElem?_take, List.getElem?_take]
    split
    · exact (hwindow i (by omega)).symm
    · rfl
  have hback : text'.drop (start + 4) = text.drop (start + 4) := by
    apply List.ext_getElem?
    intro i
    rw [List.getElem?_drop, List.getElem?_drop]
    exact (hwindow _ (by omega)).symm
  rw [hcut text, hcut text', hfront, hback] at h
  have hburst := crc32Update_burst (by simp [hlength]) (by simp) h
  rw [hcut text, hcut text', hfront, hback, hburst]

/-- **The checksum detects every short edit**: lists of readable file names whose texts have
one length and differ within four bytes in a row have different checksums. -/
theorem short_edit_detected {p q : Playlist ι} {names names' : List Bytes} {start : Nat}
    (hp : p.files = some (names.map some)) (hq : q.files = some (names'.map some))
    (hlength : names.flatten.length = names'.flatten.length)
    (hne : names.flatten ≠ names'.flatten)
    (hwindow : ∀ i, ¬(start ≤ i ∧ i < start + 4) →
      names.flatten[i]? = names'.flatten[i]?) :
    computePlaylistCrc32 p ≠ computePlaylistCrc32 q := by
  intro h
  rw [computePlaylistCrc32_eq, computePlaylistCrc32_eq, fileText_of_readable hp,
    fileText_of_readable hq] at h
  exact hne (eq_of_crc32_window hlength hwindow h)

theorem short_edit_detected_sample :
    computePlaylistCrc32
        { samplePlaylist with files := some [some (ascii "/a.mp3"), some (ascii "/b.mp3")] } ≠
      computePlaylistCrc32
        { samplePlaylist with files := some [some (ascii "/a.mp3"), some (ascii "/b.mp4")] } := by
  refine short_edit_detected rfl rfl
    (by decide : [ascii "/a.mp3", ascii "/b.mp3"].flatten.length =
      [ascii "/a.mp3", ascii "/b.mp4"].flatten.length) (by decide)
    (fun i hi => ?_ : ∀ i, ¬(8 ≤ i ∧ i < 8 + 4) → _)
  rcases Nat.lt_or_ge i 8 with hlt | hge
  · have hall : ∀ i < 8, [ascii "/a.mp3", ascii "/b.mp3"].flatten[i]? =
      [ascii "/a.mp3", ascii "/b.mp4"].flatten[i]? := by decide
    exact hall i hlt
  · rw [List.getElem?_eq_none, List.getElem?_eq_none]
    · exact (by omega : 12 ≤ i)
    · exact (by omega : 12 ≤ i)

/-! ## The replies -/

/-- The object of one playlist in a reply. -/
def PlaylistJson.toJson (json : PlaylistJson) : Json :=
  .obj ((json.id.map fun id => (ascii "id", .int id.toInt)).toList ++
    (json.title.map fun title => (ascii "title", .str title)).toList ++
    (json.readonly.map fun readonly => (ascii "readonly", .bool readonly)).toList ++
    (json.entriesCount.map fun count => (ascii "entries_count", .int count)).toList ++
    (json.crc32.map fun crc32 => (ascii "crc32", .int crc32)).toList)

theorem PlaylistJson.toJson_crc32 (json : PlaylistJson) :
    json.toJson.member (ascii "crc32") = json.crc32.map fun crc32 => Json.int crc32 := by
  obtain ⟨id, title, readonly, count, crc32⟩ := json
  cases id <;> cases title <;> cases readonly <;> cases count <;> cases crc32 <;> rfl

/-- A reply that lists the playlists, with the playlist each of its objects is about. -/
structure Listing (ι : Type) where
  listed : List (Playlist ι × PlaylistJson)
  reply : Except Failure Json

def listTask (core : Core ι) (fields : List Bytes) :
    IdM (Option (List (Playlist ι × PlaylistJson)) × List (Call ι)) := do
  let listed ← buildPlaylists core fields
  pure (some listed, [])

/-- `BuildPlaylists` on the main thread; a task that is not run leaves `null`. -/
def listPlaylists (core : Core ι) (scheduling : Scheduling) (fields : List Bytes) :
    IdM (List (Playlist ι × PlaylistJson) × Json) := do
  let done ← runIssuing none scheduling (listTask core fields)
  pure (match done.value with
    | none => ([], .null)
    | some listed => (listed, .arr (listed.map fun object => object.2.toJson)))

/-- `GetPlaylists`. -/
def getPlaylists (core : Core ι) (scheduling : Scheduling) (params : Json) : IdM (Listing ι) :=
  match params.stringsValue (ascii "fields") with
  | none => pure ⟨[], .error .typeError⟩
  | some fields => do
    let (listed, playlists) ← listPlaylists core scheduling fields
    pure ⟨listed, .ok playlists⟩

/-- The event `playlists_content_change`. -/
def playlistsContentChange (core : Core ι) (scheduling : Scheduling) : IdM (Listing ι) := do
  let (listed, playlists) ← listPlaylists core scheduling [ascii "id", ascii "crc32"]
  pure ⟨listed, .ok (.obj [(ascii "event", .str (ascii "playlists_changed")),
    (ascii "playlists", playlists)])⟩

/-- The requests that list the playlists. -/
inductive ListingRequest
  | getPlaylists (params : Json)
  | playlistsContentChange

def ListingRequest.answer (core : Core ι) (scheduling : Scheduling) :
    ListingRequest → IdM (Listing ι)
  | .getPlaylists params => RemoteControl.getPlaylists core scheduling params
  | .playlistsContentChange => RemoteControl.playlistsContentChange core scheduling

/-! ## The field -/

section Field

open Growth

/-- The unsigned checksum, wherever it is asked for. -/
def ShowsChecksum (object : Playlist ι × PlaylistJson) : Prop :=
  ∀ n, object.2.crc32 = some n → n = (computePlaylistCrc32 object.1).toNat

theorem buildPlaylistJson_checksum (fields : List Bytes) (playlist : Playlist ι) :
    Grows (buildPlaylistJson fields playlist) fun json _ => ShowsChecksum (playlist, json) := by
  unfold buildPlaylistJson
  split
  · exact Grows.pure fun s n hn => by cases hn
  · refine (idField_grows fields playlist).bind (fun _ _ _ hst h id hid => hst.1 (h id hid)) ?_
    intro id
    apply Grows.pure
    intro s _ n hn
    dsimp only at hn
    split at hn <;> cases hn
    rfl

theorem buildEach_checksum (fields : List Bytes) (playlists : List (Playlist ι)) :
    Grows (buildEach fields playlists) fun listed _ => ∀ object ∈ listed, ShowsChecksum object := by
  induction playlists with
  | nil => exact Grows.pure fun s object h => by cases h
  | cons playlist playlists ih =>
    refine (buildPlaylistJson_checksum fields playlist).bind (fun _ _ _ _ h => h) ?_
    intro json
    refine ih.bind (fun _ _ _ _ h => h) ?_
    intro rest
    apply Grows.pure
    intro s hrest hone object h
    rcases List.mem_cons.mp h with rfl | h
    · exact hone
    · exact hrest object h

theorem listPlaylists_checksum (core : Core ι) (scheduling : Scheduling) (fields : List Bytes) :
    Grows (listPlaylists core scheduling fields) fun result _ =>
      ∀ object ∈ result.1, ShowsChecksum object := by
  have hlist : Grows (listTask core fields) fun result _ =>
      ∀ listed, result.1 = some listed → ∀ object ∈ listed, ShowsChecksum object := by
    refine (buildEach_checksum fields core.playlists).bind (fun _ _ _ _ h => h) ?_
    intro listed
    apply Grows.pure
    intro s h _ hlisted
    cases hlisted
    exact h
  have hrun : Grows (runIssuing none scheduling (listTask core fields)) fun done _ =>
      ∀ listed, done.value = some listed → ∀ object ∈ listed, ShowsChecksum object := by
    cases scheduling with
    | refused answer => exact Grows.pure fun s listed h => by cases h
    | noService | executed answer =>
      exact hlist.bind (fun _ _ _ _ h => h) fun result => Grows.pure fun s h => h
  refine hrun.bind (fun _ _ _ _ h => h) fun done => Grows.pure fun s h => ?_
  cases hvalue : done.value with
  | none => exact fun object hobject => by cases hobject
  | some listed => exact h listed hvalue

theorem answer_checksum (core : Core ι) (scheduling : Scheduling) (request : ListingRequest) :
    Grows (request.answer core scheduling) fun listing _ =>
      ∀ object ∈ listing.listed, ShowsChecksum object := by
  cases request with
  | playlistsContentChange =>
    exact (listPlaylists_checksum core scheduling _).bind (fun _ _ _ _ h => h)
      fun result => Grows.pure fun s h => h
  | getPlaylists params =>
    unfold ListingRequest.answer getPlaylists
    dsimp only
    split
    · exact Grows.pure fun s object h => by cases h
    · next fields _ =>
      exact (listPlaylists_checksum core scheduling fields).bind (fun _ _ _ _ h => h)
        fun result => Grows.pure fun s h => h

end Field

/-- The signed reading of the CRC-32 of the file names, and a signed 32-bit number. -/
def SignedChecksum (playlist : Playlist ι) (n : Int) : Prop :=
  n = (crc32Bitwise playlist.fileText).toInt ∧ -2 ^ 31 ≤ n ∧ n < 2 ^ 31

/-- **The `crc32` field is a signed 32-bit number** exactly where the CRC-32 of the file names
has its top bit clear. -/
theorem crc32_signed_iff {core : Core ι} {scheduling : Scheduling} {request : ListingRequest}
    {ids ids' : IdSession} {listing : Listing ι}
    (h : request.answer core scheduling ids = some (listing, ids')) :
    ∀ object ∈ listing.listed, ∀ value, object.2.toJson.member (ascii "crc32") = some value →
      ∃ n, value = .int n ∧
        (SignedChecksum object.1 n ↔ (crc32Bitwise object.1.fileText).msb = false) := by
  intro object hobject value hvalue
  rw [PlaylistJson.toJson_crc32, Option.map_eq_some_iff] at hvalue
  obtain ⟨n, hn, rfl⟩ := hvalue
  refine ⟨n, rfl, ?_⟩
  obtain rfl := (answer_checksum core scheduling request ids listing ids' h).2 object hobject n hn
  rw [computePlaylistCrc32_eq, crc32Update_eq_bitwise, SignedChecksum]
  generalize crc32Bitwise object.1.fileText = crc
  constructor
  · rintro ⟨-, -, hlt⟩
    rw [BitVec.msb_eq_decide, decide_eq_false_iff_not]
    omega
  · intro hmsb
    rw [BitVec.toInt_eq_toNat_of_msb hmsb]
    rw [BitVec.msb_eq_decide, decide_eq_false_iff_not] at hmsb
    omega

/-! ## Two playlists -/

/-- One playlist with these files. -/
def filesPlayer (names : List Bytes) : Core Nat :=
  { samplePlayer with
    playlistManager := some {
      loaded := [some { samplePlaylist with files := some (names.map some) }]
      getLoadedPlaylistByID := fun _ => none
      playingPlaylist := none
      activePlaylist := none
      createPlaylist := fun _ => none } }

/-- What the event shows of that playlist. -/
def checksumEvent (names : List Bytes) : Option (Listing Nat × IdSession) :=
  ListingRequest.playlistsContentChange.answer (filesPlayer names) .noService .empty

theorem crc32_signed_iff_sample :
    ∃ listing ids', checksumEvent [ascii "/music/d.mp3"] = some (listing, ids') ∧
      ∃ object ∈ listing.listed,
        object.2.toJson.member (ascii "crc32") = some (.int 750910221) ∧
        SignedChecksum object.1 750910221 := by
  obtain ⟨⟨listing, ids'⟩, hanswer, hlisted⟩ := (Option.any_eq_true _ _).mp
    (show (checksumEvent [ascii "/music/d.mp3"]).any (fun result => result.1.listed.any
      fun object => object.2.crc32 = some 750910221 ∧
        (crc32Bitwise object.1.fileText).msb = false) = true by decide +kernel)
  obtain ⟨object, hobject, hfield⟩ := List.any_eq_true.mp hlisted
  obtain ⟨hcrc, hmsb⟩ := of_decide_eq_true hfield
  have hmember : object.2.toJson.member (ascii "crc32") = some (.int 750910221) := by
    rw [PlaylistJson.toJson_crc32, hcrc]
    rfl
  obtain ⟨n, hn, hsigned⟩ := crc32_signed_iff hanswer object hobject _ hmember
  cases hn
  exact ⟨listing, ids', hanswer, object, hobject, hmember, hsigned.mpr hmsb⟩

/-- The CRC-32 of `123456789` has its top bit set, and is shown as a positive number. -/
theorem checksum_shown_unsigned :
    ∃ listing ids', checksumEvent [ascii "123456789"] = some (listing, ids') ∧
      ∃ object ∈ listing.listed,
        object.2.toJson.member (ascii "crc32") = some (.int 3421780262) ∧
        (crc32Bitwise object.1.fileText).toInt = -873187034 ∧
        ¬SignedChecksum object.1 3421780262 := by
  obtain ⟨⟨listing, ids'⟩, hanswer, hlisted⟩ := (Option.any_eq_true _ _).mp
    (show (checksumEvent [ascii "123456789"]).any (fun result => result.1.listed.any
      fun object => object.2.crc32 = some 3421780262 ∧
        (crc32Bitwise object.1.fileText).toInt = -873187034) = true by decide +kernel)
  obtain ⟨object, hobject, hfield⟩ := List.any_eq_true.mp hlisted
  obtain ⟨hcrc, hsigned⟩ := of_decide_eq_true hfield
  refine ⟨listing, ids', hanswer, object, hobject, ?_, hsigned, ?_⟩
  · rw [PlaylistJson.toJson_crc32, hcrc]
    rfl
  · rintro ⟨-, -, hlt⟩
    exact absurd hlt (by decide)

end RemoteControl
