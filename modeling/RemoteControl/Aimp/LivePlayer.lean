import RemoteControl.Aimp.Controls
import Mathlib.Data.List.Find
import Mathlib.Data.List.Nodup
import Mathlib.Data.List.Pairwise

/-!
# A player that changes

The player as its loaded playlists with their items, focus and playback cursor, the active
playlist, the playback and the properties the control panel shows. `LivePlayer.core` is what
its interfaces answer. Each kind of change comes with the callbacks the SDK defines for it.
-/

namespace RemoteControl

/-- A loaded playlist; the focus and the playback cursor are indices of its items. -/
structure LoadedPlaylist (ι : Type) where
  id : Bytes
  items : List ι
  focus : Option Nat := none
  cursor : Option Nat := none
  id_ne_nil : id ≠ []
  focus_lt : ∀ i ∈ focus, i < items.length := by simp
  cursor_lt : ∀ i ∈ cursor, i < items.length := by simp

/-- What the player plays. -/
structure Playback (ι : Type) where
  /-- `GetPlaylistItem`. -/
  item : Option ι
  /-- The id of `GetPlayingPlaylist`. -/
  playlist : Option Bytes
  state : Int
  duration : Rat
  position : Rat

structure LivePlayer (ι : Type) where
  playlists : List (LoadedPlaylist ι)
  /-- The id of `GetActivePlaylist`. -/
  active : Option Bytes
  playback : Playback ι
  volume : Rat
  mute : Bool
  repeatMode : Bool
  shuffle : Bool
  radioCap : Bool

variable {ι : Type}

/-! ## What the interfaces answer -/

namespace LoadedPlaylist

/-- The playlist as an `IAIMPPlaylist`. Its name, its files and what commands do to it are
not part of this model. -/
def toPlaylist (playlist : LoadedPlaylist ι) : Playlist ι where
  hasProperties := true
  id := playlist.id
  name := []
  readonly := none
  focusedObject := playlist.focus.bind fun i => playlist.items[i]?
  playbackCursor := playlist.cursor.bind fun i => playlist.items[i]?
  items := playlist.items.map some
  files := none
  setName _ := eFail
  addList _ := eFail
  close := eFail
  delete _ := eFail
  delete3 _ := eFail

@[simp] theorem toPlaylist_hasProperties (playlist : LoadedPlaylist ι) :
    playlist.toPlaylist.hasProperties = true := rfl

@[simp] theorem toPlaylist_items (playlist : LoadedPlaylist ι) :
    playlist.toPlaylist.items = playlist.items.map some := rfl

theorem toPlaylist_getItem_zero (playlist : LoadedPlaylist ι) :
    playlist.toPlaylist.getItem 0 = playlist.items[0]? := by
  unfold Playlist.getItem
  rw [toPlaylist_items, List.getElem?_map, Int.toNat_zero]
  cases playlist.items[0]? with
  | none => rfl
  | some item => rfl

/-- The focus, or else the playback cursor. -/
def chosen (playlist : LoadedPlaylist ι) : Option Nat := playlist.focus.or playlist.cursor

/-- The index of the item that the playlist would start with. -/
def offer (playlist : LoadedPlaylist ι) : Option Nat :=
  playlist.chosen.or (if playlist.items = [] then none else some 0)

def offered (playlist : LoadedPlaylist ι) : Option ι :=
  playlist.offer.bind fun i => playlist.items[i]?

theorem chosen_lt {playlist : LoadedPlaylist ι} {i : Nat} (h : playlist.chosen = some i) :
    i < playlist.items.length := by
  rcases Option.or_eq_some_iff.mp h with h | ⟨-, h⟩
  · exact playlist.focus_lt i h
  · exact playlist.cursor_lt i h

theorem offer_lt {playlist : LoadedPlaylist ι} {i : Nat} (h : playlist.offer = some i) :
    i < playlist.items.length := by
  rcases Option.or_eq_some_iff.mp h with h | ⟨-, h⟩
  · exact chosen_lt h
  · split at h
    · cases h
    · next hne =>
      cases h
      exact List.length_pos_of_ne_nil hne

theorem focusedObject_or_playbackCursor (playlist : LoadedPlaylist ι) :
    playlist.toPlaylist.focusedObject.or playlist.toPlaylist.playbackCursor =
      playlist.chosen.bind fun i => playlist.items[i]? := by
  unfold toPlaylist chosen
  cases hfocus : playlist.focus with
  | none => simp
  | some i =>
    have hi := playlist.focus_lt i hfocus
    simp [hi]

/-- What `CurrentItemOf` finds in a playlist. -/
theorem offered_eq (playlist : LoadedPlaylist ι) :
    playlist.offered =
      if (playlist.chosen.bind fun i => playlist.items[i]?) = none ∧ playlist.items.length > 0 then
        playlist.items[0]?
      else playlist.chosen.bind fun i => playlist.items[i]? := by
  unfold offered offer
  cases hchosen : playlist.chosen with
  | none =>
    by_cases hitems : playlist.items = []
    · simp [hitems]
    · simp [hitems, List.length_pos_iff]
  | some i =>
    have hi := chosen_lt hchosen
    simp [hi]

end LoadedPlaylist

namespace LivePlayer

def playlist? (player : LivePlayer ι) (id : Bytes) : Option (LoadedPlaylist ι) :=
  player.playlists.find? fun playlist => playlist.id = id

/-- The playlist that `CurrentItemOf` looks in: the one playing, else the active one. -/
def displayed (player : LivePlayer ι) : Option (LoadedPlaylist ι) :=
  (player.playback.playlist.bind player.playlist?).or (player.active.bind player.playlist?)

def service (player : LivePlayer ι) : PlayerService ι where
  playlistItem := player.playback.item
  state := player.playback.state
  volume := some player.volume
  mute := some player.mute
  duration := some player.playback.duration
  position := some player.playback.position

variable [DecidableEq ι]

/-- The playlist an item is in. -/
def owner (player : LivePlayer ι) (item : ι) : Option (LoadedPlaylist ι) :=
  player.playlists.find? fun playlist => item ∈ playlist.items

/-- The playlist id and the index that an item is found under. -/
def place (player : LivePlayer ι) (item : ι) : Option (Bytes × Nat) :=
  (player.owner item).bind fun playlist =>
    (playlist.items.idxOf? item).map fun i => (playlist.id, i)

/-- The interfaces of the player; `rest` answers what is not part of this model. -/
def core (rest : Core ι) (player : LivePlayer ι) : Core ι :=
  { rest with
    playlistManager := some {
      loaded := player.playlists.map fun playlist => some playlist.toPlaylist
      getLoadedPlaylistByID := fun id => (player.playlist? id).map LoadedPlaylist.toPlaylist
      playingPlaylist :=
        (player.playback.playlist.bind player.playlist?).map LoadedPlaylist.toPlaylist
      activePlaylist := (player.active.bind player.playlist?).map LoadedPlaylist.toPlaylist
      createPlaylist := fun _ => none }
    player := some player.service
    messageProperty := fun
      | .repeatMode => some player.repeatMode
      | .shuffle => some player.shuffle
      | .radioCap => some player.radioCap
    itemIndex := fun item =>
      ((player.owner item).bind fun playlist => playlist.items.idxOf? item).map fun i => (i : Int)
    itemPlaylist := fun item => (player.owner item).map LoadedPlaylist.toPlaylist }

/-- No two playlists have one id or share an item, and the playlists that are active or
playing are loaded. -/
structure Consistent (player : LivePlayer ι) : Prop where
  ids_nodup : (player.playlists.map LoadedPlaylist.id).Nodup
  items_nodup : (player.playlists.flatMap LoadedPlaylist.items).Nodup
  active_loaded : ∀ id ∈ player.active, ∃ playlist ∈ player.playlists, playlist.id = id
  playing_loaded : ∀ id ∈ player.playback.playlist, ∃ playlist ∈ player.playlists, playlist.id = id

instance (player : LivePlayer ι) : Decidable player.Consistent :=
  decidable_of_iff
    ((player.playlists.map LoadedPlaylist.id).Nodup ∧
      (player.playlists.flatMap LoadedPlaylist.items).Nodup ∧
      (∀ id ∈ player.active, ∃ playlist ∈ player.playlists, playlist.id = id) ∧
      ∀ id ∈ player.playback.playlist, ∃ playlist ∈ player.playlists, playlist.id = id)
    ⟨fun ⟨h1, h2, h3, h4⟩ => ⟨h1, h2, h3, h4⟩, fun ⟨h1, h2, h3, h4⟩ => ⟨h1, h2, h3, h4⟩⟩

theorem mem_items_of_owner {player : LivePlayer ι} {item : ι} {playlist : LoadedPlaylist ι}
    (h : player.owner item = some playlist) : item ∈ playlist.items := by
  unfold owner at h
  simpa using List.find?_some h

theorem place_id_ne_nil {player : LivePlayer ι} {item : ι} {place : Bytes × Nat}
    (h : player.place item = some place) : place.1 ≠ [] := by
  obtain ⟨playlist, -, hindex⟩ := Option.bind_eq_some_iff.mp h
  obtain ⟨i, -, rfl⟩ := Option.map_eq_some_iff.mp hindex
  exact playlist.id_ne_nil

theorem find?_eq_some_iff_of_unique {α : Type} {l : List α} {p : α → Bool}
    (h : ∀ x ∈ l, ∀ y ∈ l, p x = true → p y = true → x = y) {a : α} :
    l.find? p = some a ↔ a ∈ l ∧ p a = true := by
  constructor
  · intro hfind
    exact ⟨List.mem_of_find?_eq_some hfind, List.find?_some hfind⟩
  · rintro ⟨hmem, ha⟩
    obtain ⟨b, hb⟩ := Option.isSome_iff_exists.mp (List.find?_isSome.mpr ⟨a, hmem, ha⟩)
    rw [hb, h b (List.mem_of_find?_eq_some hb) a hmem (List.find?_some hb) ha]

namespace Consistent

variable {player : LivePlayer ι} {playlist : LoadedPlaylist ι} {id : Bytes} {item : ι} {i : Nat}

omit [DecidableEq ι] in
theorem playlist?_eq_some (h : player.Consistent) :
    player.playlist? id = some playlist ↔ playlist ∈ player.playlists ∧ playlist.id = id := by
  unfold playlist?
  rw [find?_eq_some_iff_of_unique]
  · simp
  · intro p hp q hq hpid hqid
    refine List.inj_on_of_nodup_map h.ids_nodup hp hq ?_
    rw [of_decide_eq_true hpid, of_decide_eq_true hqid]

omit [DecidableEq ι] in
theorem items_unique (h : player.Consistent) {p q : LoadedPlaylist ι} (hp : p ∈ player.playlists)
    (hq : q ∈ player.playlists) (hip : item ∈ p.items) (hiq : item ∈ q.items) : p = q := by
  by_contra hne
  have hdisjoint := (List.nodup_flatMap.mp h.items_nodup).2
  have : Std.Symm (Function.onFun List.Disjoint (@LoadedPlaylist.items ι)) :=
    ⟨fun _ _ hd _ hx hy => hd hy hx⟩
  exact hdisjoint.forall hp hq hne hip hiq

theorem owner_eq_some (h : player.Consistent) :
    player.owner item = some playlist ↔ playlist ∈ player.playlists ∧ item ∈ playlist.items := by
  unfold owner
  rw [find?_eq_some_iff_of_unique]
  · simp
  · intro p hp q hq hip hiq
    exact h.items_unique hp hq (of_decide_eq_true hip) (of_decide_eq_true hiq)

theorem idxOf?_eq_some (h : player.Consistent) (hp : playlist ∈ player.playlists) :
    playlist.items.idxOf? item = some i ↔ playlist.items[i]? = some item := by
  have hnodup := (List.nodup_flatMap.mp h.items_nodup).1 playlist hp
  rw [List.idxOf?_eq_some_iff, List.getElem?_eq_some_iff]
  constructor
  · rintro ⟨hi, heq, -⟩
    exact ⟨hi, by simpa using heq⟩
  · rintro ⟨hi, rfl⟩
    refine ⟨hi, by simp, fun j hj heq => ?_⟩
    have hji : j = i := (hnodup.getElem_inj_iff).mp (by simpa using heq)
    omega

/-- An item is placed where a loaded playlist has it. -/
theorem place_eq_some (h : player.Consistent) :
    player.place item = some (id, i) ↔
      ∃ playlist ∈ player.playlists, playlist.id = id ∧ playlist.items[i]? = some item := by
  unfold place
  constructor
  · intro hplace
    obtain ⟨playlist, howner, hindex⟩ := Option.bind_eq_some_iff.mp hplace
    obtain ⟨j, hj, heq⟩ := Option.map_eq_some_iff.mp hindex
    cases heq
    have hmem := (h.owner_eq_some.mp howner).1
    exact ⟨playlist, hmem, rfl, (h.idxOf?_eq_some hmem).mp hj⟩
  · rintro ⟨playlist, hmem, rfl, hi⟩
    rw [h.owner_eq_some.mpr ⟨hmem, List.mem_of_getElem? hi⟩, Option.bind_some,
      (h.idxOf?_eq_some hmem).mpr hi, Option.map_some]

/-- The playlist with this id is the only one. -/
theorem place_eq_some_of_mem (h : player.Consistent) (hp : playlist ∈ player.playlists) :
    player.place item = some (playlist.id, i) ↔ playlist.items[i]? = some item := by
  rw [h.place_eq_some]
  constructor
  · rintro ⟨p, hmem, hid, hi⟩
    rwa [List.inj_on_of_nodup_map h.ids_nodup hmem hp hid] at hi
  · intro hi
    exact ⟨playlist, hp, rfl, hi⟩

omit [DecidableEq ι] in
theorem displayed_mem (h : player.Consistent) (hd : player.displayed = some playlist) :
    playlist ∈ player.playlists := by
  rcases Option.or_eq_some_iff.mp hd with hp | ⟨-, ha⟩
  · obtain ⟨id, -, hp⟩ := Option.bind_eq_some_iff.mp hp
    exact (h.playlist?_eq_some.mp hp).1
  · obtain ⟨id, -, ha⟩ := Option.bind_eq_some_iff.mp ha
    exact (h.playlist?_eq_some.mp ha).1

omit [DecidableEq ι] in
theorem displayed_of_playing (h : player.Consistent)
    (hplaying : player.playback.playlist = some id) :
    player.displayed = player.playlist? id := by
  obtain ⟨playlist, hmem, hid⟩ := h.playing_loaded id hplaying
  have hfind : player.playlist? id = some playlist := h.playlist?_eq_some.mpr ⟨hmem, hid⟩
  unfold displayed
  rw [hplaying, Option.bind_some, hfind, Option.some_or]

end Consistent

omit [DecidableEq ι] in
theorem displayed_of_active {player : LivePlayer ι} (hplaying : player.playback.playlist = none) :
    player.displayed = player.active.bind player.playlist? := by
  unfold displayed
  rw [hplaying, Option.bind_none, Option.none_or]

end LivePlayer

/-! ## Callbacks -/

/-- The messages of `CoreMessage` that the plugin tells apart. -/
inductive Message
  | playerState
  | streamStart
  | streamStartSubtrack
  | streamEnd
  | playingFileInfo
  | propertyValue (property : DispatcherProperty)
  | playbackQueue
  /-- `AIMP_MSG_EVENT_PLAYER_UPDATE_POSITION`, every second. -/
  | playerUpdatePosition
  | other (message : BitVec 32)

/-- The messages that come with a change of what is played. -/
def Message.tellsPlayback : Message → Bool
  | .playerState | .streamStart | .streamStartSubtrack | .streamEnd | .playingFileInfo => true
  | _ => false

/-- The flags of `IAIMPPlaylistListener::Changed`. -/
abbrev NotifyFlags := BitVec 32

namespace NotifyFlags

def name : NotifyFlags := 0x1
def playbackCursor : NotifyFlags := 0x4
def readonly : NotifyFlags := 0x8
def focusIndex : NotifyFlags := 0x10
def content : NotifyFlags := 0x20
def fileInfo : NotifyFlags := 0x40
def playingSwitchs : NotifyFlags := 0x100

end NotifyFlags

/-- What the player calls: the message hook, a playlist's listener and the listener of the
playlist manager. -/
inductive Callback
  | coreMessage (message : Message)
  | activated
  | changed (flags : NotifyFlags)
  | removed
  | playlistActivated
  | playlistAdded
  | playlistRemoved

/-! ## Changes -/

/-- A property of the panel that is set in the player. -/
inductive Setting
  | volume (value : Rat)
  | mute (value : Bool)
  | repeatMode (value : Bool)
  | shuffle (value : Bool)
  | radioCap (value : Bool)
  | playerPosition (seconds : Rat)

def Setting.property : Setting → DispatcherProperty
  | .volume _ => .volume
  | .mute _ => .mute
  | .repeatMode _ => .repeatMode
  | .shuffle _ => .shuffle
  | .radioCap _ => .radioCap
  | .playerPosition _ => .playerPosition

def LivePlayer.seek (player : LivePlayer ι) (seconds : Rat) : LivePlayer ι :=
  { player with playback := { player.playback with position := seconds } }

/-- The playlist with the id of `after` becomes `after`. -/
def LivePlayer.replace (player : LivePlayer ι) (after : LoadedPlaylist ι) : LivePlayer ι :=
  { player with
    playlists := player.playlists.map fun playlist =>
      if playlist.id = after.id then after else playlist }

theorem LivePlayer.mem_replace {player : LivePlayer ι} {after playlist : LoadedPlaylist ι} :
    playlist ∈ (player.replace after).playlists ↔
      (playlist ∈ player.playlists ∧ playlist.id ≠ after.id) ∨
      (playlist = after ∧ ∃ old ∈ player.playlists, old.id = after.id) := by
  unfold replace
  rw [List.mem_map]
  constructor
  · rintro ⟨old, hold, rfl⟩
    split
    · next hid => exact Or.inr ⟨rfl, old, hold, hid⟩
    · next hid => exact Or.inl ⟨hold, hid⟩
  · rintro (⟨hmem, hid⟩ | ⟨rfl, old, hold, hid⟩)
    · exact ⟨playlist, hmem, if_neg hid⟩
    · exact ⟨old, hold, if_pos hid⟩

def LivePlayer.activate (player : LivePlayer ι) (id : Bytes) : LivePlayer ι :=
  { player with active := some id }

def LivePlayer.add (player : LivePlayer ι) (playlist : LoadedPlaylist ι) : LivePlayer ι :=
  { player with playlists := player.playlists ++ [playlist] }

def LivePlayer.drop (player : LivePlayer ι) (id : Bytes) : LivePlayer ι :=
  { player with
    playlists := player.playlists.filter fun playlist => playlist.id ≠ id
    active := player.active.filter fun active => active ≠ id
    playback := { player.playback with
      playlist := player.playback.playlist.filter fun playing => playing ≠ id } }

def Setting.apply (player : LivePlayer ι) : Setting → LivePlayer ι
  | .volume value => { player with volume := value }
  | .mute value => { player with mute := value }
  | .repeatMode value => { player with repeatMode := value }
  | .shuffle value => { player with shuffle := value }
  | .radioCap value => { player with radioCap := value }
  | .playerPosition seconds => player.seek seconds

inductive PlayerChange (ι : Type)
  /-- The track, the state or the file information of what is played. -/
  | playback (message : Message) (after : Playback ι)
  | property (setting : Setting)
  /-- The position ticks. -/
  | tick (seconds : Rat)
  /-- Any message that comes without a change of what is modelled. -/
  | unrelated (message : Message)
  /-- The playlist of this id is now so. -/
  | changed (after : LoadedPlaylist ι) (flags : NotifyFlags)
  | activated (id : Bytes)
  | added (playlist : LoadedPlaylist ι)
  | removed (id : Bytes)

namespace PlayerChange

def callbacks : PlayerChange ι → List Callback
  | .playback message _ | .unrelated message => [.coreMessage message]
  | .property setting => [.coreMessage (.propertyValue setting.property)]
  | .tick _ => [.coreMessage .playerUpdatePosition]
  | .changed _ flags => [.changed flags]
  | .activated _ => [.playlistActivated, .activated]
  | .added _ => [.playlistAdded]
  | .removed _ => [.playlistRemoved, .removed]

variable [DecidableEq ι]

/-- The flags say which parts of the playlist may be different; with its content the focus
and the cursor move. -/
def Flagged (flags : NotifyFlags) (old after : LoadedPlaylist ι) : Prop :=
  (after.items = old.items ∨ flags &&& .content ≠ 0) ∧
  (after.focus = old.focus ∨ flags &&& (.focusIndex ||| .content) ≠ 0) ∧
  (after.cursor = old.cursor ∨ flags &&& (.playbackCursor ||| .content) ≠ 0)

instance (flags : NotifyFlags) (old after : LoadedPlaylist ι) :
    Decidable (Flagged flags old after) :=
  inferInstanceAs (Decidable (_ ∧ _ ∧ _))

/-- The player after the change; `none` where the player does not change so. -/
def apply (player : LivePlayer ι) : PlayerChange ι → Option (LivePlayer ι)
  | .playback message after =>
    if message.tellsPlayback then some { player with playback := after } else none
  | .property setting => some (setting.apply player)
  | .tick seconds => some (player.seek seconds)
  | .unrelated _ => some player
  | .changed after flags =>
    match player.playlist? after.id with
    | none => none
    | some old =>
      if Flagged flags old after then some (player.replace after) else none
  | .activated id =>
    if (player.playlist? id).isSome then some (player.activate id) else none
  | .added playlist => some (player.add playlist)
  | .removed id => some (player.drop id)

/-- What a change does, kind by kind. -/
inductive Applied (player : LivePlayer ι) : PlayerChange ι → LivePlayer ι → Prop
  | playback {message : Message} (after : Playback ι) (h : message.tellsPlayback = true) :
      Applied player (.playback message after) { player with playback := after }
  | property (setting : Setting) : Applied player (.property setting) (setting.apply player)
  | tick (seconds : Rat) : Applied player (.tick seconds) (player.seek seconds)
  | unrelated (message : Message) : Applied player (.unrelated message) player
  | changed (after : LoadedPlaylist ι) (flags : NotifyFlags) :
      Applied player (.changed after flags) (player.replace after)
  | activated (id : Bytes) : Applied player (.activated id) (player.activate id)
  | added (playlist : LoadedPlaylist ι) : Applied player (.added playlist) (player.add playlist)
  | removed (id : Bytes) : Applied player (.removed id) (player.drop id)

theorem applied_of_apply {player player' : LivePlayer ι} {change : PlayerChange ι}
    (h : change.apply player = some player') : Applied player change player' := by
  cases change with
  | playback message after =>
    simp only [apply] at h
    split at h
    · next htells =>
      cases h
      exact .playback after htells
    · cases h
  | property setting =>
    cases h
    exact .property setting
  | tick seconds =>
    cases h
    exact .tick seconds
  | unrelated message =>
    cases h
    exact .unrelated message
  | changed after flags =>
    simp only [apply] at h
    split at h
    · cases h
    · split at h
      · cases h
        exact .changed after flags
      · cases h
  | activated id =>
    simp only [apply] at h
    split at h
    · cases h
      exact .activated id
    · cases h
  | added playlist =>
    cases h
    exact .added playlist
  | removed id =>
    cases h
    exact .removed id

end PlayerChange

end RemoteControl
