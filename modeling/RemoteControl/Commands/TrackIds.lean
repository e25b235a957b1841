import RemoteControl.Commands.ControlPanel
import RemoteControl.Commands.Playlists
import Mathlib.Data.List.Nodup

/-!
# Track ids mean the same thing on every endpoint

The requests that report ids run one after another over one id manager, while the
player's playlists change arbitrarily in between. `Faithful` is what is assumed of
the player. A handler's specification is that the ids it reports were issued for
the track or playlist they are reported for; `ids_mean_the_same` follows from it
for every sequence of requests and changes.
-/

namespace RemoteControl

open Growth Transition

variable {ι : Type}

/-! ## The player -/

def Playlist.aimpId (playlist : Playlist ι) : Bytes := getPlaylistAIMPId (some playlist)

/-- What is assumed of the player between two changes. -/
structure Faithful (core : Core ι) : Prop where
  ids_distinct : (core.playlists.map Playlist.aimpId).Nodup
  id_ne_nil : ∀ playlist ∈ core.playlists, playlist.aimpId ≠ []
  /-- A string object for a loaded playlist's id can be made. -/
  createString : ∀ playlist ∈ core.playlists, core.createString playlist.aimpId
  getLoadedPlaylistByID : ∀ mgr, core.playlistManager = some mgr → ∀ aimpId,
    mgr.getLoadedPlaylistByID aimpId = mgr.playlists.find? fun p => p.aimpId = aimpId
  /-- `INDEX` and `PLAYLIST` of an item tell its current position. -/
  position : ∀ playlist ∈ core.playlists, ∀ (i : Nat) (item : ι), playlist.items[i]? = some (some item) →
    core.itemIndex item = some (i : Int) ∧
      getPlaylistAIMPId (core.itemPlaylist item) = playlist.aimpId

/-- The item at a position of a loaded playlist, with that playlist. -/
def ItemAt (core : Core ι) (key : PlaylistItemKey) (item : ι) (playlist : Playlist ι) : Prop :=
  playlist ∈ core.playlists ∧ playlist.aimpId = key.aimpPlaylistId ∧ 0 ≤ key.index ∧
    playlist.items[key.index.toNat]? = some (some item)

section Resolve

variable {core : Core ι} {s : IdSession} {id : PluginId}

theorem Faithful.locate_eq (h : Faithful core) {playlist : Playlist ι}
    (hp : playlist ∈ core.playlists) {i : Nat} {item : ι}
    (hi : playlist.items[i]? = some (some item)) : locate core item = ⟨playlist.aimpId, i⟩ := by
  have ⟨hindex, hplaylist⟩ := h.position playlist hp i item hi
  rw [locate, hindex, hplaylist, Option.getD_some]

theorem Faithful.loadedPlaylist_iff (h : Faithful core) {aimpId : Bytes} {playlist : Playlist ι} :
    loadedPlaylistByAIMPId core aimpId = some playlist ↔
      playlist ∈ core.playlists ∧ playlist.aimpId = aimpId := by
  have hdistinct := h.ids_distinct
  have hne := h.id_ne_nil
  have hstring := h.createString
  have hget := h.getLoadedPlaylistByID
  unfold loadedPlaylistByAIMPId
  cases hmgr : core.playlistManager with
  | none =>
    have hempty : core.playlists = [] := by rw [Core.playlists, hmgr]; rfl
    simp [hempty]
  | some mgr =>
    have hplaylists : core.playlists = mgr.playlists := by rw [Core.playlists, hmgr]; rfl
    rw [hplaylists] at hdistinct hne hstring ⊢
    have hfind := hget mgr hmgr aimpId
    dsimp only
    constructor
    · intro hfound
      split at hfound
      · cases hfound
      · split at hfound
        · rw [hfind] at hfound
          exact ⟨List.mem_of_find?_eq_some hfound, by simpa using List.find?_some hfound⟩
        · cases hfound
    · rintro ⟨hmem, rfl⟩
      rw [if_neg (hne playlist hmem), if_pos (hstring playlist hmem), hfind]
      obtain ⟨found, hfound⟩ : ∃ found, mgr.playlists.find?
          (fun p => p.aimpId = playlist.aimpId) = some found :=
        Option.isSome_iff_exists.mp (List.find?_isSome.mpr ⟨playlist, hmem, by simp⟩)
      have hid : found.aimpId = playlist.aimpId := by simpa using List.find?_some hfound
      rw [hfound, List.inj_on_of_nodup_map hdistinct (List.mem_of_find?_eq_some hfound) hmem hid]

theorem loadedPlaylistByAIMPId_nil : loadedPlaylistByAIMPId core [] = none := by
  rw [loadedPlaylistByAIMPId, if_pos rfl]

theorem Faithful.findPlaylist_issued (h : Faithful core) {aimpId : Bytes}
    (hid : (aimpId, id) ∈ s.issuedPlaylists) {playlist : Playlist ι} :
    findPlaylist core s.manager id = some playlist ↔
      playlist ∈ core.playlists ∧ playlist.aimpId = aimpId := by
  rw [findPlaylist, IdSession.playlistGetKey_of_issued hid, h.loadedPlaylist_iff]

theorem findPlaylist_not_issued (hid : ∀ aimpId, (aimpId, id) ∉ s.issuedPlaylists) :
    findPlaylist core s.manager id = none := by
  rw [findPlaylist, IdSession.playlistGetKey_of_not_issued hid, loadedPlaylistByAIMPId_nil]

theorem Faithful.findPlaylistItem_issued (h : Faithful core) {key : PlaylistItemKey}
    (hid : (key, id) ∈ s.issuedTracks) {item : ι} {playlist : Playlist ι} :
    findPlaylistItem core s.manager id = some (item, playlist) ↔
      ItemAt core key item playlist := by
  unfold findPlaylistItem ItemAt
  rw [IdSession.playlistItemGetKey_of_issued hid]
  simp only [← and_assoc, ← h.loadedPlaylist_iff]
  cases hl : loadedPlaylistByAIMPId core key.aimpPlaylistId with
  | none => simp
  | some owner =>
    simp only
    split
    · next hout =>
      simp only [reduceCtorEq, false_iff, Option.some.injEq, not_and]
      rintro ⟨rfl, hnonneg⟩ hitem
      have := (List.getElem?_eq_some_iff.mp hitem).1
      omega
    · next hin =>
      have hnonneg : 0 ≤ key.index := by omega
      rw [Option.map_eq_some_iff]
      constructor
      · rintro ⟨item', hitem, heq⟩
        cases heq
        exact ⟨⟨rfl, hnonneg⟩, Option.join_eq_some_iff.mp hitem⟩
      · rintro ⟨⟨howner, -⟩, hitem⟩
        cases howner
        exact ⟨item, Option.join_eq_some_iff.mpr hitem, rfl⟩

theorem findPlaylistItem_not_issued (hid : ∀ key, (key, id) ∉ s.issuedTracks) :
    findPlaylistItem core s.manager id = none := by
  unfold findPlaylistItem
  rw [IdSession.playlistItemGetKey_of_not_issued hid]
  simp only [loadedPlaylistByAIMPId_nil]

end Resolve

/-! ## What each request reports -/

/-- The ids of one reply, each with what it is reported for. -/
structure Reports where
  tracks : List (PlaylistItemKey × PluginId) := []
  playlists : List (Bytes × PluginId) := []

/-- The ids of a listing: a row is about the track its item is. -/
def reportEntries (core : Core ι) (found : List (PlaylistEntryContext ι)) : Reports where
  tracks := found.map fun ctx => (locate core ctx.item, ctx.entryId)
  playlists := found.map fun ctx => ((locate core ctx.item).aimpPlaylistId, ctx.playlistId)

inductive Request
  | getPlaylists (fields : List Bytes)
  | getPlaylistEntries (search : Bytes) (byPlaylist : Option PluginId)
  | getQueuedEntries
  | getPlayerControlPanelState
  | createPlaylist (title : Bytes)

/-- Run a request's handler and collect the ids of its reply. -/
def serve (core : Core ι) : Request → IdM Reports
  | .getPlaylists fields => do
    let reply ← buildPlaylists core fields
    pure { playlists := reply.filterMap fun (playlist, json) => json.id.map (playlist.aimpId, ·) }
  | .getPlaylistEntries search byPlaylist => do
    let reply ← getPlaylistEntries core search byPlaylist
    pure (reportEntries core reply.found)
  | .getQueuedEntries => do
    let reply ← getQueuedEntries core
    pure (reportEntries core reply.found)
  | .getPlayerControlPanelState => do
    let reply ← buildState core
    match reply.bind PlayerPanel.track with
    | none => pure {}
    | some track => pure {
        tracks := [(locate core track.item, track.trackId)]
        playlists := [((locate core track.item).aimpPlaylistId, track.playlistId)] }
  | .createPlaylist title => do
    match ← createPlaylist core title with
    | .error _ => pure {}
    | .ok id => pure { playlists := [(getPlaylistAIMPId (createPlaylistBody core title), id)] }

/-- The ids a reply reports were issued for what they are reported for. -/
def Reports.Issued (r : Reports) (s : IdSession) : Prop :=
  r.tracks ⊆ s.issuedTracks ∧ r.playlists ⊆ s.issuedPlaylists

section Specs

variable {core : Core ι}

theorem issued_stable (r : Reports) : Stable (r.Issued ·) :=
  fun _ _ hst h => ⟨List.Subset.trans h.1 hst.2, List.Subset.trans h.2 hst.1⟩

theorem playlistId_stable (p : Bytes) (id : PluginId) :
    Stable fun s : IdSession => (p, id) ∈ s.issuedPlaylists :=
  fun _ _ hst h => hst.1 h

theorem trackId_stable (key : PlaylistItemKey) (id : PluginId) :
    Stable fun s : IdSession => (key, id) ∈ s.issuedTracks :=
  fun _ _ hst h => hst.2 h

/-- Rows of one playlist: their track ids were issued, and they all carry `id`. -/
structure ListedOf (core : Core ι) (p : Bytes) (id : PluginId)
    (found : List (PlaylistEntryContext ι)) (s : IdSession) : Prop where
  tracks : ∀ ctx ∈ found, (locate core ctx.item, ctx.entryId) ∈ s.issuedTracks
  playlist : ∀ ctx ∈ found, (locate core ctx.item).aimpPlaylistId = p ∧ ctx.playlistId = id

theorem listedOf_stable (p : Bytes) (id : PluginId) (found : List (PlaylistEntryContext ι)) :
    Stable (ListedOf core p id found) :=
  fun _ _ hst h => ⟨fun ctx hctx => hst.2 (h.tracks ctx hctx), h.playlist⟩

theorem ListedOf.issued {p : Bytes} {id : PluginId} {found : List (PlaylistEntryContext ι)}
    {s : IdSession} (h : ListedOf core p id found s) (hid : (p, id) ∈ s.issuedPlaylists) :
    (reportEntries core found).Issued s := by
  constructor
  · intro r hr
    obtain ⟨ctx, hctx, rfl⟩ := List.mem_map.mp hr
    exact h.tracks ctx hctx
  · intro r hr
    obtain ⟨ctx, hctx, rfl⟩ := List.mem_map.mp hr
    have ⟨hp, hcid⟩ := h.playlist ctx hctx
    rw [hp, hcid]
    exact hid

theorem issued_append {xs ys : List (PlaylistEntryContext ι)} {s : IdSession}
    (hx : (reportEntries core xs).Issued s) (hy : (reportEntries core ys).Issued s) :
    (reportEntries core (xs ++ ys)).Issued s := by
  unfold reportEntries Reports.Issued at *
  simp only [List.map_append, List.append_subset]
  exact ⟨⟨hx.1, hy.1⟩, hx.2, hy.2⟩

theorem collectItems_grows (h : Faithful core) (searchString : Option Bytes)
    {playlist : Playlist ι} (hp : playlist ∈ core.playlists) (id : PluginId) (i : Nat)
    (items : List (Option ι)) (hitems : playlist.items.drop i = items) :
    Grows (collectItems core searchString playlist.aimpId id i items)
      (ListedOf core playlist.aimpId id) := by
  induction items generalizing i with
  | nil => exact Grows.pure fun s => ⟨by simp, by simp⟩
  | cons head items ih =>
    have htail : playlist.items.drop (i + 1) = items := by
      rw [← List.drop_drop, hitems]
      rfl
    have hhead : playlist.items[i]? = some head := by
      rw [← List.head?_drop, hitems]
      rfl
    cases head with
    | none => exact ih (i + 1) htail
    | some item =>
      have hlocate := h.locate_eq hp hhead
      refine (trackId_grows playlist.aimpId i).bind (fun _ => trackId_stable _ _) ?_
      intro entryId
      refine (ih (i + 1) htail).bind (listedOf_stable _ _) fun found =>
        Grows.pure fun s hfound htrack => ?_
      -- an entry the search drops has used up an id all the same
      split
      · refine ⟨fun ctx hctx => ?_, fun ctx hctx => ?_⟩
        · rcases List.mem_cons.mp hctx with rfl | hctx
          · rw [PlaylistEntryContext.of, hlocate]
            exact htrack
          · exact hfound.tracks ctx hctx
        · rcases List.mem_cons.mp hctx with rfl | hctx
          · exact ⟨congrArg PlaylistItemKey.aimpPlaylistId hlocate, rfl⟩
          · exact hfound.playlist ctx hctx
      · exact hfound

theorem collectEntries_grows (h : Faithful core) (searchString : Option Bytes)
    {playlist : Playlist ι} (hp : playlist ∈ core.playlists) :
    Grows (collectEntries core searchString playlist) fun r s =>
      (reportEntries core r.2).Issued s := by
  refine (playlistId_grows _).bind (playlistId_stable _) ?_
  intro id
  refine (collectItems_grows h searchString hp id 0 playlist.items rfl).bind
    (listedOf_stable _ _) fun found => Grows.pure fun s hfound hid => ?_
  exact hfound.issued hid

theorem collectAll_grows (h : Faithful core) (searchString : Option Bytes)
    (playlists : List (Playlist ι)) (hp : playlists ⊆ core.playlists) :
    Grows (collectAll core searchString playlists) fun r s =>
      (reportEntries core r.2).Issued s := by
  induction playlists with
  | nil => exact Grows.pure fun s => ⟨List.nil_subset _, List.nil_subset _⟩
  | cons playlist playlists ih =>
    have ⟨hhead, htail⟩ := List.cons_subset.mp hp
    refine (collectEntries_grows h searchString hhead).bind (fun _ => issued_stable _) ?_
    intro one
    refine (ih htail).bind (fun _ => issued_stable _) fun rest => Grows.pure fun s hrest hone => ?_
    exact issued_append hone hrest

theorem playlistsToList_subset (h : Faithful core) (idManager : RemoteControlIdManager)
    (byPlaylist : Option PluginId) :
    playlistsToList core idManager byPlaylist ⊆ core.playlists := by
  cases byPlaylist with
  | none => exact List.Subset.refl _
  | some id =>
    intro playlist hmem
    rw [playlistsToList] at hmem
    split at hmem
    · exact (h.loadedPlaylist_iff.mp (Option.mem_toList.mp hmem)).1
    · cases hmem

theorem getPlaylistEntries_grows (h : Faithful core) (search : Bytes)
    (byPlaylist : Option PluginId) :
    Grows (getPlaylistEntries core search byPlaylist) fun r s =>
      (reportEntries core r.found).Issued s := by
  refine Grows.get_bind ?_
  intro session
  refine (collectAll_grows h _ _ (playlistsToList_subset h session.manager byPlaylist)).bind
    (fun _ => issued_stable _) fun found => ?_
  exact Grows.pure fun s hs => hs

theorem collectQueued_grows (i : Int) (items : List (Option ι)) :
    Grows (collectQueued core i items) fun found s => (reportEntries core found).Issued s := by
  induction items generalizing i with
  | nil => exact Grows.pure fun s => ⟨List.nil_subset _, List.nil_subset _⟩
  | cons head items ih =>
    cases head with
    | none => exact ih (i + 1)
    | some item =>
      refine (trackId_grows _ _).bind (fun _ => trackId_stable _ _) ?_
      intro entryId
      refine (playlistId_grows _).bind (playlistId_stable _) ?_
      intro id
      refine (ih (i + 1)).bind (fun _ => issued_stable _) fun found =>
        Grows.pure fun s hfound hid htrack => ?_
      exact ⟨List.cons_subset.mpr ⟨htrack, hfound.1⟩, List.cons_subset.mpr ⟨hid, hfound.2⟩⟩

theorem getQueuedEntries_grows :
    Grows (getQueuedEntries core) fun r s => (reportEntries core r.found).Issued s := by
  unfold getQueuedEntries
  split
  · exact Grows.pure fun s => ⟨List.nil_subset _, List.nil_subset _⟩
  · next queue _ =>
    exact (collectQueued_grows 0 queue.items).bind (fun _ => issued_stable _)
      fun found => Grows.pure fun s hs => hs

/-- The current track's ids were issued for it. -/
def TrackIssued (core : Core ι) (current : Option (CurrentTrack ι)) (s : IdSession) : Prop :=
  ∀ track, current = some track →
    (locate core track.item, track.trackId) ∈ s.issuedTracks ∧
      ((locate core track.item).aimpPlaylistId, track.playlistId) ∈ s.issuedPlaylists

theorem trackIssued_stable (current : Option (CurrentTrack ι)) :
    Stable (TrackIssued core current) :=
  fun _ _ hst h track htrack => ⟨hst.2 (h track htrack).1, hst.1 (h track htrack).2⟩

theorem addCurrentTrack_grows (player : PlayerService ι) :
    Grows (addCurrentTrack core player) (TrackIssued core) := by
  unfold addCurrentTrack
  split
  · exact Grows.pure fun s track h => by cases h
  · refine (playlistId_grows _).bind (playlistId_stable _) ?_
    intro id
    refine (trackId_grows _ _).bind (fun _ => trackId_stable _ _) ?_
    intro entryId
    apply Grows.pure
    intro s htrack hid track h
    cases h
    exact ⟨htrack, hid⟩

theorem buildState_grows :
    Grows (buildState core) fun reply => TrackIssued core (reply.bind PlayerPanel.track) := by
  unfold buildState
  split
  · exact Grows.pure fun s track h => by cases h
  · next player _ =>
    exact (addCurrentTrack_grows player).bind trackIssued_stable
      fun track => Grows.pure fun s hs => hs

theorem idField_grows (fields : List Bytes) (playlist : Playlist ι) :
    Grows (idField fields playlist) fun r s => ∀ id, r = some id →
      (playlist.id, id) ∈ s.issuedPlaylists := by
  unfold idField
  split
  · refine (playlistId_grows playlist.id).bind (playlistId_stable _) ?_
    intro id'
    apply Grows.pure
    intro s hid id h
    cases h
    exact hid
  · exact Grows.pure fun s id h => by cases h

theorem buildPlaylistJson_grows (fields : List Bytes) (playlist : Playlist ι) :
    Grows (buildPlaylistJson fields playlist) fun json s => ∀ id, json.id = some id →
      (playlist.aimpId, id) ∈ s.issuedPlaylists := by
  unfold buildPlaylistJson
  split
  · exact Grows.pure fun s id h => by cases h
  · next hprops =>
    have haimp : playlist.aimpId = playlist.id := if_pos (by simpa using hprops)
    rw [haimp]
    refine (idField_grows fields playlist).bind
      (fun r s t hst h id hid => hst.1 (h id hid)) ?_
    intro r
    exact Grows.pure fun s hs => hs

theorem buildEach_grows (fields : List Bytes) (playlists : List (Playlist ι)) :
    Grows (buildEach fields playlists) fun reply s => ∀ r ∈ reply, ∀ id, r.2.id = some id →
      (r.1.aimpId, id) ∈ s.issuedPlaylists := by
  induction playlists with
  | nil => exact Grows.pure fun s r hr => by cases hr
  | cons playlist playlists ih =>
    refine (buildPlaylistJson_grows fields playlist).bind
      (fun json s t hst h id hid => hst.1 (h id hid)) ?_
    intro json
    refine ih.bind (fun rest s t hst h r hr id hid => hst.1 (h r hr id hid)) ?_
    intro rest
    apply Grows.pure
    intro s hrest hone r hr
    rcases List.mem_cons.mp hr with rfl | hr
    · exact hone
    · exact hrest r hr

theorem createPlaylist_grows (title : Bytes) :
    Grows (createPlaylist core title) fun r s => ∀ id, r = .ok id →
      (getPlaylistAIMPId (createPlaylistBody core title), id) ∈ s.issuedPlaylists := by
  unfold createPlaylist
  dsimp only
  split
  · exact Grows.pure fun s id h => by cases h
  · refine (playlistId_grows _).bind (playlistId_stable _) ?_
    intro id'
    apply Grows.pure
    intro s hid id h
    cases h
    exact hid

/-- Every id a reply reports was issued for the track or playlist it is reported for. -/
theorem serve_grows (h : Faithful core) (request : Request) :
    Grows (serve core request) Reports.Issued := by
  cases request with
  | getPlaylists fields =>
    refine (buildEach_grows fields core.playlists).bind
      (fun reply s t hst h r hr id hid => hst.1 (h r hr id hid)) ?_
    intro reply
    refine Grows.pure fun s hreply => ⟨List.nil_subset _, fun r hr => ?_⟩
    obtain ⟨⟨playlist, json⟩, hmem, hjson⟩ := List.mem_filterMap.mp hr
    obtain ⟨id, hid, rfl⟩ := Option.map_eq_some_iff.mp hjson
    exact hreply _ hmem id hid
  | getPlaylistEntries search byPlaylist =>
    exact (getPlaylistEntries_grows h search byPlaylist).bind (fun _ => issued_stable _)
      fun reply => Grows.pure fun s hs => hs
  | getQueuedEntries =>
    exact getQueuedEntries_grows.bind (fun _ => issued_stable _)
      fun reply => Grows.pure fun s hs => hs
  | getPlayerControlPanelState =>
    refine buildState_grows.bind (fun _ => trackIssued_stable _) ?_
    intro reply
    cases hreply : reply.bind PlayerPanel.track with
    | none => exact Grows.pure fun s _ => ⟨List.nil_subset _, List.nil_subset _⟩
    | some track =>
      apply Grows.pure
      intro s h
      have ⟨htrack, hplaylist⟩ := h track rfl
      exact ⟨List.cons_subset.mpr ⟨htrack, List.nil_subset _⟩,
        List.cons_subset.mpr ⟨hplaylist, List.nil_subset _⟩⟩
  | createPlaylist title =>
    refine (createPlaylist_grows title).bind
      (fun r s t hst h id hid => hst.1 (h id hid)) ?_
    intro r
    cases r with
    | error code => exact Grows.pure fun s _ => ⟨List.nil_subset _, List.nil_subset _⟩
    | ok id =>
      exact Grows.pure fun s hid =>
        ⟨List.nil_subset _, List.cons_subset.mpr ⟨hid id rfl, List.nil_subset _⟩⟩

end Specs

/-! ## Runs -/

/-- The player, the id manager, and all ids that were reported so far. -/
structure System (ι : Type) where
  core : {core : Core ι // Faithful core}
  ids : IdSession
  reported : Reports

def System.init (core : {core : Core ι // Faithful core}) : System ι where
  core := core
  ids := .empty
  reported := {}

/-- A request, or any change of the player that leaves it `Faithful`. -/
inductive Action (ι : Type)
  | request (request : Request)
  | change (core : {core : Core ι // Faithful core})

/-- One step; `none` only when a probing loop does not end. -/
def System.step (s : System ι) : Action ι → Option (System ι)
  | .request request =>
    (serve s.core.1 request s.ids).map fun (r, ids) => {
      s with
      ids := ids
      reported := {
        tracks := r.tracks ++ s.reported.tracks
        playlists := r.playlists ++ s.reported.playlists } }
  | .change core => some { s with core := core }

theorem step_issued {s t : System ι} {a : Action ι} (h : s.reported.Issued s.ids)
    (hst : s.step a = some t) : t.reported.Issued t.ids := by
  cases a with
  | change core =>
    cases hst
    exact h
  | request request =>
    obtain ⟨⟨r, ids⟩, hserve, rfl⟩ := Option.map_eq_some_iff.mp hst
    have ⟨hle, hr⟩ := serve_grows s.core.2 request s.ids r ids hserve
    have hold := issued_stable s.reported _ _ hle h
    exact ⟨List.append_subset.mpr ⟨hr.1, hold.1⟩, List.append_subset.mpr ⟨hr.2, hold.2⟩⟩

/-- What the reported and the other ids mean in a state of the system. -/
structure IdsMeanTheSame (s : System ι) : Prop where
  /-- A row about an item of a loaded playlist is reported for its place there. -/
  position : ∀ playlist ∈ s.core.1.playlists, ∀ (i : Nat) (item : ι),
    playlist.items[i]? = some (some item) → locate s.core.1 item = ⟨playlist.aimpId, i⟩
  /-- One track id for one playlist and index, whatever the endpoints. -/
  tracks : ∀ key id, (key, id) ∈ s.reported.tracks → ∀ key' id', (key', id') ∈ s.reported.tracks →
    (id = id' ↔ key = key')
  playlists : ∀ p id, (p, id) ∈ s.reported.playlists →
    ∀ q id', (q, id') ∈ s.reported.playlists → (id = id' ↔ p = q)
  /-- A track id leads to the item now at its index of its playlist, or to nothing. -/
  findPlaylistItem : ∀ key id, (key, id) ∈ s.reported.tracks → ∀ item playlist,
    findPlaylistItem s.core.1 s.ids.manager id = some (item, playlist) ↔
      ItemAt s.core.1 key item playlist
  findPlaylist : ∀ p id, (p, id) ∈ s.reported.playlists → ∀ playlist,
    findPlaylist s.core.1 s.ids.manager id = some playlist ↔
      playlist ∈ s.core.1.playlists ∧ playlist.aimpId = p
  /-- An id that was never issued leads nowhere. -/
  unknown_track : ∀ id, (∀ key, (key, id) ∉ s.ids.issuedTracks) →
    RemoteControl.findPlaylistItem s.core.1 s.ids.manager id = none
  unknown_playlist : ∀ id, (∀ p, (p, id) ∉ s.ids.issuedPlaylists) →
    RemoteControl.findPlaylist s.core.1 s.ids.manager id = none

/-- **Ids mean the same on every endpoint**, after every sequence of requests and
changes of the player. -/
theorem ids_mean_the_same {core : {core : Core ι // Faithful core}} {s : System ι}
    (h : Reachable System.step (.init core) s) : IdsMeanTheSame s := by
  have hissued : s.reported.Issued s.ids :=
    h.invariant (I := fun s => s.reported.Issued s.ids)
      ⟨List.nil_subset _, List.nil_subset _⟩ step_issued
  exact {
    position := fun playlist hp i item hi => s.core.2.locate_eq hp hi
    tracks := fun key id hid key' id' hid' =>
      IdSession.track_inj (hissued.1 hid) (hissued.1 hid')
    playlists := fun p id hid q id' hid' =>
      IdSession.playlist_inj (hissued.2 hid) (hissued.2 hid')
    findPlaylistItem := fun key id hid item playlist =>
      s.core.2.findPlaylistItem_issued (hissued.1 hid)
    findPlaylist := fun p id hid playlist => s.core.2.findPlaylist_issued (hissued.2 hid)
    unknown_track := fun id hid => findPlaylistItem_not_issued hid
    unknown_playlist := fun id hid => findPlaylist_not_issued hid }

def samplePlaylist : Playlist Nat where
  hasProperties := true
  id := ascii "P1"
  name := ascii "Default"
  readonly := none
  focusedObject := some 0
  playbackCursor := none
  items := [some 0, some 1]
  files := none
  setName _ := sOk
  addList _ := sOk
  close := sOk
  delete _ := sOk
  delete3 _ := sOk

/-- A player with one playlist of two items, of which the second is also queued. -/
def samplePlayer : Core Nat where
  playlistManager := some {
    loaded := [some samplePlaylist]
    getLoadedPlaylistByID := fun id => [samplePlaylist].find? fun p => p.aimpId = id
    playingPlaylist := none
    activePlaylist := some samplePlaylist
    createPlaylist := fun _ => some samplePlaylist }
  playlistQueue := some { items := [some 1], add := fun _ _ => sOk, delete := fun _ => sOk }
  player := some {
    playlistItem := none
    state := 0
    volume := some 1
    mute := some false
    duration := none
    position := none }
  createString _ := true
  createObjectList := true
  fileUriService := none
  messageProperty _ := none
  find _ _ := none
  itemIndex item := some item
  itemPlaylist _ := some samplePlaylist
  itemFileInfo _ := none
  itemFileName _ := none
  itemMark _ := none
  itemPlayingSwitch _ := none

theorem samplePlayer_faithful : Faithful samplePlayer where
  ids_distinct := List.nodup_singleton _
  id_ne_nil playlist hp := by
    cases List.mem_singleton.mp hp
    exact List.cons_ne_nil _ _
  createString _ _ := rfl
  getLoadedPlaylistByID mgr hmgr aimpId := by
    cases hmgr
    rfl
  position playlist hp i item hi := by
    cases List.mem_singleton.mp hp
    match i, hi with
    | 0, rfl => exact ⟨rfl, rfl⟩
    | 1, rfl => exact ⟨rfl, rfl⟩

/-- All five endpoints in a row, and the player changing under them. -/
theorem ids_mean_the_same_sample :
    ∃ s, run System.step (.init ⟨samplePlayer, samplePlayer_faithful⟩) [
        .request (.getPlaylists [ascii "id"]), .request (.getPlaylistEntries [] none),
        .request .getQueuedEntries, .request .getPlayerControlPanelState,
        .change ⟨samplePlayer, samplePlayer_faithful⟩,
        .request (.createPlaylist (ascii "New"))] = some s ∧
      s.reported.tracks.length = 4 ∧ IdsMeanTheSame s := by
  obtain ⟨s, hs⟩ := Option.isSome_iff_exists.mp
    (show ((run System.step (.init ⟨samplePlayer, samplePlayer_faithful⟩) [
        .request (.getPlaylists [ascii "id"]), .request (.getPlaylistEntries [] none),
        .request .getQueuedEntries, .request .getPlayerControlPanelState,
        .change ⟨samplePlayer, samplePlayer_faithful⟩,
        .request (.createPlaylist (ascii "New"))]).filter
          fun s => s.reported.tracks.length = 4).isSome = true by decide +kernel)
  obtain ⟨hrun, hlength⟩ := Option.filter_eq_some_iff.mp hs
  exact ⟨s, hrun, of_decide_eq_true hlength, ids_mean_the_same ⟨_, hrun⟩⟩

end RemoteControl
