import RemoteControl.Commands.TrackIds

/-!
# What the control panel shows

* `PanelFacts`: the fields of the panel, with the current track named by its playlist and
  index and not by the ids that are issued for it.
* `panelShown_eq`: the visible panel is the facts with the ids of the current track.
* `panelShown_again`: once the panel was built it is the same until the facts change.
* `panelShown_ne`: another track then makes another panel.
-/

namespace RemoteControl

open Growth

variable {ι : Type}

/-! ## The visible panel -/

structure VisibleTrack where
  playlistId : PluginId
  trackId : PluginId
  /-- `track_length` and `current_track_source_radio`, unless stopped. -/
  progress : Option (Int × Bool)
deriving DecidableEq

/-- The reply of `GetPlayerControlPanelState` without `track_position`. -/
structure VisiblePanel where
  playbackState : Bytes
  volume : Int
  muteModeOn : Bool
  repeatModeOn : Bool
  shuffleModeOn : Bool
  radioCaptureModeOn : Bool
  track : Option VisibleTrack
deriving DecidableEq

def CurrentTrack.visible (track : CurrentTrack ι) : VisibleTrack where
  playlistId := track.playlistId
  trackId := track.trackId
  progress := track.progress.map fun progress =>
    (progress.trackLength, progress.currentTrackSourceRadio)

def PlayerPanel.visible (panel : PlayerPanel ι) : VisiblePanel where
  playbackState := panel.playbackState
  volume := panel.volume
  muteModeOn := panel.muteModeOn
  repeatModeOn := panel.repeatModeOn
  shuffleModeOn := panel.shuffleModeOn
  radioCaptureModeOn := panel.radioCaptureModeOn
  track := panel.track.map CurrentTrack.visible

/-- What `BuildState` would return now. -/
def panelShown (core : Core ι) (ids : IdSession) : Option (Option VisiblePanel) :=
  (buildState core ids).map fun (panel, _) => panel.map PlayerPanel.visible

/-! ## The facts -/

structure TrackFacts where
  key : PlaylistItemKey
  progress : Option (Int × Bool)

structure PanelFacts where
  playbackState : Bytes
  volume : Int
  muteModeOn : Bool
  repeatModeOn : Bool
  shuffleModeOn : Bool
  radioCaptureModeOn : Bool
  track : Option TrackFacts

def trackFacts (core : Core ι) (player : PlayerService ι) : Option TrackFacts :=
  (currentItemOf core player).map fun item => {
    key := locate core item
    progress :=
      if player.state ≠ 0 then some (castInt 64 (player.duration.getD 0).ceil, isUrl core item)
      else none }

def panelFacts (core : Core ι) : Option PanelFacts :=
  core.player.map fun player => {
    playbackState := playbackStateName player.state
    volume := lround (player.volume.getD 0 * 100)
    muteModeOn := player.mute.getD false
    repeatModeOn := (core.messageProperty .repeatMode).getD false
    shuffleModeOn := (core.messageProperty .shuffle).getD false
    radioCaptureModeOn := (core.messageProperty .radioCap).getD false
    track := trackFacts core player }

/-- The ids that are issued for the current track. -/
def issueIds (key : PlaylistItemKey) : IdM (PluginId × PluginId) := do
  let playlistId ← playlistId key.aimpPlaylistId
  let trackId ← trackId key.aimpPlaylistId key.index
  pure (playlistId, trackId)

def TrackFacts.visible (facts : TrackFacts) : IdM VisibleTrack :=
  (fun ids => { playlistId := ids.1, trackId := ids.2, progress := facts.progress }) <$>
    issueIds facts.key

def PanelFacts.visible (facts : PanelFacts) : IdM VisiblePanel :=
  (fun track => {
    playbackState := facts.playbackState
    volume := facts.volume
    muteModeOn := facts.muteModeOn
    repeatModeOn := facts.repeatModeOn
    shuffleModeOn := facts.shuffleModeOn
    radioCaptureModeOn := facts.radioCaptureModeOn
    track }) <$> facts.track.mapM TrackFacts.visible

/-! ## The panel from its facts -/

theorem addCurrentTrack_visible (core : Core ι) (player : PlayerService ι) :
    Option.map CurrentTrack.visible <$> addCurrentTrack core player =
      (trackFacts core player).mapM TrackFacts.visible := by
  unfold addCurrentTrack trackFacts
  cases currentItemOf core player with
  | none => simp
  | some item =>
    by_cases hstate : player.state = 0
    · simp [TrackFacts.visible, issueIds, CurrentTrack.visible, hstate]
    · simp [TrackFacts.visible, issueIds, CurrentTrack.visible, hstate]

theorem buildState_visible (core : Core ι) :
    Option.map PlayerPanel.visible <$> buildState core =
      (panelFacts core).mapM PanelFacts.visible := by
  unfold buildState panelFacts
  cases core.player with
  | none => simp
  | some player =>
    simp [PanelFacts.visible, ← addCurrentTrack_visible, PlayerPanel.visible]

theorem panelShown_eq_map (core : Core ι) (ids : IdSession) :
    panelShown core ids =
      ((Option.map PlayerPanel.visible <$> buildState core) ids).map Prod.fst := by
  unfold panelShown
  change _ = ((buildState core ids).bind fun result => _).map Prod.fst
  cases buildState core ids with
  | none => rfl
  | some result => rfl

theorem panelShown_eq (core : Core ι) (ids : IdSession) :
    panelShown core ids = ((panelFacts core).mapM PanelFacts.visible ids).map Prod.fst := by
  rw [panelShown_eq_map, buildState_visible]

/-- The panel is the same wherever its facts are. -/
theorem panelShown_congr {core core' : Core ι} (h : panelFacts core' = panelFacts core)
    (ids : IdSession) : panelShown core' ids = panelShown core ids := by
  rw [panelShown_eq, panelShown_eq, h]

/-! ## Ids that are issued stay -/

theorem issueIds_grows (key : PlaylistItemKey) : Grows (issueIds key) fun ids s =>
    (key.aimpPlaylistId, ids.1) ∈ s.issuedPlaylists ∧ (key, ids.2) ∈ s.issuedTracks := by
  refine (playlistId_grows _).bind (playlistId_stable _) ?_
  intro playlistId
  refine (trackId_grows _ _).bind (fun _ => trackId_stable _ _) ?_
  intro trackId
  exact Grows.pure fun s htrack hplaylist => ⟨hplaylist, htrack⟩

/-- With room for one more id of either kind they are issued. -/
theorem issueIds_of_room (key : PlaylistItemKey) {s : IdSession} {n : Nat}
    (h : s.RoomFor (n + 1)) : ∃ issued, issueIds key s = some issued ∧ issued.2.RoomFor n := by
  have ⟨hplaylists, hitems⟩ := h
  obtain ⟨p, t, hp, hplaylists', hitems'⟩ :=
    playlistId_of_room (p := key.aimpPlaylistId) (s := s) (by omega)
  obtain ⟨i, u, hi, hplaylists'', hitems''⟩ :=
    trackId_of_room (p := key.aimpPlaylistId) (i := key.index) (s := t) (by omega)
  have hissued : issueIds key s = some ((p, i), u) := bind_returns hp (bind_returns hi rfl)
  have hroom : u.RoomFor n := ⟨by omega, by omega⟩
  exact ⟨((p, i), u), hissued, hroom⟩

theorem issueIds_repeats (key : PlaylistItemKey) : Repeats (issueIds key) := by
  intro s ids t h
  have ⟨hplaylist, htrack⟩ := (issueIds_grows key s ids t h).2
  obtain ⟨u, hu⟩ := playlistId_of_issued hplaylist
  have hle : t ≤ u := (playlistId_grows _ t ids.1 u hu).1
  obtain ⟨v, hv⟩ := trackId_of_issued (trackId_stable _ _ t u hle htrack)
  refine ⟨v, ?_⟩
  change ((playlistId key.aimpPlaylistId t).bind fun p => _) = _
  rw [hu]
  change ((trackId key.aimpPlaylistId key.index u).bind fun p => _) = _
  rw [hv]
  rfl

theorem PanelFacts.visible_repeats (facts : PanelFacts) : Repeats facts.visible := by
  refine Repeats.map ?_
  cases facts.track with
  | none => exact Repeats.pure
  | some track => exact (issueIds_repeats track.key).map.map

theorem panelShown_of_build {core : Core ι} {ids ids' : IdSession} {panel : Option (PlayerPanel ι)}
    (h : buildState core ids = some (panel, ids')) :
    panelShown core ids = some (panel.map PlayerPanel.visible) := by
  rw [panelShown, h, Option.map_some]

/-- A panel that was built is built the same again. -/
theorem panelShown_again {core : Core ι} {ids ids' : IdSession} {panel : Option (PlayerPanel ι)}
    (h : buildState core ids = some (panel, ids')) :
    panelShown core ids' = panelShown core ids := by
  have hrepeats : Repeats (Option.map PlayerPanel.visible <$> buildState core) := by
    rw [buildState_visible]
    cases panelFacts core with
    | none => exact Repeats.pure
    | some facts => exact facts.visible_repeats.map
  obtain ⟨u, hagain⟩ := hrepeats ids _ ids' (map_returns _ h)
  rw [panelShown_of_build h, panelShown_eq_map, hagain, Option.map_some]

/-! ## The panel from the ids -/

/-- What `AddCurrentTrack` shows of the running track. -/
def trackProgress (core : Core ι) (player : PlayerService ι) (item : ι) : Option TrackProgress :=
  if player.state ≠ 0 then
    some {
      trackLength := castInt 64 (player.duration.getD 0).ceil
      trackPosition := castInt 64 (truncate (player.position.getD 0))
      currentTrackSourceRadio := isUrl core item }
  else none

/-- The current track with the ids that are issued for it. -/
def shownTrack (core : Core ι) (player : PlayerService ι) (item : ι)
    (issued : PluginId × PluginId) : CurrentTrack ι where
  item := item
  playlistId := issued.1
  trackId := issued.2
  progress := trackProgress core player item

/-- The panel with this track on it. -/
def shownPanel (core : Core ι) (player : PlayerService ι) (track : Option (CurrentTrack ι)) :
    PlayerPanel ι where
  playbackState := playbackStateName player.state
  volume := lround (player.volume.getD 0 * 100)
  muteModeOn := player.mute.getD false
  repeatModeOn := (core.messageProperty .repeatMode).getD false
  shuffleModeOn := (core.messageProperty .shuffle).getD false
  radioCaptureModeOn := (core.messageProperty .radioCap).getD false
  track := track

theorem addCurrentTrack_eq_map {core : Core ι} {player : PlayerService ι} {item : ι}
    (hitem : currentItemOf core player = some item) (ids : IdSession) :
    addCurrentTrack core player ids = (issueIds (locate core item) ids).map fun issued =>
      (some (shownTrack core player item issued.1), issued.2) := by
  unfold addCurrentTrack
  rw [hitem]
  change (playlistId (locate core item).aimpPlaylistId ids).bind _ =
    ((playlistId (locate core item).aimpPlaylistId ids).bind _).map _
  cases playlistId (locate core item).aimpPlaylistId ids with
  | none => rfl
  | some playlist =>
    change (trackId (locate core item).aimpPlaylistId (locate core item).index playlist.2).bind _ =
      ((trackId (locate core item).aimpPlaylistId (locate core item).index playlist.2).bind _).map _
    cases trackId (locate core item).aimpPlaylistId (locate core item).index playlist.2 with
    | none => rfl
    | some track => rfl

theorem buildState_eq_map {core : Core ι} {player : PlayerService ι}
    (hplayer : core.player = some player) (ids : IdSession) :
    buildState core ids = (addCurrentTrack core player ids).map fun current =>
      (some (shownPanel core player current.1), current.2) := by
  unfold buildState
  rw [hplayer]
  change (addCurrentTrack core player ids).bind _ = _
  cases addCurrentTrack core player ids with
  | none => rfl
  | some current => rfl

/-- With a current track the panel is built when its ids are issued, and shows them. -/
theorem buildState_eq_issueIds {core : Core ι} {player : PlayerService ι} {item : ι}
    (hplayer : core.player = some player) (hitem : currentItemOf core player = some item)
    (ids : IdSession) :
    buildState core ids = (issueIds (locate core item) ids).map fun issued =>
      (some (shownPanel core player (some (shownTrack core player item issued.1))), issued.2) := by
  rw [buildState_eq_map hplayer, addCurrentTrack_eq_map hitem, Option.map_map]
  rfl

/-! ## Different tracks look different -/

/-- The track is shown under an id that was issued for it. -/
def TrackFacts.Shows (s : IdSession) (facts : TrackFacts) (track : VisibleTrack) : Prop :=
  (facts.key, track.trackId) ∈ s.issuedTracks ∧ track.progress = facts.progress

theorem TrackFacts.Shows.mono {s t : IdSession} {facts : TrackFacts} {track : VisibleTrack}
    (h : facts.Shows s track) (hle : s ≤ t) : facts.Shows t track := ⟨hle.2 h.1, h.2⟩

/-- An id belongs to one key. -/
theorem TrackFacts.Shows.eq {s : IdSession} {facts facts' : TrackFacts} {track : VisibleTrack}
    (h : facts.Shows s track) (h' : facts'.Shows s track) : facts = facts' := by
  have hkey : facts.key = facts'.key := (IdSession.track_inj h.1 h'.1).mp rfl
  have hprogress : facts.progress = facts'.progress := h.2.symm.trans h'.2
  cases facts
  cases facts'
  cases hkey
  cases hprogress
  rfl

/-- A track on display that stays there is the same. -/
theorem TrackFacts.eq_of_shows {s t : IdSession} {facts facts' : Option TrackFacts}
    {track : Option VisibleTrack} (hle : s ≤ t) (h : Option.Rel (TrackFacts.Shows s) facts track)
    (h' : Option.Rel (TrackFacts.Shows t) facts' track) : facts' = facts := by
  cases h with
  | none =>
    cases h'
    rfl
  | some hshows =>
    cases h' with
    | some hshows' => exact congrArg some (hshows'.eq (hshows.mono hle))

theorem TrackFacts.visible_grows (facts : TrackFacts) :
    Grows facts.visible fun track s => facts.Shows s track :=
  (issueIds_grows facts.key).map fun _ _ hids => ⟨hids.2, rfl⟩

theorem buildState_shows (core : Core ι) :
    Grows (Option.map PlayerPanel.visible <$> buildState core) fun panel s =>
      Option.Rel (TrackFacts.Shows s) ((panelFacts core).bind PanelFacts.track)
        (panel.bind VisiblePanel.track) := by
  rw [buildState_visible]
  cases panelFacts core with
  | none => exact Grows.pure fun s => .none
  | some facts =>
    have htrack : Grows (facts.track.mapM TrackFacts.visible) fun track s =>
        Option.Rel (TrackFacts.Shows s) facts.track track := by
      cases facts.track with
      | none => exact Grows.pure fun s => .none
      | some track => exact track.visible_grows.map fun _ _ hshows => .some hshows
    have hpanel : Grows facts.visible fun panel s =>
        Option.Rel (TrackFacts.Shows s) facts.track panel.track :=
      htrack.map fun _ _ hshows => hshows
    exact hpanel.map fun _ _ hshows => hshows

/-- Once the panel was built, another track makes another panel. -/
theorem panelShown_ne {core core' : Core ι} {ids ids' : IdSession}
    {panel : Option (PlayerPanel ι)} (hbuild : buildState core ids = some (panel, ids'))
    (htracks : (panelFacts core').bind PanelFacts.track ≠ (panelFacts core).bind PanelFacts.track) :
    panelShown core' ids' ≠ panelShown core ids' := by
  intro heq
  rw [panelShown_again hbuild, panelShown_of_build hbuild] at heq
  obtain ⟨⟨panel', t⟩, hbuild', hpanel⟩ := Option.map_eq_some_iff.mp heq
  have hshown := (buildState_shows core ids _ ids' (map_returns _ hbuild)).2
  have ⟨hle, hshown'⟩ := buildState_shows core' ids' _ t (map_returns _ hbuild')
  change panel'.map PlayerPanel.visible = _ at hpanel
  rw [hpanel] at hshown'
  exact htracks (TrackFacts.eq_of_shows hle hshown hshown')

end RemoteControl
