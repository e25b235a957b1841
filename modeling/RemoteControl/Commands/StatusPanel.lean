import RemoteControl.Commands.PanelFacts
import RemoteControl.Commands.PercentScales
import RemoteControl.Commands.SuccessReplies

/-!
# Status and the control panel

Both quantise the same properties of the player: `Access` of statusCommand.cpp and
`BuildState` with `AddCurrentTrack` of getPlayerControlPanelStateCommand.cpp. They take the
same state and flags; of the volume one takes the floor and the other the nearest percent, and
the seconds are cast to 32 bits in one and to 64 in the other.
-/

namespace RemoteControl

variable {ι : Type}

/-! ## The panel, field by field -/

/-- The fields of a panel that was built. -/
structure PlayerPanel.ShowsPlayer (panel : PlayerPanel ι) (core : Core ι)
    (player : PlayerService ι) : Prop where
  playbackState : panel.playbackState = playbackStateName player.state
  volume : panel.volume = lround (player.volume.getD 0 * 100)
  muteModeOn : panel.muteModeOn = player.mute.getD false
  repeatModeOn : panel.repeatModeOn = (core.messageProperty .repeatMode).getD false
  shuffleModeOn : panel.shuffleModeOn = (core.messageProperty .shuffle).getD false
  radioCaptureModeOn : panel.radioCaptureModeOn = (core.messageProperty .radioCap).getD false
  item : panel.track.map CurrentTrack.item = currentItemOf core player
  progress : ∀ track, panel.track = some track →
    track.progress = trackProgress core player track.item

theorem buildState_shows_player {core : Core ι} {player : PlayerService ι} {ids ids' : IdSession}
    {panel : PlayerPanel ι} (hplayer : core.player = some player)
    (h : buildState core ids = some (some panel, ids')) : panel.ShowsPlayer core player := by
  rw [buildState_eq_map hplayer] at h
  obtain ⟨⟨track, s⟩, htrack, heq⟩ := Option.map_eq_some_iff.1 h
  cases heq
  cases hitem : currentItemOf core player with
  | none =>
    unfold addCurrentTrack at htrack
    rw [hitem] at htrack
    cases htrack
    exact ⟨rfl, rfl, rfl, rfl, rfl, rfl, hitem.symm, fun shown hshown => by cases hshown⟩
  | some item =>
    rw [addCurrentTrack_eq_map hitem] at htrack
    obtain ⟨issued, -, heq⟩ := Option.map_eq_some_iff.1 htrack
    cases heq
    refine ⟨rfl, rfl, rfl, rfl, rfl, rfl, hitem.symm, fun shown hshown => ?_⟩
    cases hshown
    rfl

/-- A panel is built when there are ids for the current track. -/
theorem buildState_of_issueIds {core : Core ι} {player : PlayerService ι} {item : ι}
    {ids : IdSession} (hplayer : core.player = some player)
    (hitem : currentItemOf core player = some item)
    (hids : (issueIds (locate core item) ids).isSome = true) :
    ∃ panel ids', buildState core ids = some (some panel, ids') := by
  obtain ⟨issued, hissued⟩ := Option.isSome_iff_exists.1 hids
  rw [buildState_eq_issueIds hplayer hitem, hissued]
  exact ⟨_, _, rfl⟩

/-! ## Status, id by id -/

/-- The dispatcher and the player service report the same values. -/
structure SameValues (core : Core ι) (player : PlayerService ι) (dispatcher : MessageDispatcher) :
    Prop where
  volume : dispatcher.getFloat .volume 0 none = player.volume
  state : dispatcher.getInt .playerState 0 none = some player.state
  mute : (dispatcher.getInt .mute 0 none).map (fun on => decide (on ≠ 0)) = player.mute
  repeatMode : (dispatcher.getInt .repeatMode 0 none).map (fun on => decide (on ≠ 0)) =
    core.messageProperty .repeatMode
  shuffle : (dispatcher.getInt .shuffle 0 none).map (fun on => decide (on ≠ 0)) =
    core.messageProperty .shuffle
  radioCap : (dispatcher.getInt .radioCap 0 none).map (fun on => decide (on ≠ 0)) =
    core.messageProperty .radioCap
  position : dispatcher.getFloat .playerPosition 0 none = player.position
  duration : dispatcher.getFloat .playerDuration 0 none = player.duration

/-- What Status answers when it is asked to read. -/
def statusValue (sources : StatusSources) (id : Int) : Option Int :=
  (access sources id none : Option Int × List (Call Unit)).1

section Read

variable {sources : StatusSources}

theorem accessOther_value (id : Int) (value : Option Int) :
    (accessOther sources id value : Option Int × List (Call ι)).1 =
      (accessOther sources id value : Option Int × List (Call Unit)).1 := by
  unfold accessOther
  split <;> rfl

/-- The value does not depend on the items. -/
theorem access_value (id : Int) :
    (access sources id none : Option Int × List (Call ι)).1 = statusValue sources id := by
  unfold statusValue access
  cases rangeFor id with
  | some range => rfl
  | none =>
    cases boolPropertyFor id with
    | some property => rfl
    | none =>
      dsimp only
      split
      · rfl
      · exact accessOther_value id none

/-- The reply to a request that only reads. -/
theorem status_reply {moment : Moment ι} {params : Json} {id : BitVec 32} {value : Int}
    (hruns : moment.scheduling.Runs) (hid : params.int32 (ascii "status_id") = some id)
    (hread : params.number (ascii "value") = none)
    (hvalue : statusValue sources id.toInt = some value) :
    (status sources moment params).reply = .rpc (.ok (.obj [(ascii "value", .int value)])) := by
  have haccess : (access sources id.toInt none : Option Int × List (Call ι)).1 = some value :=
    (access_value id.toInt).trans hvalue
  unfold status
  rw [hid, hread]
  dsimp only
  rw [runOnMainThread_of_runs hruns, Option.map_none, haccess]

theorem statusValue_state :
    statusValue sources 4 = some ((sources.getInt .playerState none).getD 0) := rfl

theorem statusValue_position :
    statusValue sources 31 =
      some (castInt 32 (truncate ((sources.getFloat .playerPosition 0 none).getD 0))) :=
  rfl

theorem statusValue_length :
    statusValue sources 32 =
      some (castInt 32 ((sources.getFloat .playerDuration 0 none).getD 0).ceil) := rfl

theorem statusValue_volume :
    statusValue sources 1 = some ⌊(sources.getFloat .volume 0 none).getD 0 * 100⌋ := by
  have hrange : statusValue sources 1 =
      some (toPercent ((sources.getFloat .volume 0 none).getD 0)
        { property := .volume, min := 0, max := 1 }) := rfl
  rw [hrange, RangeProperty.toPercent_upper (by simp)]
  simp [Scale.line, mul_comm]

/-- A flag is read as 0 or 1. -/
theorem statusValue_flag {id : Int} {property : DispatcherProperty}
    (hrange : rangeFor id = none) (hflag : boolPropertyFor id = some property) :
    statusValue sources id =
      some (if ((sources.getInt property none).map fun on => decide (on ≠ 0)).getD false
        then 1 else 0) := by
  rw [statusValue, access, hrange, hflag]
  show some (if (sources.getInt property none).getD 0 ≠ 0 then 1 else 0) = _
  cases sources.getInt property none with
  | none => rfl
  | some on => simp

end Read

/-! ## Agreement -/

/-- The state and the flags Status answers are those of the panel. -/
structure AgreesOnFlags (sources : StatusSources) (panel : PlayerPanel ι) : Prop where
  state : ∃ state, statusValue sources 4 = some state ∧
    panel.playbackState = playbackStateName state
  mute : statusValue sources 5 = some (if panel.muteModeOn then 1 else 0)
  repeatMode : statusValue sources 29 = some (if panel.repeatModeOn then 1 else 0)
  radioCapture : statusValue sources 38 = some (if panel.radioCaptureModeOn then 1 else 0)
  shuffle : statusValue sources 41 = some (if panel.shuffleModeOn then 1 else 0)

/-- The values Status answers are the fields of the panel. -/
structure Agrees (sources : StatusSources) (panel : PlayerPanel ι) : Prop
    extends AgreesOnFlags sources panel where
  volume : statusValue sources 1 = some panel.volume
  seconds : ∀ track, panel.track = some track → statusValue sources 4 ≠ some 0 →
    ∃ progress, track.progress = some progress ∧
      statusValue sources 31 = some progress.trackPosition ∧
      statusValue sources 32 = some progress.trackLength

/-- The whole seconds of a player fit in 32 bits. -/
structure PlayerService.SecondsFit (player : PlayerService ι) : Prop where
  position : player.position.getD 0 < 2 ^ 31
  duration : player.duration.getD 0 ≤ 2 ^ 31 - 1

section Agreement

variable {core : Core ι} {player : PlayerService ι} {sources : StatusSources}
  {dispatcher : MessageDispatcher} {panel : PlayerPanel ι}

/-- A reading without a value is the dispatcher's. -/
theorem getInt_eq (hsources : sources.dispatcher = some dispatcher)
    (property : DispatcherProperty) :
    sources.getInt property none = dispatcher.getInt property 0 none := by
  rw [StatusSources.getInt, hsources]
  rfl

theorem getFloat_eq (hsources : sources.dispatcher = some dispatcher)
    (property : DispatcherProperty) :
    sources.getFloat property 0 none = dispatcher.getFloat property 0 none := by
  rw [StatusSources.getFloat, hsources]
  rfl

theorem statusValue_playerState (hsources : sources.dispatcher = some dispatcher)
    (hsame : SameValues core player dispatcher) : statusValue sources 4 = some player.state := by
  rw [statusValue_state, getInt_eq hsources, hsame.state]
  rfl

theorem agreesOnFlags (hsources : sources.dispatcher = some dispatcher)
    (hsame : SameValues core player dispatcher) (hpanel : panel.ShowsPlayer core player) :
    AgreesOnFlags sources panel := by
  refine ⟨⟨player.state, statusValue_playerState hsources hsame, hpanel.playbackState⟩,
    ?_, ?_, ?_, ?_⟩
  · have hflag : boolPropertyFor 5 = some .mute := rfl
    rw [statusValue_flag rfl hflag, getInt_eq hsources, hsame.mute, hpanel.muteModeOn]
  · rw [statusValue_flag rfl rfl, getInt_eq hsources, hsame.repeatMode, hpanel.repeatModeOn]
  · rw [statusValue_flag rfl rfl, getInt_eq hsources, hsame.radioCap, hpanel.radioCaptureModeOn]
  · rw [statusValue_flag rfl rfl, getInt_eq hsources, hsame.shuffle, hpanel.shuffleModeOn]

/-- The casts to 32 and to 64 bits agree on the seconds that fit in 32. -/
theorem seconds_agree_iff (hposition : 0 ≤ player.position.getD 0)
    (hduration : 0 ≤ player.duration.getD 0) :
    castInt 32 (truncate (player.position.getD 0)) =
          castInt 64 (truncate (player.position.getD 0)) ∧
        castInt 32 (player.duration.getD 0).ceil = castInt 64 (player.duration.getD 0).ceil ↔
      player.SecondsFit := by
  have hceil : (player.duration.getD 0).ceil = ⌈player.duration.getD 0⌉ :=
    Rat.ceil_eq_neg_floor_neg _
  have hfloor := truncate_eq_floor hposition
  rw [castInt_32_eq_64 (by rw [hfloor]; exact Int.floor_nonneg.2 hposition),
    castInt_32_eq_64 (by rw [hceil]; exact Int.ceil_nonneg hduration), hfloor, Int.floor_lt, hceil,
    ← Int.le_sub_one_iff, Int.ceil_le]
  push_cast
  exact ⟨fun h => ⟨h.1, by linarith [h.2]⟩, fun h => ⟨h.position, by linarith [h.duration]⟩⟩

/-- **Status and the panel agree while the volume is below the half of its percent and the
seconds of a running track fit in 32 bits, and only then.** -/
theorem status_agrees_iff {ids ids' : IdSession} {volume : Rat}
    (hsources : sources.dispatcher = some dispatcher) (hplayer : core.player = some player)
    (hsame : SameValues core player dispatcher) (hvolume : player.volume = some volume)
    (hrange : 0 ≤ volume ∧ volume ≤ 1) (hposition : 0 ≤ player.position.getD 0)
    (hduration : 0 ≤ player.duration.getD 0)
    (hbuild : buildState core ids = some (some panel, ids')) :
    Agrees sources panel ↔ Int.fract (volume * 100) < 1 / 2 ∧
      ((currentItemOf core player).isSome → player.state ≠ 0 → player.SecondsFit) := by
  have hpanel := buildState_shows_player hplayer hbuild
  have hstate := statusValue_playerState hsources hsame
  have hstatus : statusValue sources 1 = some ⌊volume * 100⌋ := by
    rw [statusValue_volume, getFloat_eq hsources, hsame.volume, hvolume, Option.getD_some]
  have hshown : panel.volume = lround (volume * 100) := by
    rw [hpanel.volume, hvolume, Option.getD_some]
  have hpositive : 0 ≤ volume * 100 := mul_nonneg hrange.1 (by norm_num)
  have hread31 : statusValue sources 31 = _ := statusValue_position
  rw [getFloat_eq hsources, hsame.position] at hread31
  have hread32 : statusValue sources 32 = _ := statusValue_length
  rw [getFloat_eq hsources, hsame.duration] at hread32
  rw [← lround_eq_floor_iff hpositive, ← hshown, ← seconds_agree_iff hposition hduration,
    ← hpanel.item, Option.isSome_map]
  constructor
  · intro h
    refine ⟨Option.some.inj (h.volume.symm.trans hstatus), fun hsome hrunning => ?_⟩
    obtain ⟨track, htrack⟩ := Option.isSome_iff_exists.1 hsome
    obtain ⟨progress, hprogress, h31, h32⟩ :=
      h.seconds track htrack (by rw [hstate]; exact fun heq => hrunning (Option.some.inj heq))
    rw [hpanel.progress track htrack, trackProgress, if_pos hrunning] at hprogress
    cases hprogress
    exact ⟨Option.some.inj (hread31.symm.trans h31), Option.some.inj (hread32.symm.trans h32)⟩
  · rintro ⟨hfloor, hseconds⟩
    refine ⟨agreesOnFlags hsources hsame hpanel, by rw [hstatus, hfloor],
      fun track htrack hne => ?_⟩
    have hrunning : player.state ≠ 0 := fun hstopped => hne (by rw [hstate, hstopped])
    obtain ⟨h31, h32⟩ := hseconds (by rw [htrack]; rfl) hrunning
    have hprogress := hpanel.progress track htrack
    rw [trackProgress, if_pos hrunning] at hprogress
    exact ⟨_, hprogress, by rw [hread31, h31], by rw [hread32, h32]⟩

end Agreement

/-! ## One playing track -/

def playingService (volume : Rat) : PlayerService Unit where
  playlistItem := some ()
  state := 2
  volume := some volume
  mute := some false
  duration := some (493 / 2)
  position := some (61 / 2)

def playingCore (volume : Rat) : Core Unit :=
  { emptyPlayer with
    player := some (playingService volume)
    itemPlaylist := fun _ => some onlyPlaylist
    itemIndex := fun _ => some 0
    messageProperty := fun _ => some true }

def playingDispatcher (volume : Rat) : MessageDispatcher where
  set _ _ _ := sOk
  getFloat
    | .volume, _, _ => some volume
    | .playerPosition, _, _ => some (61 / 2)
    | .playerDuration, _, _ => some (493 / 2)
    | _, _, _ => none
  getInt
    | .playerState, _, _ => some 2
    | .mute, _, _ => some 0
    | _, _, _ => some 1

theorem playing_sameValues (volume : Rat) :
    SameValues (playingCore volume) (playingService volume) (playingDispatcher volume) :=
  ⟨rfl, rfl, rfl, rfl, rfl, rfl, rfl, rfl⟩

theorem playing_buildState (volume : Rat) :
    ∃ panel ids, buildState (playingCore volume) .empty = some (some panel, ids) :=
  buildState_of_issueIds rfl (show currentItemOf _ _ = some () from rfl)
    (show (issueIds ⟨ascii "P", 0⟩ IdSession.empty).isSome = true by decide +kernel)

/-- At a volume of 0.996 Status answers 99 and the panel shows 100. -/
theorem volume_disagrees :
    ∃ panel ids, buildState (playingCore (249 / 250)) .empty = some (some panel, ids) ∧
      SameValues (playingCore (249 / 250)) (playingService (249 / 250))
        (playingDispatcher (249 / 250)) ∧
      statusValue ⟨some (playingDispatcher (249 / 250)), none⟩ 1 = some 99 ∧ panel.volume = 100 ∧
      ¬Agrees ⟨some (playingDispatcher (249 / 250)), none⟩ panel := by
  obtain ⟨panel, ids, hbuild⟩ := playing_buildState (249 / 250)
  have hpanel : panel.volume = 100 :=
    (buildState_shows_player rfl hbuild).volume.trans (by decide +kernel)
  have hstatus : statusValue ⟨some (playingDispatcher (249 / 250)), none⟩ 1 = some 99 := by
    decide +kernel
  refine ⟨panel, ids, hbuild, playing_sameValues _, hstatus, hpanel, ?_⟩
  intro h
  have hvolume := h.volume
  rw [hstatus, hpanel] at hvolume
  exact absurd hvolume (by decide)

theorem status_agrees_at_80 :
    ∃ panel ids, buildState (playingCore (4 / 5)) .empty = some (some panel, ids) ∧
      Agrees ⟨some (playingDispatcher (4 / 5)), none⟩ panel := by
  obtain ⟨panel, ids, hbuild⟩ := playing_buildState (4 / 5)
  exact ⟨panel, ids, hbuild, (status_agrees_iff rfl rfl (playing_sameValues _) rfl
    (by decide +kernel) (by decide +kernel) (by decide +kernel) hbuild).2
    ⟨by decide +kernel, fun _ _ => ⟨by decide +kernel, by decide +kernel⟩⟩⟩

end RemoteControl
