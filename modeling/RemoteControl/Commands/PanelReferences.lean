import RemoteControl.Commands.References

/-!
# The control panel, with its references

`BuildState` and the tasks that start with it: Play, PlayNext and PlayPrevious.
-/

namespace RemoteControl.Counted

open References

variable {σ ι : Type} {held : Multiset Nat}
variable (core : Core ι) (controls : PlayerControls ι)

/-! ## The current item -/

/-- The playing playlist, else the active one. -/
def currentPlaylist : Counted σ (Option (Ref (Playlist ι))) := do
  let mgr ← take core.playlistManager
  withRef mgr (pure none) fun mgr =>
    firstOf (query mgr fun mgr => mgr.playingPlaylist) (query mgr fun mgr => mgr.activePlaylist)

/-- The focused object, else the playback cursor. -/
def focusedItem (playlist : Ref (Playlist ι)) : Counted σ (Option (Ref ι)) := do
  let props ← query playlist propertiesOf
  withRef props (pure none) fun props =>
    firstOf (query props fun props => props.focusedObject)
      (query props fun props => props.playbackCursor)

def firstItem (playlist : Ref (Playlist ι)) : Counted σ (Option (Ref ι)) := do
  let count ← call playlist fun playlist => playlist.items.length
  if count > 0 then query playlist fun playlist => playlist.getItem 0 else pure none

/-- `CurrentItemOf`. -/
def currentItemOf (player : Ref (PlayerService ι)) : Counted σ (Option (Ref ι)) :=
  firstOf (query player fun player => player.playlistItem) do
    let playlist ← currentPlaylist core
    withRef playlist (pure none) fun playlist => firstOf (focusedItem playlist) (firstItem playlist)

/-- `GetPlayerControlPanelStateCommand::CurrentItem`. -/
def currentItem : Counted σ (Option (Ref ι)) := do
  let player ← take core.player
  withRef player (pure none) (currentItemOf core)

/-! ## The state -/

/-- The dispatcher; one that answers no property is as good as none. -/
def dispatcherOf : Option (MessageProperty → Option Bool) :=
  if core.messageProperty .repeatMode = none ∧ core.messageProperty .shuffle = none ∧
      core.messageProperty .radioCap = none then none
  else some core.messageProperty

/-- `GetBoolProperty`. -/
def getBoolProperty (dispatcher : Option (Ref (MessageProperty → Option Bool)))
    (property : MessageProperty) : Counted σ Bool :=
  match dispatcher with
  | none => pure false
  | some dispatcher => call dispatcher fun send => (send property).getD false

def readModes (dispatcher : Option (Ref (MessageProperty → Option Bool))) :
    Counted σ (Bool × Bool × Bool) := do
  let repeatModeOn ← getBoolProperty dispatcher .repeatMode
  let shuffleModeOn ← getBoolProperty dispatcher .shuffle
  let radioCaptureModeOn ← getBoolProperty dispatcher .radioCap
  pure (repeatModeOn, shuffleModeOn, radioCaptureModeOn)

def modes : Counted σ (Bool × Bool × Bool) := do
  let dispatcher ← take (dispatcherOf core)
  withRef dispatcher (readModes none) fun dispatcher => readModes (some dispatcher)

/-- `IsUrl`. -/
def isUrl (item : Ref ι) : Counted σ Bool := do
  let fileName ← query item core.itemFileName
  withRef fileName (pure false) fun fileName => do
    let uriService ← take core.fileUriService
    withRef uriService (pure false) fun uriService => do
      let fileName ← iaimpStringToString fileName
      call uriService fun uriService => uriService.isUrl fileName

/-- The id of the playlist an item says it is in; `GetPlaylistAIMPId` of no playlist is empty. -/
def playlistIdOf (item : Ref ι) : Counted σ Bytes := do
  let playlist ← query item core.itemPlaylist
  withRef playlist (pure []) fun playlist => getPlaylistAIMPId (some playlist)

def trackProgress (player : Ref (PlayerService ι)) (item : Ref ι) :
    Counted σ (Option TrackProgress) := do
  let state ← call player fun player => player.state
  if state ≠ 0 then do
    let duration ← call player fun player => player.duration.getD 0
    let position ← call player fun player => player.position.getD 0
    let radio ← isUrl core item
    pure (some {
      trackLength := castInt 64 duration.ceil
      trackPosition := castInt 64 (truncate position)
      currentTrackSourceRadio := radio })
  else pure none

/-- `AddCurrentTrack`. -/
def addCurrentTrack (player : Ref (PlayerService ι)) :
    Counted IdSession (Option (CurrentTrack ι)) := do
  let item ← currentItemOf core player
  withRef item (pure none) fun item => do
    let aimpId ← playlistIdOf core item
    let index ← call item fun item => (core.itemIndex item).getD 0
    let playlistId ← plainly (RemoteControl.playlistId aimpId)
    let trackId ← plainly (RemoteControl.trackId aimpId index)
    let progress ← trackProgress core player item
    pure (some { item := item.object, playlistId, trackId, progress })

/-- `BuildState`. -/
def buildState : Counted IdSession (Option (PlayerPanel ι)) := do
  let player ← take core.player
  withRef player (pure none) fun player => do
    let state ← call player fun player => player.state
    let volume ← call player fun player => player.volume.getD 0
    let mute ← call player fun player => player.mute.getD false
    let (repeatModeOn, shuffleModeOn, radioCaptureModeOn) ← modes core
    let track ← addCurrentTrack core player
    pure (some {
      playbackState := playbackStateName state
      volume := lround (volume * 100)
      muteModeOn := mute
      repeatModeOn, shuffleModeOn, radioCaptureModeOn, track })

/-! ## Play -/

/-- What was playing, or else the track that is about to. -/
def stateBefore (trackId : PluginId) (playlist : Ref (Playlist ι)) :
    Counted IdSession (Bytes × PluginId × PluginId) := do
  let panel ← buildState core
  match panelBefore panel with
  | (playbackState, some ids) => pure (playbackState, ids)
  | (playbackState, none) => do
    let aimpId ← getPlaylistAIMPId (some playlist)
    let id ← plainly (RemoteControl.playlistId aimpId)
    pure (playbackState, id, trackId)

/-- `Play2`, where there is a player. -/
def play2 (item : Ref ι) : Counted IdSession (List (Call ι)) := do
  let player ← take core.player
  withRef player (pure []) fun player => do
    let item ← call item fun item => item
    call player fun _ => [⟨.play2 item, controls.play2 item⟩]

/-- The playlist is given back before the player is told to play. -/
def playTask (trackId : PluginId) :
    Counted IdSession (Option (Bytes × PluginId × PluginId) × List (Call ι)) := do
  let session ← plainly get
  let found ← findPlaylistItem core session.manager trackId true
  match found.1 with
  | none => pure (none, [])
  | some item => releasing item do
    let playlist ← deref found.2
    let before ← releasing playlist (stateBefore core trackId playlist)
    let calls ← play2 core controls item
    pure (some before, calls)

/-! ## PlayNext and PlayPrevious -/

def propertiesOfNonempty (playlist : Ref (Playlist ι)) (count : Int) :
    Counted σ (Option (Ref (Playlist ι))) :=
  if count > 0 then query playlist propertiesOf else pure none

/-- `MoveFocus`. -/
def moveFocus (answer : HRESULT) (item : Ref ι) (delta : Int) : Counted σ (Bool × List (Call ι)) := do
  let playlist ← query item core.itemPlaylist
  withRef playlist (pure (false, [])) fun playlist => do
    let index ← call item fun item => (core.itemIndex item).getD 0
    let count ← call playlist fun playlist => (playlist.items.length : Int)
    let props ← propertiesOfNonempty playlist count
    withRef props (pure (false, [])) fun props => do
      let target := ((index + delta).tmod count + count).tmod count
      call props fun props =>
        (succeeded answer, [⟨.setFocusIndex props.id target, answer⟩])

/-- What the task does after `BuildState`. -/
def switchCalls (goTo : Operation ι) (delta : Int) (answer : HRESULT) :
    Counted σ (Bool × List (Call ι)) := do
  let player ← take core.player
  withRef player (pure (false, [])) fun player => do
    let state ← call player fun player => player.state
    if state = 0 then do
      let item ← currentItem core
      withRef item (pure (false, [])) fun item => moveFocus core answer item delta
    else call player fun _ => (false, [⟨goTo, answer⟩])

def switchTask (goTo : Operation ι) (delta : Int) (answer : HRESULT) :
    Counted IdSession (SwitchResult ι × List (Call ι)) := do
  let before ← buildState core
  let (focusMoved, calls) ← switchCalls core goTo delta answer
  pure ({ before, focusMoved }, calls)

/-! ## They are balanced -/

variable {core controls}

theorem currentPlaylist_gives :
    Gives (σ := σ) held (currentPlaylist core)
      (core.playlistManager.bind fun mgr => mgr.playingPlaylist.or mgr.activePlaylist) :=
  Gives.withRef_bind (Gives.take _) fun _ _ =>
    Gives.firstOf (Gives.query _ mem_top) fun _ => Gives.query _ mem_top

theorem focusedItem_gives {playlist : Ref (Playlist ι)} (h : playlist.token ∈ held) :
    Gives (σ := σ) held (focusedItem playlist)
      ((propertiesOf playlist.object).bind fun props =>
        props.focusedObject.or props.playbackCursor) :=
  Gives.withRef_bind (Gives.query _ h) fun _ _ =>
    Gives.firstOf (Gives.query _ mem_top) fun _ => Gives.query _ mem_top

theorem firstItem_gives {playlist : Ref (Playlist ι)} (h : playlist.token ∈ held) :
    Gives (σ := σ) held (firstItem playlist)
      (if playlist.object.items.length > 0 then playlist.object.getItem 0 else none) := by
  refine Returns.call_step h ?_
  split
  · exact Gives.query _ h
  · exact Gives.none

theorem currentItemOf_eq (core : Core ι) (player : PlayerService ι) :
    RemoteControl.currentItemOf core player = player.playlistItem.or
      ((core.playlistManager.bind fun mgr => mgr.playingPlaylist.or mgr.activePlaylist).bind
        fun playlist =>
          ((propertiesOf playlist).bind fun props =>
            props.focusedObject.or props.playbackCursor).or
          (if playlist.items.length > 0 then playlist.getItem 0 else none)) := by
  unfold RemoteControl.currentItemOf propertiesOf
  cases player.playlistItem with
  | some item => rfl
  | none =>
    cases core.playlistManager with
    | none => rfl
    | some mgr =>
      simp only [Option.bind_some, Option.none_or]
      cases mgr.playingPlaylist.or mgr.activePlaylist with
      | none => rfl
      | some playlist =>
        simp only [Option.bind_some]
        cases playlist.hasProperties with
        | false => simp
        | true =>
          simp only [if_true, Option.bind_some]
          cases playlist.focusedObject.or playlist.playbackCursor with
          | none => simp
          | some item => simp

theorem currentItemOf_gives {player : Ref (PlayerService ι)} (h : player.token ∈ held) :
    Gives (σ := σ) held (currentItemOf core player)
      (RemoteControl.currentItemOf core player.object) := by
  rw [currentItemOf_eq]
  refine Gives.firstOf (Gives.query _ h) fun _ => ?_
  exact Gives.withRef_bind currentPlaylist_gives fun _ _ =>
    Gives.firstOf (focusedItem_gives mem_top) fun _ => firstItem_gives mem_top

theorem currentItem_gives :
    Gives (σ := σ) held (currentItem core)
      (core.player.bind (RemoteControl.currentItemOf core)) :=
  Gives.withRef_bind (Gives.take _) fun _ _ => currentItemOf_gives mem_top

theorem getBoolProperty_returns {dispatcher : Option (Ref (MessageProperty → Option Bool))}
    {property : MessageProperty} (h : ∀ dispatcher' ∈ dispatcher, dispatcher'.token ∈ held) :
    Returns (σ := σ) held (getBoolProperty dispatcher property)
      (pure ((dispatcher.bind fun dispatcher => dispatcher.object property).getD false)) := by
  cases dispatcher with
  | none => exact Returns.pure _
  | some dispatcher => exact Returns.call (fun send => (send property).getD false) (h dispatcher rfl)

theorem readModes_returns {dispatcher : Option (Ref (MessageProperty → Option Bool))}
    (h : ∀ dispatcher' ∈ dispatcher, dispatcher'.token ∈ held) :
    Returns (σ := σ) held (readModes dispatcher)
      (pure ((dispatcher.bind fun dispatcher => dispatcher.object .repeatMode).getD false,
        (dispatcher.bind fun dispatcher => dispatcher.object .shuffle).getD false,
        (dispatcher.bind fun dispatcher => dispatcher.object .radioCap).getD false)) := by
  refine Returns.step (getBoolProperty_returns h) ?_
  refine Returns.step (getBoolProperty_returns h) ?_
  refine Returns.step (getBoolProperty_returns h) ?_
  exact Returns.pure _

theorem modes_returns :
    Returns (σ := σ) held (modes core)
      (pure ((core.messageProperty .repeatMode).getD false,
        (core.messageProperty .shuffle).getD false,
        (core.messageProperty .radioCap).getD false)) := by
  refine Returns.withRef (Gives.take _) ?_ ?_
  · intro hnone
    unfold dispatcherOf at hnone
    split at hnone
    · next h =>
      rw [h.1, h.2.1, h.2.2]
      exact readModes_returns fun _ h => by cases h
    · cases hnone
  · intro send token hsome
    unfold dispatcherOf at hsome
    split at hsome
    · cases hsome
    · cases hsome
      exact readModes_returns fun _ h => by cases h; exact mem_top

theorem isUrl_returns {item : Ref ι} (h : item.token ∈ held) :
    Returns (σ := σ) held (isUrl core item) (pure (RemoteControl.isUrl core item.object)) := by
  unfold RemoteControl.isUrl
  refine Returns.withRef (Gives.query _ h) ?_ ?_
  · intro hnone
    rw [hnone]
    exact Returns.pure _
  · intro fileName token hsome
    rw [hsome]
    refine Returns.withRef (Gives.take _) ?_ ?_
    · intro hnone
      rw [hnone]
      exact Returns.pure _
    · intro uriService token' hsome'
      rw [hsome']
      refine Returns.call_step (mem_below mem_top) ?_
      exact Returns.call _ mem_top

theorem playlistIdOf_returns {item : Ref ι} (h : item.token ∈ held) :
    Returns (σ := σ) held (playlistIdOf core item)
      (pure (RemoteControl.getPlaylistAIMPId (core.itemPlaylist item.object))) := by
  refine Returns.withRef (Gives.query _ h) ?_ ?_
  · intro hnone
    rw [hnone]
    exact Returns.pure _
  · intro playlist token hsome
    rw [hsome]
    exact getPlaylistAIMPId_returns fun _ h => by cases h; exact mem_top

theorem trackProgress_returns {player : Ref (PlayerService ι)} {item : Ref ι}
    (hplayer : player.token ∈ held) (hitem : item.token ∈ held) :
    Returns (σ := σ) held (trackProgress core player item)
      (pure (if player.object.state ≠ 0 then
          some {
            trackLength := castInt 64 (player.object.duration.getD 0).ceil
            trackPosition := castInt 64 (truncate (player.object.position.getD 0))
            currentTrackSourceRadio := RemoteControl.isUrl core item.object }
        else none)) := by
  refine Returns.call_step hplayer ?_
  split
  · refine Returns.call_step hplayer ?_
    refine Returns.call_step hplayer ?_
    refine Returns.step (isUrl_returns hitem) ?_
    exact Returns.pure _
  · exact Returns.pure _

theorem addCurrentTrack_returns {player : Ref (PlayerService ι)} (h : player.token ∈ held) :
    Returns held (addCurrentTrack core player)
      (RemoteControl.addCurrentTrack core player.object) := by
  unfold RemoteControl.addCurrentTrack
  refine Returns.withRef (currentItemOf_gives h) ?_ ?_
  · intro hnone
    rw [hnone]
    exact Returns.pure _
  · intro item token hsome
    rw [hsome]
    refine Returns.step (playlistIdOf_returns mem_top) ?_
    refine Returns.call_step mem_top ?_
    refine Returns.both (Returns.plainly _) fun playlistId => ?_
    refine Returns.both (Returns.plainly _) fun trackId => ?_
    refine Returns.step (trackProgress_returns (mem_below h) mem_top) ?_
    exact Returns.pure _

theorem buildState_balanced : Balanced (buildState core) (RemoteControl.buildState core) := by
  intro held
  unfold RemoteControl.buildState
  refine Returns.withRef (Gives.take _) ?_ ?_
  · intro hnone
    rw [hnone]
    exact Returns.pure _
  · intro player token hsome
    rw [hsome]
    refine Returns.call_step mem_top ?_
    refine Returns.call_step mem_top ?_
    refine Returns.call_step mem_top ?_
    refine Returns.step modes_returns ?_
    refine Returns.both (addCurrentTrack_returns mem_top) fun track => ?_
    exact Returns.pure _

/-- What `playTask` returns of the state before. -/
def plainStateBefore (core : Core ι) (trackId : PluginId) (playlist : Playlist ι) :
    IdM (Bytes × PluginId × PluginId) := do
  let panel ← RemoteControl.buildState core
  match panelBefore panel with
  | (playbackState, some ids) => pure (playbackState, ids)
  | (playbackState, none) => do
    let id ← playlistId (RemoteControl.getPlaylistAIMPId (some playlist))
    pure (playbackState, id, trackId)

theorem playTask_eq (core : Core ι) (controls : PlayerControls ι) (trackId : PluginId) :
    RemoteControl.playTask controls core trackId = (do
      let session ← get
      match RemoteControl.findPlaylistItem core session.manager trackId with
      | none => pure (none, [])
      | some (item, playlist) => do
        let before ← plainStateBefore core trackId playlist
        pure (some before,
          if core.player.isSome then [⟨.play2 item, controls.play2 item⟩] else [])) := by
  unfold RemoteControl.playTask plainStateBefore
  congr 1
  funext session
  cases RemoteControl.findPlaylistItem core session.manager trackId with
  | none => rfl
  | some found =>
    dsimp only
    rw [bind_assoc]
    congr 1
    funext panel
    rcases panelBefore panel with ⟨playbackState, _ | ids⟩
    · simp only [bind_assoc, pure_bind]
    · simp only [pure_bind]

theorem stateBefore_returns {trackId : PluginId} {playlist : Ref (Playlist ι)}
    (h : playlist.token ∈ held) :
    Returns held (stateBefore core trackId playlist)
      (plainStateBefore core trackId playlist.object) := by
  refine Returns.both (buildState_balanced held) fun panel => ?_
  rcases panelBefore panel with ⟨playbackState, _ | ids⟩
  · have hid := @getPlaylistAIMPId_returns IdSession ι held (some playlist)
      (by rintro _ ⟨⟩; exact h)
    refine Returns.step hid ?_
    exact Returns.both (Returns.plainly _) fun id => Returns.pure _
  · exact Returns.pure _

theorem play2_returns {item : Ref ι} (h : item.token ∈ held) :
    Returns held (play2 core controls item)
      (pure (if core.player.isSome then [⟨.play2 item.object, controls.play2 item.object⟩]
        else [])) := by
  refine Returns.withRef (Gives.take _) ?_ ?_
  · intro hnone
    rw [hnone]
    exact Returns.pure _
  · intro player token hsome
    rw [hsome]
    refine Returns.call_step (mem_below h) ?_
    exact Returns.call _ mem_top

theorem playTask_balanced (trackId : PluginId) :
    Balanced (playTask core controls trackId) (RemoteControl.playTask controls core trackId) := by
  intro held
  rw [playTask_eq]
  refine Returns.both (Returns.plainly _) fun session => ?_
  refine Meets.step (findPlaylistItem_meets core session.manager trackId true) ?_
  generalize RemoteControl.findPlaylistItem core session.manager trackId = found
  intro refs after hfound
  cases hfound with
  | none => exact Returns.pure _
  | item _ _ _ h => cases h
  | both item playlist token owner h =>
    have hbefore : Meets (token ::ₘ owner ::ₘ held)
        (releasing ⟨playlist, owner⟩ (stateBefore core trackId ⟨playlist, owner⟩))
        (plainStateBefore core trackId playlist)
        fun a b after => b = a ∧ after = token ::ₘ held :=
      Returns.releasing (Multiset.cons_swap _ _ _) (stateBefore_returns (mem_below mem_top))
    refine Meets.releasing ?_
    refine Returns.step (Returns.pure _) ?_
    refine Meets.bind hbefore ?_
    rintro before _ _ ⟨rfl, rfl⟩
    refine Returns.step (play2_returns mem_top) ?_
    exact Meets.pure ⟨held, rfl, rfl, rfl⟩

/-- The properties of a playlist that has items. -/
def nonemptyProperties (playlist : Playlist ι) : Option (Playlist ι) :=
  if (playlist.items.length : Int) > 0 then propertiesOf playlist else none

theorem nonemptyProperties_eq_none {playlist : Playlist ι}
    (h : nonemptyProperties playlist = none) :
    ¬ ((playlist.items.length : Int) > 0 ∧ playlist.hasProperties = true) := by
  rintro ⟨hcount, hprops⟩
  unfold nonemptyProperties propertiesOf at h
  rw [if_pos hcount, if_pos hprops] at h
  cases h

theorem nonemptyProperties_eq_some {playlist props : Playlist ι}
    (h : nonemptyProperties playlist = some props) :
    props = playlist ∧ (playlist.items.length : Int) > 0 ∧ playlist.hasProperties = true := by
  unfold nonemptyProperties at h
  split at h
  · next hcount =>
    obtain ⟨heq, hprops⟩ := propertiesOf_eq_some h
    exact ⟨heq, hcount, hprops⟩
  · cases h

theorem propertiesOfNonempty_gives {playlist : Ref (Playlist ι)} (h : playlist.token ∈ held) :
    Gives (σ := σ) held (propertiesOfNonempty playlist playlist.object.items.length)
      (nonemptyProperties playlist.object) := by
  unfold propertiesOfNonempty nonemptyProperties
  split
  · exact Gives.query _ h
  · exact Gives.none

theorem moveFocus_returns {answer : HRESULT} {item : Ref ι} {delta : Int} (h : item.token ∈ held) :
    Returns (σ := σ) held (moveFocus core answer item delta)
      (pure (RemoteControl.moveFocus answer core item.object delta)) := by
  unfold RemoteControl.moveFocus focusTarget
  refine Returns.withRef (Gives.query _ h) ?_ ?_
  · intro hnone
    rw [hnone]
    exact Returns.pure _
  · intro playlist token hsome
    rw [hsome]
    refine Returns.call_step (mem_below h) ?_
    refine Returns.call_step mem_top ?_
    dsimp only
    refine Returns.withRef (propertiesOfNonempty_gives mem_top) ?_ ?_
    · intro hnone
      rw [if_neg (nonemptyProperties_eq_none hnone)]
      exact Returns.pure _
    · intro props token' hsome'
      obtain ⟨rfl, hcount⟩ := nonemptyProperties_eq_some hsome'
      have hprops : props.hasProperties = true := hcount.2
      rw [if_pos hcount]
      simp only [RemoteControl.getPlaylistAIMPId, hprops, if_true]
      exact Returns.call _ mem_top

theorem switchCalls_balanced (goTo : Operation ι) (delta : Int) (answer : HRESULT) :
    Balanced (σ := σ) (switchCalls core goTo delta answer)
      (pure (RemoteControl.switchCalls goTo delta answer core)) := by
  intro held
  unfold RemoteControl.switchCalls
  refine Returns.withRef (Gives.take _) ?_ ?_
  · intro hnone
    rw [hnone]
    exact Returns.pure _
  · intro player token hsome
    rw [hsome]
    refine Returns.call_step mem_top ?_
    dsimp only
    split
    · refine Returns.withRef currentItem_gives ?_ ?_
      · intro hnone
        rw [hsome, Option.bind_some] at hnone
        rw [hnone]
        exact Returns.pure _
      · intro item token' hitem
        rw [hsome, Option.bind_some] at hitem
        rw [hitem]
        exact moveFocus_returns mem_top
    · exact Returns.call _ mem_top

theorem switchTask_balanced (goTo : Operation ι) (delta : Int) (answer : HRESULT) :
    Balanced (switchTask core goTo delta answer)
      (RemoteControl.switchTask goTo delta answer core) := by
  intro held
  refine Returns.both (buildState_balanced held) fun before => ?_
  refine Returns.step (switchCalls_balanced goTo delta answer held) ?_
  exact Returns.pure _

end RemoteControl.Counted
