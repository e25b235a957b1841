import RemoteControl.Commands.PlayNext
import RemoteControl.Events.PanelSelection
import RemoteControl.Lib.Transition

/-!
# Which changes of the control panel are announced

The player's changes with the callbacks they come with, PlayNext and PlayPrevious, and the
events that the listeners of stateUpdateEvents.cpp raise.

No listener of the playlists raises the control panel's event, so a playlist change that
moves the track on display goes unannounced (`focus_change_unannounced`). All other changes
of the panel are announced (`panel_changes_announced`).
-/

namespace RemoteControl

/-! ## The listeners -/

/-- `MessageHook::CoreMessage`. -/
def MessageHook.coreMessage : Message → Option EventKind
  | .playerState | .streamStart | .streamStartSubtrack | .streamEnd | .playingFileInfo =>
    some .controlPanel
  | .propertyValue property =>
    match property with
    | .volume | .mute | .repeatMode | .shuffle | .radioCap | .playerPosition => some .controlPanel
    | _ => none
  | .playbackQueue => some .queue
  | .playerUpdatePosition | .other _ => none

/-- `PlaylistListener::Changed`. -/
def PlaylistListener.changed (flags : NotifyFlags) : Option EventKind :=
  if flags &&& (.name ||| .content ||| .fileInfo ||| .readonly ||| .playingSwitchs) ≠ 0 then
    some .playlists
  else none

theorem PlaylistListener.changed_ne_controlPanel (flags : NotifyFlags) :
    PlaylistListener.changed flags ≠ some .controlPanel := by
  unfold PlaylistListener.changed
  split
  · nofun
  · nofun

/-- The kind that the listeners of `StateUpdateEvents` notify on a callback. -/
def Callback.raises : Callback → Option EventKind
  | .coreMessage message => MessageHook.coreMessage message
  | .changed flags => PlaylistListener.changed flags
  | .activated | .playlistActivated => none
  | .removed | .playlistAdded | .playlistRemoved => some .playlists

variable {ι : Type}

/-- The `Notify` calls that come with a change. -/
def PlayerChange.raised (change : PlayerChange ι) : List EventKind :=
  change.callbacks.filterMap Callback.raises

theorem PlayerChange.controlPanel_mem_raised_playback {message : Message} (after : Playback ι)
    (h : message.tellsPlayback = true) :
    EventKind.controlPanel ∈ (PlayerChange.playback message after).raised := by
  cases message with
  | playerState | streamStart | streamStartSubtrack | streamEnd | playingFileInfo =>
    exact List.mem_singleton_self _
  | propertyValue | playbackQueue | playerUpdatePosition | other => cases h

theorem PlayerChange.controlPanel_mem_raised_property (setting : Setting) :
    EventKind.controlPanel ∈ (PlayerChange.property setting : PlayerChange ι).raised := by
  cases setting <;> exact List.mem_singleton_self _

theorem PlayerChange.controlPanel_not_mem_raised {change : PlayerChange ι}
    (hof : change.ofPlaylists = true) :
    EventKind.controlPanel ∉ change.raised := by
  intro hmem
  obtain ⟨callback, hcallback, hraises⟩ := List.mem_filterMap.mp hmem
  cases change with
  | changed after flags =>
    cases List.mem_singleton.mp hcallback
    exact PlaylistListener.changed_ne_controlPanel flags hraises
  | activated id | removed id =>
    rcases List.mem_pair.mp hcallback with rfl | rfl <;> cases hraises
  | added playlist =>
    cases List.mem_singleton.mp hcallback
    cases hraises
  | playback | property | tick | unrelated => cases hof

variable [DecidableEq ι]

/-- A change that keeps the selection is announced or leaves the panel as it was. -/
theorem PlayerChange.announced {rest : Core ι} {player player' : LivePlayer ι}
    {change : PlayerChange ι} (h : player.Consistent) (h' : player'.Consistent)
    (happly : change.apply player = some player') (hkeeps : change.KeepsSelection rest player) :
    EventKind.controlPanel ∈ change.raised ∨
      panelFacts (player'.core rest) = panelFacts (player.core rest) := by
  by_cases hof : change.ofPlaylists = true
  · have hselection := (selection_eq_iff h h' happly hof).mpr hkeeps
    exact Or.inr (panelFacts_of_playlists happly hof hselection)
  · cases applied_of_apply happly with
    | playback after htells => exact Or.inl (controlPanel_mem_raised_playback after htells)
    | property setting => exact Or.inl (controlPanel_mem_raised_property setting)
    | tick seconds =>
      rw [LivePlayer.panelFacts_core, LivePlayer.panelFacts_core]
      exact Or.inr rfl
    | unrelated message => exact Or.inr rfl
    | changed | activated | added | removed => exact absurd rfl hof

/-! ## Requests -/

namespace ControlPanelChanges

open Transition

structure System (ι : Type) where
  player : LivePlayer ι
  ids : IdSession

/-- What `SetValueAsInt32(FOCUSINDEX, index)` changes. -/
def setFocus (player : LivePlayer ι) (id : Bytes) (index : Int) : List (PlayerChange ι) :=
  match player.playlist? id with
  | none => []
  | some old =>
    if h : index.toNat < old.items.length then
      [.changed { old with
          focus := some index.toNat
          focus_lt := fun i hi => by cases hi; exact h } .focusIndex]
    else []

/-- The changes that a call brings about; `switches` is what GoToNext or GoToPrev does. -/
def obey (player : LivePlayer ι) (switches : List (Message × Playback ι)) (call : Call ι) :
    List (PlayerChange ι) :=
  match call.operation with
  | .setFocusIndex id index => if succeeded call.answer then setFocus player id index else []
  | .goToNext | .goToPrev => switches.map fun switch => .playback switch.1 switch.2
  | _ => []

inductive Action (ι : Type)
  | player (change : PlayerChange ι)
  | playNext (answer : HRESULT) (scheduling : Scheduling) (switches : List (Message × Playback ι))
  | playPrevious (answer : HRESULT) (scheduling : Scheduling)
      (switches : List (Message × Playback ι))

namespace System

/-- A request and the changes its calls make, with all `Notify` calls. -/
def handle (s : System ι) (switches : List (Message × Playback ι))
    (handler : IdM (Outcome ι × List EventKind)) : Option (System ι × List EventKind) := do
  let ((outcome, raised), ids) ← handler s.ids
  let changes := outcome.calls.flatMap (obey s.player switches)
  let player ← run PlayerChange.apply s.player changes
  if player.Consistent then some (⟨player, ids⟩, changes.flatMap PlayerChange.raised ++ raised)
  else none

def act (rest : Core ι) (s : System ι) : Action ι → Option (System ι × List EventKind)
  | .player change => do
    let player ← change.apply s.player
    if player.Consistent then some ({ s with player }, change.raised) else none
  | .playNext answer scheduling switches =>
    s.handle switches (playNext answer (s.player.core rest) scheduling)
  | .playPrevious answer scheduling switches =>
    s.handle switches (playPrevious answer (s.player.core rest) scheduling)

def step (rest : Core ι) (s : System ι) (a : Action ι) : Option (System ι) :=
  (s.act rest a).map Prod.fst

/-- What `BuildState` would return. -/
def panel (rest : Core ι) (s : System ι) : Option (Option VisiblePanel) :=
  panelShown (s.player.core rest) s.ids

end System

/-- Requests are not restricted. -/
def Action.KeepsSelection (rest : Core ι) (s : System ι) : Action ι → Prop
  | .player change => change.KeepsSelection rest s.player
  | .playNext _ _ _ | .playPrevious _ _ _ => True

instance (rest : Core ι) (s : System ι) (a : Action ι) : Decidable (a.KeepsSelection rest s) :=
  match a with
  | .player change => inferInstanceAs (Decidable (change.KeepsSelection rest s.player))
  | .playNext _ _ _ | .playPrevious _ _ _ => isTrue trivial

variable {rest : Core ι} {s s' : System ι} {a : Action ι} {raised : List EventKind}

/-! ### What a step is -/

theorem act_player_eq_some {change : PlayerChange ι}
    (h : s.act rest (.player change) = some (s', raised)) :
    change.apply s.player = some s'.player ∧ s'.player.Consistent ∧ s'.ids = s.ids ∧
      raised = change.raised := by
  obtain ⟨player, happly, h⟩ := Option.bind_eq_some_iff.mp h
  split at h
  · next hconsistent =>
    cases h
    exact ⟨happly, hconsistent, rfl, rfl⟩
  · cases h

theorem handle_eq_some {switches : List (Message × Playback ι)}
    {handler : IdM (Outcome ι × List EventKind)}
    (h : s.handle switches handler = some (s', raised)) :
    s'.player.Consistent ∧ ∃ outcome notified,
      handler s.ids = some ((outcome, notified), s'.ids) ∧
      run PlayerChange.apply s.player (outcome.calls.flatMap (obey s.player switches)) =
        some s'.player ∧
      raised = (outcome.calls.flatMap (obey s.player switches)).flatMap PlayerChange.raised ++
        notified := by
  obtain ⟨⟨⟨outcome, notified⟩, ids⟩, hhandler, h⟩ := Option.bind_eq_some_iff.mp h
  obtain ⟨player, hplayer, h⟩ := Option.bind_eq_some_iff.mp h
  split at h
  · next hconsistent =>
    cases h
    exact ⟨hconsistent, outcome, notified, hhandler, hplayer, rfl⟩
  · cases h

theorem act_consistent (h : s.act rest a = some (s', raised)) : s'.player.Consistent := by
  cases a with
  | player change => exact (act_player_eq_some h).2.1
  | playNext | playPrevious => exact (handle_eq_some h).1

/-! ### What is announced -/

/-- Whatever GoToNext does is announced by the message hook. -/
theorem switches_announced {player player' : LivePlayer ι}
    {switches : List (Message × Playback ι)}
    (h : run PlayerChange.apply player
      (switches.map fun switch => .playback switch.1 switch.2) = some player') :
    player' = player ∨ EventKind.controlPanel ∈
      (switches.map fun switch => PlayerChange.playback switch.1 switch.2).flatMap
        PlayerChange.raised := by
  cases switches with
  | nil =>
    cases h
    exact Or.inl rfl
  | cons switch switches =>
    obtain ⟨_, hfirst, -⟩ := run_cons_eq_some.mp h
    have htells : switch.1.tellsPlayback = true := by
      cases PlayerChange.applied_of_apply hfirst
      assumption
    have hraised := PlayerChange.controlPanel_mem_raised_playback switch.2 htells
    exact Or.inr (by simp [hraised])

/-- A request is announced or leaves the panel as it was. -/
theorem handle_announced {goTo : Operation ι} {delta : Int} {answer : HRESULT}
    {scheduling : Scheduling} {switches : List (Message × Playback ι)}
    (hgoTo : goTo = .goToNext ∨ goTo = .goToPrev)
    (h : s.handle switches (switchTrack goTo delta answer (s.player.core rest) scheduling) =
      some (s', raised)) :
    EventKind.controlPanel ∈ raised ∨ s'.panel rest = s.panel rest := by
  obtain ⟨-, outcome, notified, hhandler, hrun, rfl⟩ := handle_eq_some h
  unfold System.panel
  rcases switchTrack_eq_some hhandler with ⟨hcalls, hids⟩ | ⟨⟨before, hbuild⟩, hcalls, hnotified⟩
  · -- the task was not run
    rw [hcalls] at hrun
    rw [Option.some.inj hrun, hids]
    exact Or.inr rfl
  · have hagain := panelShown_again hbuild
    rcases switchCalls_cases goTo delta answer (s.player.core rest) with
      hnothing | hswitch | ⟨id, target, hfocus⟩
    · rw [hcalls, hnothing] at hrun
      rw [← Option.some.inj hrun]
      exact Or.inr hagain
    · have hchanges : outcome.calls.flatMap (obey s.player switches) =
          switches.map fun switch => .playback switch.1 switch.2 := by
        rw [hcalls, hswitch]
        rcases hgoTo with rfl | rfl <;> simp [obey]
      rw [hchanges] at hrun ⊢
      rcases switches_announced hrun with hsame | hraised
      · rw [hsame]
        exact Or.inr hagain
      · exact Or.inl (List.mem_append_left _ hraised)
    · cases hanswer : succeeded answer with
      | true =>
        rw [hnotified, hfocus, hanswer]
        exact Or.inl (List.mem_append_right _ (List.mem_singleton_self _))
      | false =>
        have hchanges : outcome.calls.flatMap (obey s.player switches) = [] := by
          rw [hcalls, hfocus]
          simp [obey, hanswer]
        rw [hchanges] at hrun
        rw [← Option.some.inj hrun]
        exact Or.inr hagain

theorem act_announced (hs : s.player.Consistent) (hkeeps : a.KeepsSelection rest s)
    (h : s.act rest a = some (s', raised)) :
    EventKind.controlPanel ∈ raised ∨ s'.panel rest = s.panel rest := by
  cases a with
  | player change =>
    obtain ⟨happly, hs', hids, rfl⟩ := act_player_eq_some h
    rcases PlayerChange.announced hs hs' happly hkeeps with hraised | hfacts
    · exact Or.inl hraised
    · unfold System.panel
      rw [hids]
      exact Or.inr (panelShown_congr hfacts s.ids)
  | playNext => exact handle_announced (Or.inl rfl) h
  | playPrevious => exact handle_announced (Or.inr rfl) h

/-! ### Runs -/

/-- Where the runs start: any consistent player, and the ids issued so far. -/
def System.init (player : {player : LivePlayer ι // player.Consistent}) (ids : IdSession) :
    System ι := ⟨player.1, ids⟩

theorem reachable_consistent {player : {player : LivePlayer ι // player.Consistent}}
    {ids : IdSession} {ok : System ι → Action ι → Prop}
    (h : ReachableBy (System.step rest) ok (.init player ids) s) : s.player.Consistent := by
  refine h.invariant (I := fun s => s.player.Consistent) player.2 fun _ _ hst => ?_
  obtain ⟨⟨t, raised⟩, hact, rfl⟩ := Option.map_eq_some_iff.mp hst
  exact act_consistent hact

/-- The condition leaves out no more than it must: a playlist change that misses it makes
another panel than the one that was built, and is not announced. -/
theorem missed_change_unannounced {change : PlayerChange ι} {earlier : IdSession}
    {shown : Option (PlayerPanel ι)} (hs : s.player.Consistent)
    (hof : change.ofPlaylists = true) (hact : s.act rest (.player change) = some (s', raised))
    (hbuilt : buildState (s.player.core rest) earlier = some (shown, s.ids))
    (hmissed : ¬change.KeepsSelection rest s.player) :
    s'.panel rest ≠ s.panel rest ∧ EventKind.controlPanel ∉ raised := by
  obtain ⟨happly, hs', hids, rfl⟩ := act_player_eq_some hact
  have hselection : s'.player.selection rest ≠ s.player.selection rest := fun heq =>
    hmissed ((PlayerChange.selection_eq_iff hs hs' happly hof).mp heq)
  have htrack := PlayerChange.track_ne_of_playlists happly hof hselection
  unfold System.panel
  rw [hids]
  exact ⟨panelShown_ne hbuilt htrack, PlayerChange.controlPanel_not_mem_raised hof⟩

/-- **Every visible change of the control panel is announced**, in runs whose playlist
changes leave the track on display in its place. -/
theorem panel_changes_announced {player : {player : LivePlayer ι // player.Consistent}}
    {ids : IdSession}
    (h : ReachableBy (System.step rest) (Action.KeepsSelection rest) (.init player ids) s)
    (hkeeps : a.KeepsSelection rest s) (hact : s.act rest a = some (s', raised))
    (hchanged : s'.panel rest ≠ s.panel rest) : EventKind.controlPanel ∈ raised :=
  (act_announced (reachable_consistent h) hkeeps hact).resolve_right hchanged

/-- A playlist with two tracks, the focus on the first. -/
def sampleLoaded : LoadedPlaylist Nat where
  id := ascii "P1"
  items := [0, 1]
  focus := some 0
  id_ne_nil := List.cons_ne_nil _ _

/-- The player is stopped and has no current item. -/
def sampleStopped : {player : LivePlayer Nat // player.Consistent} where
  val := {
    playlists := [sampleLoaded]
    active := some (ascii "P1")
    playback := { item := none, playlist := none, state := 0, duration := 0, position := 0 }
    volume := 1
    mute := false
    repeatMode := false
    shuffle := false
    radioCap := false }
  property := by decide

/-- The user moves the focus in the player. -/
def focusSecond : Action Nat :=
  .player (.changed { sampleLoaded with focus := some 1, focus_lt := by decide } .focusIndex)

/-- A track is appended, which leaves the focus where it is. -/
def appendTrack : Action Nat :=
  .player (.changed { sampleLoaded with
    items := [0, 1, 2]
    focus_lt := by decide
    cursor_lt := by decide } .content)

/-- PlayNext moves the focus after a track was appended. -/
theorem panel_changes_announced_sample :
    ∃ s s' raised,
      ReachableBy (System.step samplePlayer) (Action.KeepsSelection samplePlayer)
        (.init sampleStopped .empty) s ∧
      s.act samplePlayer (.playNext sOk .noService []) = some (s', raised) ∧
      s'.panel samplePlayer ≠ s.panel samplePlayer ∧ EventKind.controlPanel ∈ raised := by
  have hsample : (run (guarded (System.step samplePlayer) (Action.KeepsSelection samplePlayer))
      (.init sampleStopped .empty) [appendTrack]).any (fun s =>
        (s.act samplePlayer (.playNext sOk .noService [])).any fun after =>
          decide (after.1.panel samplePlayer ≠ s.panel samplePlayer)) = true := by
    decide +kernel
  obtain ⟨s, hrun, hnext⟩ := (Option.any_eq_true _ _).mp hsample
  obtain ⟨⟨s', raised⟩, hact, hchanged⟩ := (Option.any_eq_true _ _).mp hnext
  have hreach := ReachableBy.of_guarded ⟨_, hrun⟩
  have hchanged := of_decide_eq_true hchanged
  have hkeeps : Action.KeepsSelection samplePlayer s (.playNext sOk .noService []) := trivial
  exact ⟨s, s', raised, hreach, hact, hchanged,
    panel_changes_announced hreach hkeeps hact hchanged⟩

/-- The focus of a stopped player moves in the player itself: the panel shows another track,
and nothing is raised. -/
theorem focus_change_unannounced :
    ¬∀ (s s' : System Nat) (a : Action Nat) (raised : List EventKind),
      Reachable (System.step samplePlayer) (.init sampleStopped .empty) s →
      s.act samplePlayer a = some (s', raised) → s'.panel samplePlayer ≠ s.panel samplePlayer →
      EventKind.controlPanel ∈ raised := by
  intro h
  have hsample : ((System.init sampleStopped .empty).act samplePlayer focusSecond).any (fun after =>
      decide (after.1.panel samplePlayer ≠ (System.init sampleStopped .empty).panel samplePlayer ∧
        EventKind.controlPanel ∉ after.2)) = true := by decide +kernel
  obtain ⟨⟨s', raised⟩, hact, hafter⟩ := (Option.any_eq_true _ _).mp hsample
  obtain ⟨hchanged, hraised⟩ := of_decide_eq_true hafter
  exact hraised (h _ s' focusSecond raised .refl hact hchanged)

end ControlPanelChanges

end RemoteControl
