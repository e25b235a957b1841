import RemoteControl.Events.ControlPanelChanges
import RemoteControl.Lib.Cyclic

/-!
# PlayNext and PlayPrevious on a stopped player

A stopped player has the focus of the playlist on display, and the two requests walk it
around the items (`stopped_navigation_cyclic`). A request whose task is not run, or whose
`SetValueAsInt32` fails, leaves the focus and raises nothing.
-/

namespace RemoteControl

open Cyclic Transition

variable {ι : Type}

/-! ## The focus -/

/-- The playlist as `SetValueAsInt32(FOCUSINDEX, index)` leaves it. -/
def LoadedPlaylist.focusOn (playlist : LoadedPlaylist ι) (index : Nat)
    (h : index < playlist.items.length) : LoadedPlaylist ι :=
  { playlist with
    focus := some index
    focus_lt := fun i hi => by cases hi; exact h }

/-- A playlist that only moves its focus or its cursor keeps the player consistent. -/
theorem LivePlayer.Consistent.replace {player : LivePlayer ι} {old after : LoadedPlaylist ι}
    (h : player.Consistent) (hold : old ∈ player.playlists) (hid : after.id = old.id)
    (hitems : after.items = old.items) : (player.replace after).Consistent := by
  have hids : (player.replace after).playlists.map LoadedPlaylist.id =
      player.playlists.map LoadedPlaylist.id := by
    unfold LivePlayer.replace
    rw [List.map_map]
    refine List.map_congr_left ?_
    intro playlist _
    by_cases heq : playlist.id = after.id
    · simp [heq]
    · simp [heq]
  have hflat : (player.replace after).playlists.flatMap LoadedPlaylist.items =
      player.playlists.flatMap LoadedPlaylist.items := by
    unfold LivePlayer.replace
    rw [List.flatMap_map]
    refine List.flatMap_congr ?_
    intro playlist hmem
    by_cases heq : playlist.id = after.id
    · have hsame : playlist = old :=
        List.inj_on_of_nodup_map h.ids_nodup hmem hold (heq.trans hid)
      rw [if_pos heq, hitems, hsame]
    · rw [if_neg heq]
  have hloaded : ∀ id, (∃ playlist ∈ player.playlists, playlist.id = id) →
      ∃ playlist ∈ (player.replace after).playlists, playlist.id = id := by
    intro id hex
    have hmem : id ∈ player.playlists.map LoadedPlaylist.id := List.mem_map.mpr hex
    rw [← hids] at hmem
    exact List.mem_map.mp hmem
  exact {
    ids_nodup := hids ▸ h.ids_nodup
    items_nodup := hflat ▸ h.items_nodup
    active_loaded := fun id hactive => hloaded id (h.active_loaded id hactive)
    playing_loaded := fun id hplaying => hloaded id (h.playing_loaded id hplaying) }

/-- A stopped player without a current item, and the focus of the playlist on display. -/
structure LivePlayer.FocusAt (player : LivePlayer ι) (id : Bytes) (items : List ι) (index : Nat) :
    Prop where
  consistent : player.Consistent
  stopped : player.playback.state = 0
  noItem : player.playback.item = none
  displayed : ∃ playlist, player.displayed = some playlist ∧ playlist.id = id ∧
    playlist.items = items ∧ playlist.focus = some index

namespace LivePlayer.FocusAt

variable {player : LivePlayer ι} {id : Bytes} {items : List ι} {index index' : Nat}

theorem lt (h : player.FocusAt id items index) : index < items.length := by
  obtain ⟨playlist, -, -, rfl, hfocus⟩ := h.displayed
  exact playlist.focus_lt index hfocus

theorem length_pos (h : player.FocusAt id items index) : 0 < items.length :=
  (Nat.zero_le index).trans_lt h.lt

/-- There is one focus. -/
theorem unique (h : player.FocusAt id items index) (h' : player.FocusAt id items index') :
    index = index' := by
  obtain ⟨playlist, hplaylist, -, -, hfocus⟩ := h.displayed
  obtain ⟨playlist', hplaylist', -, -, hfocus'⟩ := h'.displayed
  have hsame : playlist = playlist' := Option.some.inj (hplaylist.symm.trans hplaylist')
  rw [hsame, hfocus'] at hfocus
  exact (Option.some.inj hfocus).symm

theorem replace {playlist : LoadedPlaylist ι} (h : player.FocusAt id items index)
    (hplaylist : player.displayed = some playlist) (hid : playlist.id = id)
    (hitems : playlist.items = items) (hlt : index' < playlist.items.length) :
    (player.replace (playlist.focusOn index' hlt)).FocusAt id items index' where
  consistent := h.consistent.replace (h.consistent.displayed_mem hplaylist) rfl rfl
  stopped := h.stopped
  noItem := h.noItem
  displayed := by
    refine ⟨playlist.focusOn index' hlt, ?_, hid, hitems, rfl⟩
    have hid : playlist.id = (playlist.focusOn index' hlt).id := rfl
    rw [displayed_replace, hplaylist, Option.map_some, if_pos hid]

variable [DecidableEq ι]

/-- What `CurrentItemOf` finds, and what is known of it. -/
theorem current (h : player.FocusAt id items index) (rest : Core ι) :
    ∃ playlist item, player.displayed = some playlist ∧ playlist.id = id ∧
      playlist.items = items ∧ currentItemOf (player.core rest) player.service = some item ∧
      locate (player.core rest) item = ⟨id, index⟩ ∧
      ∀ delta, focusTarget (player.core rest) item delta =
        some (playlist.toPlaylist, ((position items.length (index + delta) : Nat) : Int)) := by
  have hlt := h.lt
  obtain ⟨playlist, hplaylist, rfl, rfl, hfocus⟩ := h.displayed
  have hmem := h.consistent.displayed_mem hplaylist
  have hitem := List.getElem?_eq_getElem hlt
  have hcurrent : player.shownItem = some playlist.items[index] := by
    rw [shownItem, h.noItem, Option.none_or, hplaylist, Option.bind_some,
      LoadedPlaylist.offered, LoadedPlaylist.offer, LoadedPlaylist.chosen, hfocus,
      Option.some_or, Option.some_or, Option.bind_some, hitem]
  have hplace : player.place playlist.items[index] = some (playlist.id, index) :=
    (h.consistent.place_eq_some_of_mem hmem).mpr hitem
  have howner : player.owner playlist.items[index] = some playlist :=
    h.consistent.owner_eq_some.mpr ⟨hmem, List.getElem_mem hlt⟩
  have hidx : playlist.items.idxOf? playlist.items[index] = some index :=
    (h.consistent.idxOf?_eq_some hmem).mpr hitem
  refine ⟨playlist, playlist.items[index], hplaylist, rfl, rfl, ?_, ?_, fun delta => ?_⟩
  · rw [currentItemOf_core, hcurrent]
  · rw [locate_core, hplace]
    rfl
  · have hpos : 0 < playlist.items.length := by omega
    have hplaylist : (player.core rest).itemPlaylist playlist.items[index] =
        some playlist.toPlaylist := by simp [core, howner]
    have hindex : (player.core rest).itemIndex playlist.items[index] = some (index : Int) := by
      simp [core, howner, hidx]
    have hcount : (playlist.toPlaylist.items.length : Int) = playlist.items.length := by simp
    unfold focusTarget
    rw [hplaylist, hindex]
    dsimp only
    rw [hcount, if_pos ⟨by omega, rfl⟩, Option.getD_some, tmod_add_tmod (by omega),
      position_cast hpos]

end LivePlayer.FocusAt

/-! ## The requests -/

/-- Where the task is run, the panel is built and then the calls are made. -/
theorem switchTrack_of_runs {goTo : Operation ι} {delta : Int} {answer : HRESULT} {core : Core ι}
    {scheduling : Scheduling} (hruns : scheduling.Runs) (ids : IdSession) :
    switchTrack goTo delta answer core scheduling ids =
      (buildState core ids).map fun built =>
        (({ reply := .rpc (.ok (trackBefore built.1))
            ran := true
            calls := (switchCalls goTo delta answer core).2 },
          if (switchCalls goTo delta answer core).1 then [.controlPanel] else []), built.2) := by
  cases scheduling with
  | refused => exact hruns.elim
  | noService | executed _ =>
    unfold switchTrack runIssuing switchTask
    change ((((buildState core ids).bind _).bind _).bind _) = _
    cases buildState core ids with
    | none => rfl
    | some built => rfl

theorem switchTrack_of_not_runs {goTo : Operation ι} {delta : Int} {answer : HRESULT}
    {core : Core ι} {scheduling : Scheduling} (hruns : ¬scheduling.Runs) (ids : IdSession) :
    switchTrack goTo delta answer core scheduling ids =
      some (({ reply := .rpc (.ok (.obj [])) }, []), ids) := by
  cases scheduling with
  | noService | executed => exact absurd trivial hruns
  | refused => rfl

instance (scheduling : Scheduling) : Decidable scheduling.Runs :=
  match scheduling with
  | .noService | .executed _ => isTrue trivial
  | .refused _ => isFalse fun h => h

/-- The reply that names a track by these ids. -/
def trackNamed (issued : PluginId × PluginId) : Json :=
  .obj [(ascii "playlist_id", .int issued.1.toInt), (ascii "track_id", .int issued.2.toInt)]

/-- The reply names the track at this index of the playlist, by ids issued for it. -/
def Reply.NamesTrack (reply : Reply) (ids : IdSession) (id : Bytes) (index : Nat) : Prop :=
  ∃ issued, reply = .rpc (.ok (trackNamed issued)) ∧
    (id, issued.1) ∈ ids.issuedPlaylists ∧ (⟨id, index⟩, issued.2) ∈ ids.issuedTracks

namespace ControlPanelChanges

inductive Direction
  | next
  | previous
deriving DecidableEq

/-- The `delta` of `MoveFocus`. -/
def Direction.delta : Direction → Int
  | .next => 1
  | .previous => -1

/-- PlayNext or PlayPrevious, and what the player makes of it. -/
structure Press (ι : Type) where
  direction : Direction
  answer : HRESULT
  scheduling : Scheduling
  switches : List (Message × Playback ι)

namespace Press

def handler (press : Press ι) (core : Core ι) : IdM (Outcome ι × List EventKind) :=
  match press.direction with
  | .next => playNext press.answer core press.scheduling
  | .previous => playPrevious press.answer core press.scheduling

def action (press : Press ι) : Action ι :=
  match press.direction with
  | .next => .playNext press.answer press.scheduling press.switches
  | .previous => .playPrevious press.answer press.scheduling press.switches

/-- The task is run, and its `SetValueAsInt32` succeeds. -/
def Moves (press : Press ι) : Prop := press.scheduling.Runs ∧ succeeded press.answer = true

instance (press : Press ι) : Decidable press.Moves := inferInstanceAs (Decidable (_ ∧ _))

/-- How far the focus moves. -/
def shift (press : Press ι) : Int := if press.Moves then press.direction.delta else 0

theorem handler_eq_switchTrack (press : Press ι) (core : Core ι) :
    ∃ goTo, press.handler core =
      switchTrack goTo press.direction.delta press.answer core press.scheduling := by
  unfold handler
  cases press.direction with
  | next => exact ⟨.goToNext, rfl⟩
  | previous => exact ⟨.goToPrev, rfl⟩

variable [DecidableEq ι]

def reply (rest : Core ι) (s : System ι) (press : Press ι) : Option Reply :=
  (press.handler (s.player.core rest) s.ids).map fun handled => handled.1.1.reply

end Press

section Step

variable [DecidableEq ι] {rest : Core ι} {s s' : System ι} {id : Bytes} {items : List ι}
  {index : Nat} {raised : List EventKind}

theorem act_press (press : Press ι) :
    s.act rest press.action = s.handle press.switches (press.handler (s.player.core rest)) := by
  unfold Press.action Press.handler
  cases press.direction with
  | next => rfl
  | previous => rfl

/-- The calls that a stopped player gets. -/
theorem switchCalls_of_focusAt (h : s.player.FocusAt id items index) (goTo : Operation ι)
    (delta : Int) (answer : HRESULT) :
    switchCalls goTo delta answer (s.player.core rest) =
      (succeeded answer,
        [⟨.setFocusIndex id (position items.length (index + delta) : Nat), answer⟩]) := by
  obtain ⟨playlist, item, -, rfl, -, hcurrent, -, htarget⟩ := h.current rest
  have hplayer : (s.player.core rest).player = some s.player.service := rfl
  have hstopped : s.player.service.state = 0 := h.stopped
  unfold switchCalls
  rw [hplayer]
  dsimp only
  rw [if_pos hstopped, hcurrent]
  dsimp only
  rw [moveFocus, htarget]
  rfl

omit [DecidableEq ι] in
/-- What a handler returns: an empty reply where the task is not run. -/
theorem handler_eq_some {press : Press ι} {core : Core ι} {ids : IdSession}
    {handled : (Outcome ι × List EventKind) × IdSession}
    (h : press.handler core ids = some handled) :
    (¬press.scheduling.Runs ∧ handled.1.1.calls = [] ∧ handled.1.2 = [] ∧ handled.2 = ids) ∨
    press.scheduling.Runs ∧ ∃ goTo before, buildState core ids = some (before, handled.2) ∧
      handled.1.1.reply = .rpc (.ok (trackBefore before)) ∧
      handled.1.1.calls = (switchCalls goTo press.direction.delta press.answer core).2 ∧
      handled.1.2 = if (switchCalls goTo press.direction.delta press.answer core).1 then
        [.controlPanel] else [] := by
  obtain ⟨goTo, hgoTo⟩ := press.handler_eq_switchTrack core
  rw [hgoTo] at h
  by_cases hruns : press.scheduling.Runs
  · rw [switchTrack_of_runs hruns] at h
    obtain ⟨⟨before, ids'⟩, hbuild, rfl⟩ := Option.map_eq_some_iff.mp h
    exact Or.inr ⟨hruns, goTo, before, hbuild, rfl, rfl, rfl⟩
  · rw [switchTrack_of_not_runs hruns] at h
    cases h
    exact Or.inl ⟨hruns, rfl, rfl, rfl⟩

/-- A handler whose calls make these changes, to a player that stays consistent. -/
theorem handle_eq {switches : List (Message × Playback ι)}
    {handler : IdM (Outcome ι × List EventKind)} {player : LivePlayer ι}
    {changes : List (PlayerChange ι)} {notified : List EventKind}
    (hhandler : ∀ handled, handler s.ids = some handled →
      handled.1.1.calls.flatMap (obey s.player switches) = changes ∧ handled.1.2 = notified)
    (hrun : run PlayerChange.apply s.player changes = some player)
    (hconsistent : player.Consistent) :
    s.handle switches handler = (handler s.ids).map fun handled =>
      (⟨player, handled.2⟩, changes.flatMap PlayerChange.raised ++ notified) := by
  change (handler s.ids).bind _ = _
  cases hhandled : handler s.ids with
  | none => rfl
  | some handled =>
    obtain ⟨⟨outcome, notified'⟩, ids⟩ := handled
    obtain ⟨rfl, rfl⟩ := hhandler _ hhandled
    change (run PlayerChange.apply s.player
      (outcome.calls.flatMap (obey s.player switches))).bind _ = _
    rw [hrun]
    exact if_pos hconsistent

theorem setFocus_apply {player : LivePlayer ι} {playlist : LoadedPlaylist ι}
    (h : player.Consistent) (hmem : playlist ∈ player.playlists)
    (hlt : index < playlist.items.length) :
    run PlayerChange.apply player (setFocus player playlist.id index) =
        some (player.replace (playlist.focusOn index hlt)) ∧
      (setFocus player playlist.id index).flatMap PlayerChange.raised = [] := by
  have hfind : player.playlist? playlist.id = some playlist :=
    h.playlist?_eq_some.mpr ⟨hmem, rfl⟩
  have hset : setFocus player playlist.id index =
      [.changed (playlist.focusOn index hlt) .focusIndex] := by
    unfold setFocus
    rw [hfind]
    exact dif_pos hlt
  have hflagged : PlayerChange.Flagged .focusIndex playlist (playlist.focusOn index hlt) :=
    ⟨Or.inl rfl, Or.inr (by decide), Or.inl rfl⟩
  have happly : (PlayerChange.changed (playlist.focusOn index hlt) .focusIndex).apply player =
      some (player.replace (playlist.focusOn index hlt)) := by
    have hfind' : player.playlist? (playlist.focusOn index hlt).id = some playlist := hfind
    unfold PlayerChange.apply
    dsimp only
    rw [hfind']
    exact if_pos hflagged
  rw [hset, run_cons, happly]
  exact ⟨rfl, rfl⟩

/-- The player after a request, and what is raised. -/
theorem act_of_focusAt (rest : Core ι) (h : s.player.FocusAt id items index) (press : Press ι) :
    ∃ player, player.FocusAt id items (position items.length (index + press.shift)) ∧
      s.act rest press.action = (press.handler (s.player.core rest) s.ids).map fun handled =>
        (⟨player, handled.2⟩, if press.Moves then [.controlPanel] else []) := by
  have hpos := h.length_pos
  rw [act_press]
  by_cases hmoves : press.Moves
  · obtain ⟨playlist, hplaylist, rfl, rfl, -⟩ := h.displayed
    have hlt := position_lt (a := index + press.direction.delta) hpos
    have hfocus := h.replace hplaylist rfl rfl hlt
    have ⟨hrun, hraised⟩ := setFocus_apply h.consistent (h.consistent.displayed_mem hplaylist) hlt
    have hhandler : ∀ handled, press.handler (s.player.core rest) s.ids = some handled →
        handled.1.1.calls.flatMap (obey s.player press.switches) =
            setFocus s.player playlist.id
              (position playlist.items.length (index + press.direction.delta) : Nat) ∧
          handled.1.2 = [.controlPanel] := by
      intro handled hhandled
      rcases handler_eq_some hhandled with ⟨hruns, -⟩ | ⟨-, goTo, before, -, -, hcalls, hnotified⟩
      · exact absurd hmoves.1 hruns
      · rw [switchCalls_of_focusAt h, hmoves.2] at hnotified
        rw [hcalls, switchCalls_of_focusAt h, hnotified]
        simp [obey, hmoves.2]
    refine ⟨s.player.replace (playlist.focusOn _ hlt), ?_, ?_⟩
    · rw [Press.shift, if_pos hmoves]
      exact hfocus
    · rw [handle_eq hhandler hrun hfocus.consistent, hraised, if_pos hmoves]
      rfl
  · have hhandler : ∀ handled, press.handler (s.player.core rest) s.ids = some handled →
        handled.1.1.calls.flatMap (obey s.player press.switches) = [] ∧ handled.1.2 = [] := by
      intro handled hhandled
      rcases handler_eq_some hhandled with ⟨-, hcalls, hnotified, -⟩ |
        ⟨hruns, goTo, before, -, -, hcalls, hnotified⟩
      · rw [hcalls, hnotified]
        exact ⟨rfl, rfl⟩
      · have hfails : succeeded press.answer = false :=
          Bool.eq_false_iff.mpr fun hanswer => hmoves ⟨hruns, hanswer⟩
        rw [switchCalls_of_focusAt h, hfails] at hnotified
        rw [hcalls, switchCalls_of_focusAt h, hnotified]
        simp [obey, hfails]
    refine ⟨s.player, ?_, ?_⟩
    · rw [Press.shift, if_neg hmoves, Int.add_zero, position_of_lt h.lt]
      exact h
    · rw [handle_eq hhandler rfl h.consistent, if_neg hmoves]
      rfl

/-- The panel that a request builds is that of the track with the focus. -/
theorem buildState_of_focusAt (rest : Core ι) (h : s.player.FocusAt id items index) :
    ∃ item, buildState (s.player.core rest) s.ids =
      (issueIds ⟨id, index⟩ s.ids).map fun issued =>
        (some (shownPanel (s.player.core rest) s.player.service
          (some (shownTrack (s.player.core rest) s.player.service item issued.1))), issued.2) := by
  obtain ⟨-, item, -, -, -, hcurrent, hlocate, -⟩ := h.current rest
  have hplayer : (s.player.core rest).player = some s.player.service := rfl
  refine ⟨item, ?_⟩
  rw [buildState_eq_issueIds hplayer hcurrent, hlocate]

theorem reply_names (h : s.player.FocusAt id items index) {press : Press ι}
    (hruns : press.scheduling.Runs) {handled : (Outcome ι × List EventKind) × IdSession}
    (hhandled : press.handler (s.player.core rest) s.ids = some handled) :
    handled.1.1.reply.NamesTrack handled.2 id index := by
  rcases handler_eq_some hhandled with ⟨hnot, -⟩ | ⟨-, goTo, before, hbuild, hreply, -⟩
  · exact absurd hruns hnot
  · obtain ⟨item, hbuild'⟩ := buildState_of_focusAt rest h
    rw [hbuild'] at hbuild
    obtain ⟨⟨issued, ids⟩, hissued, heq⟩ := Option.map_eq_some_iff.mp hbuild
    have ⟨hplaylist, htrack⟩ := (issueIds_grows _ _ _ _ hissued).2
    cases heq
    exact ⟨issued, hreply, hplaylist, htrack⟩

/-- A request is answered while there is room for the ids of one track. -/
theorem handler_total (rest : Core ι) (h : s.player.FocusAt id items index) (press : Press ι)
    {n : Nat} (hroom : s.ids.RoomFor (n + 1)) :
    ∃ handled, press.handler (s.player.core rest) s.ids = some handled ∧
      handled.2.RoomFor n := by
  obtain ⟨goTo, hgoTo⟩ := press.handler_eq_switchTrack (s.player.core rest)
  rw [hgoTo]
  by_cases hruns : press.scheduling.Runs
  · obtain ⟨item, hbuild⟩ := buildState_of_focusAt rest h
    obtain ⟨issued, hissued, hroom'⟩ := issueIds_of_room ⟨id, index⟩ hroom
    rw [switchTrack_of_runs hruns, hbuild, hissued]
    exact ⟨_, rfl, hroom'⟩
  · rw [switchTrack_of_not_runs hruns]
    exact ⟨_, rfl, hroom.mono n.le_succ⟩

theorem act_press_eq_some (h : s.player.FocusAt id items index) {press : Press ι}
    (hact : s.act rest press.action = some (s', raised)) :
    s'.player.FocusAt id items (position items.length (index + press.shift)) ∧
      (press.scheduling.Runs → ∃ reply, press.reply rest s = some reply ∧
        reply.NamesTrack s'.ids id index) ∧
      raised = if press.Moves then [.controlPanel] else [] := by
  obtain ⟨player, hfocus, heq⟩ := act_of_focusAt rest h press
  rw [heq] at hact
  obtain ⟨handled, hhandled, hs'⟩ := Option.map_eq_some_iff.mp hact
  cases hs'
  refine ⟨hfocus, fun hruns => ⟨handled.1.1.reply, ?_, reply_names h hruns hhandled⟩, rfl⟩
  rw [Press.reply, hhandled, Option.map_some]

theorem act_press_total (rest : Core ι) (h : s.player.FocusAt id items index) (press : Press ι)
    {n : Nat} (hroom : s.ids.RoomFor (n + 1)) :
    ∃ s', s.step rest press.action = some s' ∧ s'.ids.RoomFor n := by
  obtain ⟨player, -, heq⟩ := act_of_focusAt rest h press
  obtain ⟨handled, hhandled, hroom'⟩ := handler_total rest h press hroom
  refine ⟨⟨player, handled.2⟩, ?_, hroom'⟩
  rw [System.step, heq, hhandled]
  rfl

end Step

/-! ## Walks -/

/-- The requests of one kind that move the focus. -/
def moved (direction : Direction) (presses : List (Press ι)) : Nat :=
  presses.countP fun press => press.Moves ∧ press.direction = direction

/-- How far they move it in all. -/
def net (presses : List (Press ι)) : Int := moved .next presses - moved .previous presses

theorem net_cons (press : Press ι) (presses : List (Press ι)) :
    net (press :: presses) = press.shift + net presses := by
  unfold net moved Press.shift
  rw [List.countP_cons, List.countP_cons]
  by_cases hmoves : press.Moves
  · cases hdirection : press.direction with
    | next =>
      simp [hmoves, Direction.delta]
      omega
    | previous =>
      simp [hmoves, Direction.delta]
      omega
  · simp [hmoves]

theorem moved_of_all {presses : List (Press ι)} (h : ∀ press ∈ presses, press.Moves)
    (direction : Direction) :
    moved direction presses = presses.countP fun press => press.direction = direction := by
  refine List.countP_congr ?_
  intro press hpress
  simp [h press hpress]

/-- Only PlayNext, and all move the focus. -/
theorem net_of_next {presses : List (Press ι)}
    (h : ∀ press ∈ presses, press.Moves ∧ press.direction = .next) :
    net presses = presses.length := by
  induction presses with
  | nil => rfl
  | cons press presses ih =>
    have ⟨hmoves, hdirection⟩ := h press List.mem_cons_self
    have htail := ih fun press hpress => h press (List.mem_cons_of_mem _ hpress)
    rw [net_cons, htail, Press.shift, if_pos hmoves, hdirection, Direction.delta,
      List.length_cons]
    omega

section Walk

variable [DecidableEq ι] {rest : Core ι} {s s' : System ι} {id : Bytes} {items : List ι}
  {start : Nat} {presses : List (Press ι)}

theorem run_focusAt (h : s.player.FocusAt id items start)
    (hrun : run (System.step rest) s (presses.map Press.action) = some s') :
    s'.player.FocusAt id items (position items.length (start + net presses)) := by
  induction presses generalizing s start with
  | nil =>
    cases hrun
    have hzero : (start : Int) + net ([] : List (Press ι)) = start := Int.add_zero _
    rw [hzero, position_of_lt h.lt]
    exact h
  | cons press presses ih =>
    obtain ⟨t, hstep, hrun⟩ := run_cons_eq_some.mp hrun
    obtain ⟨⟨t, raised⟩, hact, rfl⟩ := Option.map_eq_some_iff.mp hstep
    have hpos := h.length_pos
    have hfocus := ih (act_press_eq_some h hact).1 hrun
    rw [position_position_add hpos] at hfocus
    rwa [net_cons, ← Int.add_assoc]

theorem run_total (rest : Core ι) (h : s.player.FocusAt id items start)
    (hroom : s.ids.RoomFor presses.length) :
    ∃ s', run (System.step rest) s (presses.map Press.action) = some s' := by
  induction presses generalizing s start with
  | nil => exact ⟨s, rfl⟩
  | cons press presses ih =>
    obtain ⟨t, hstep, hroom'⟩ := act_press_total rest h press hroom
    obtain ⟨⟨t, raised⟩, hact, rfl⟩ := Option.map_eq_some_iff.mp hstep
    obtain ⟨s', hrun⟩ := ih (act_press_eq_some h hact).1 hroom'
    exact ⟨s', run_cons_eq_some.mpr ⟨t, hstep, hrun⟩⟩

end Walk

/-- The two requests walk the focus around the items. -/
structure WalksAround [DecidableEq ι] (rest : Core ι) (s : System ι) (id : Bytes)
    (items : List ι) (start : Nat) : Prop where
  /-- They are answered while there are ids for the tracks they name. -/
  answered : ∀ presses : List (Press ι), s.ids.RoomFor presses.length →
    ∃ s', run (System.step rest) s (presses.map Press.action) = some s'
  focus : ∀ (presses : List (Press ι)) s',
    run (System.step rest) s (presses.map Press.action) = some s' →
    s'.player.FocusAt id items (position items.length (start + net presses))
  /-- Where every `SetValueAsInt32` succeeds, the requests are counted. -/
  focus_all : ∀ (presses : List (Press ι)) s',
    run (System.step rest) s (presses.map Press.action) = some s' →
    (∀ press ∈ presses, press.Moves) →
    s'.player.FocusAt id items (position items.length
      (start + presses.countP (fun press => press.direction = .next) -
        presses.countP (fun press => press.direction = .previous)))
  in_range : ∀ a, position items.length a < items.length
  /-- The reply names the track that had the focus, and a focus that is set is announced. -/
  step : ∀ (presses : List (Press ι)) s' (press : Press ι) s'' raised index,
    run (System.step rest) s (presses.map Press.action) = some s' →
    s'.player.FocusAt id items index → s'.act rest press.action = some (s'', raised) →
    (press.scheduling.Runs → ∃ reply, press.reply rest s' = some reply ∧
      reply.NamesTrack s''.ids id index) ∧
    raised = if press.Moves then [.controlPanel] else []
  /-- As many PlayNext as there are items give every item the focus once. -/
  round : ∀ (presses : List (Press ι)) s',
    run (System.step rest) s (presses.map Press.action) = some s' →
    presses.length = items.length →
    (∀ press ∈ presses, press.Moves ∧ press.direction = .next) →
    s'.player.FocusAt id items start ∧ ∀ j < items.length, ∃! i, i < items.length ∧
      ∃ t, run (System.step rest) s ((presses.take i).map Press.action) = some t ∧
        t.player.FocusAt id items j

section Cyclic

variable [DecidableEq ι] {rest : Core ι} {s s' : System ι} {id : Bytes} {items : List ι}
  {start : Nat} {presses : List (Press ι)}

/-- The focus after a part of a round. -/
theorem run_take_focusAt (h : s.player.FocusAt id items start)
    (hrun : run (System.step rest) s (presses.map Press.action) = some s')
    (hnext : ∀ press ∈ presses, press.Moves ∧ press.direction = .next) {i : Nat}
    (hi : i ≤ presses.length) :
    ∃ t, run (System.step rest) s ((presses.take i).map Press.action) = some t ∧
      t.player.FocusAt id items (position items.length (start + i)) := by
  rw [← List.take_append_drop i presses, List.map_append] at hrun
  obtain ⟨t, htake, -⟩ := run_append_eq_some.mp hrun
  have hfocus := run_focusAt h htake
  rw [net_of_next fun press hpress => hnext press (List.mem_of_mem_take hpress),
    List.length_take_of_le hi] at hfocus
  exact ⟨t, htake, hfocus⟩

theorem round_focusAt (h : s.player.FocusAt id items start)
    (hrun : run (System.step rest) s (presses.map Press.action) = some s')
    (hlength : presses.length = items.length)
    (hnext : ∀ press ∈ presses, press.Moves ∧ press.direction = .next) :
    s'.player.FocusAt id items start ∧ ∀ j < items.length, ∃! i, i < items.length ∧
      ∃ t, run (System.step rest) s ((presses.take i).map Press.action) = some t ∧
        t.player.FocusAt id items j := by
  constructor
  · have hfocus := run_focusAt h hrun
    rwa [net_of_next hnext, hlength, position_round, position_of_lt h.lt] at hfocus
  · intro j hj
    obtain ⟨i, ⟨hi, hij⟩, hunique⟩ := existsUnique_position hj start
    obtain ⟨t, htake, hfocus⟩ := run_take_focusAt h hrun hnext (i := i) (by omega)
    refine ⟨i, ⟨hi, t, htake, hij ▸ hfocus⟩, ?_⟩
    rintro i' ⟨hi', t', htake', hfocus'⟩
    obtain ⟨u, hu, hfocus''⟩ := run_take_focusAt h hrun hnext (i := i') (by omega)
    cases htake'.symm.trans hu
    exact hunique i' ⟨hi', hfocus''.unique hfocus'⟩

/-- **A stopped player is walked through its playlist in a circle.** -/
theorem stopped_navigation_cyclic (h : s.player.FocusAt id items start) :
    WalksAround rest s id items start where
  answered _ hroom := run_total rest h hroom
  focus _ _ hrun := run_focusAt h hrun
  focus_all presses s' hrun hall := by
    have hfocus := run_focusAt h hrun
    unfold net at hfocus
    rwa [moved_of_all hall, moved_of_all hall, ← Int.add_sub_assoc] at hfocus
  in_range _ := position_lt h.length_pos
  step _ _ _ _ _ _ _ hfocus hact := (act_press_eq_some hfocus hact).2
  round _ _ hrun hlength hnext := round_focusAt h hrun hlength hnext

end Cyclic

theorem stopped_navigation_cyclic_sample :
    (System.init sampleStopped .empty).player.FocusAt (ascii "P1") [0, 1] 0 ∧
      WalksAround samplePlayer (System.init sampleStopped .empty) (ascii "P1") [0, 1] 0 := by
  have hfocus : (System.init sampleStopped .empty).player.FocusAt (ascii "P1") [0, 1] 0 :=
    ⟨sampleStopped.2, rfl, rfl, sampleLoaded, rfl, rfl, rfl, rfl⟩
  exact ⟨hfocus, stopped_navigation_cyclic hfocus⟩

end ControlPanelChanges

end RemoteControl
