import RemoteControl.Commands.Tracks
import RemoteControl.Events.StateUpdateEvents

/-!
# PlayNext and PlayPrevious

While the player is stopped these move the focus of a playlist, wrapping around, and raise
the control panel's event themselves. Otherwise the player is told to switch.
-/

namespace RemoteControl

variable {ι : Type}

/-- The playlist and the focus index that `MoveFocus` sets, when it comes to that. -/
def focusTarget (core : Core ι) (item : ι) (delta : Int) : Option (Playlist ι × Int) :=
  match core.itemPlaylist item with
  | none => none
  | some playlist =>
    let index := (core.itemIndex item).getD 0
    let count : Int := playlist.items.length
    if count > 0 ∧ playlist.hasProperties then
      some (playlist, ((index + delta).tmod count + count).tmod count)
    else none

/-- `MoveFocus`; `answer` is what its one call answers. -/
def moveFocus (answer : HRESULT) (core : Core ι) (item : ι) (delta : Int) :
    Bool × List (Call ι) :=
  match focusTarget core item delta with
  | none => (false, [])
  | some (playlist, target) =>
    (succeeded answer, [⟨.setFocusIndex (getPlaylistAIMPId (some playlist)) target, answer⟩])

/-- What the task leaves in `before` and in `focusMoved`. -/
structure SwitchResult (ι : Type) where
  before : Option (PlayerPanel ι) := none
  focusMoved : Bool := false

/-- What the task does after `BuildState`. -/
def switchCalls (goTo : Operation ι) (delta : Int) (answer : HRESULT) (core : Core ι) :
    Bool × List (Call ι) :=
  match core.player with
  | none => (false, [])
  | some player =>
    if player.state = 0 then
      match currentItemOf core player with
      | none => (false, [])
      | some item => moveFocus answer core item delta
    else (false, [⟨goTo, answer⟩])

def switchTask (goTo : Operation ι) (delta : Int) (answer : HRESULT) (core : Core ι) :
    IdM (SwitchResult ι × List (Call ι)) := do
  let before ← buildState core
  let (focusMoved, calls) := switchCalls goTo delta answer core
  pure ({ before, focusMoved }, calls)

/-- `PickFields(before, {"playlist_id", "track_id"})`. -/
def trackBefore (before : Option (PlayerPanel ι)) : Json :=
  .obj (match before.bind PlayerPanel.track with
    | none => []
    | some track => [(ascii "playlist_id", .int track.playlistId.toInt),
        (ascii "track_id", .int track.trackId.toInt)])

/-- The reply, and the kinds of events the handler raises. -/
def switchTrack (goTo : Operation ι) (delta : Int) (answer : HRESULT) (core : Core ι)
    (scheduling : Scheduling) : IdM (Outcome ι × List EventKind) := do
  let done ← runIssuing {} scheduling (switchTask goTo delta answer core)
  let outcome : Outcome ι :=
    { reply := .rpc (.ok (trackBefore done.value.before)), ran := done.ran, calls := done.calls }
  pure (outcome, if done.value.focusMoved then [.controlPanel] else [])

def playNext (answer : HRESULT) (core : Core ι) (scheduling : Scheduling) :
    IdM (Outcome ι × List EventKind) :=
  switchTrack .goToNext 1 answer core scheduling

def playPrevious (answer : HRESULT) (core : Core ι) (scheduling : Scheduling) :
    IdM (Outcome ι × List EventKind) :=
  switchTrack .goToPrev (-1) answer core scheduling

/-! ## What a switch does -/

/-- Either the task is not run, or the panel is built and the calls are made; the event is
raised where the focus was set. -/
theorem switchTrack_eq_some {goTo : Operation ι} {delta : Int} {answer : HRESULT} {core : Core ι}
    {scheduling : Scheduling} {ids ids' : IdSession} {outcome : Outcome ι}
    {raised : List EventKind}
    (h : switchTrack goTo delta answer core scheduling ids = some ((outcome, raised), ids')) :
    (outcome.calls = [] ∧ ids' = ids) ∨
    (∃ before, buildState core ids = some (before, ids')) ∧
      outcome.calls = (switchCalls goTo delta answer core).2 ∧
      raised = if (switchCalls goTo delta answer core).1 then [.controlPanel] else [] := by
  obtain ⟨⟨⟨value, ran, calls⟩, t⟩, hrun, hreply⟩ := Option.bind_eq_some_iff.mp h
  cases hreply
  rcases runIssuing_eq_some hrun with ⟨hdone, rfl⟩ | htask
  · cases hdone
    exact Or.inl ⟨rfl, rfl⟩
  · obtain ⟨⟨before, t⟩, hbuild, hresult⟩ := Option.bind_eq_some_iff.mp htask
    cases hresult
    exact Or.inr ⟨⟨before, hbuild⟩, rfl, rfl⟩

/-- The calls: none, a switch of the player's own, or the focus of one playlist. -/
theorem switchCalls_cases (goTo : Operation ι) (delta : Int) (answer : HRESULT) (core : Core ι) :
    switchCalls goTo delta answer core = (false, []) ∨
    switchCalls goTo delta answer core = (false, [⟨goTo, answer⟩]) ∨
    ∃ id target, switchCalls goTo delta answer core =
      (succeeded answer, [⟨.setFocusIndex id target, answer⟩]) := by
  unfold switchCalls
  split
  · exact Or.inl rfl
  · split
    · split
      · exact Or.inl rfl
      · next item _ =>
        unfold moveFocus
        split
        · exact Or.inl rfl
        · exact Or.inr (Or.inr ⟨_, _, rfl⟩)
    · exact Or.inr (Or.inl rfl)

end RemoteControl
