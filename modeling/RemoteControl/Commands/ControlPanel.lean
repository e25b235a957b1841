import Mathlib.Data.Rat.Floor
import Mathlib.Tactic.Linarith
import RemoteControl.Commands.Entries

/-!
# GetPlayerControlPanelState
-/

namespace RemoteControl

variable {ι : Type}

/-- `std::lround`: half away from zero. -/
def lround (x : Rat) : Int := if 0 ≤ x then (x + 1 / 2).floor else (x - 1 / 2).ceil

/-- What `static_cast` drops of a `double`: towards zero. -/
def truncate (x : Rat) : Int := if 0 ≤ x then x.floor else x.ceil

/-- `static_cast` of a whole `double` to a signed integer of `bits` bits. Out of range it is
undefined; x86-64 gives the least integer. -/
def castInt (bits : Nat) (n : Int) : Int :=
  if -2 ^ (bits - 1) ≤ n ∧ n < 2 ^ (bits - 1) then n else -2 ^ (bits - 1)

theorem lround_eq_floor {x : Rat} (hx : 0 ≤ x) : lround x = ⌊x + 1 / 2⌋ := if_pos hx

theorem lround_intCast (n : Int) : lround n = n := by
  unfold lround
  split
  · show ⌊(n : Rat) + 1 / 2⌋ = n
    rw [Int.floor_eq_iff]
    constructor <;> linarith
  · have hfloor : ⌊-((n : Rat) - 1 / 2)⌋ = -n := by
      rw [Int.floor_eq_iff]
      push_cast
      constructor <;> linarith
    rw [Rat.ceil_eq_neg_floor_neg]
    exact Int.neg_eq_comm.1 hfloor.symm

theorem truncate_eq_floor {x : Rat} (hx : 0 ≤ x) : truncate x = ⌊x⌋ := if_pos hx

theorem lround_nonneg {x : Rat} (hx : 0 ≤ x) : 0 ≤ lround x := by
  rw [lround_eq_floor hx]
  exact Int.floor_nonneg.2 (by linarith)

theorem lround_le {x : Rat} {n : Int} (hx : 0 ≤ x) (h : x ≤ n) : lround x ≤ n := by
  have hmono : ⌊x + 1 / 2⌋ ≤ ⌊(n : Rat) + 1 / 2⌋ := Int.floor_le_floor (by linarith)
  rw [← lround_eq_floor hx, ← lround_eq_floor (hx.trans h), lround_intCast] at hmono
  exact hmono

theorem castInt_of_lt {bits : Nat} {n : Int} (hn : 0 ≤ n) (hlt : n < 2 ^ (bits - 1)) :
    castInt bits n = n := by
  have hpow : (0 : Int) ≤ 2 ^ (bits - 1) := by positivity
  exact if_pos ⟨by omega, hlt⟩

/-- Two widths agree on what fits in the smaller, and on nothing else. -/
theorem castInt_32_eq_64 {n : Int} (hn : 0 ≤ n) : castInt 32 n = castInt 64 n ↔ n < 2 ^ 31 := by
  unfold castInt
  split <;> split <;> omega

/-- The nearest integer is the floor, below the half. -/
theorem lround_eq_floor_iff {x : Rat} (hx : 0 ≤ x) : lround x = ⌊x⌋ ↔ Int.fract x < 1 / 2 := by
  have hbelow := Int.floor_le x
  rw [lround_eq_floor hx, Int.floor_eq_iff, Int.fract]
  constructor
  · intro h
    linarith [h.2]
  · intro h
    constructor <;> linarith

def playbackStateName (state : Int) : Bytes :=
  if state = 2 then ascii "playing" else if state = 1 then ascii "paused" else ascii "stopped"

/-- `IsUrl`. -/
def isUrl (core : Core ι) (item : ι) : Bool :=
  match core.itemFileName item, core.fileUriService with
  | some fileName, some uriService => uriService.isUrl fileName
  | _, _ => false

structure TrackProgress where
  trackLength : Int
  trackPosition : Int
  currentTrackSourceRadio : Bool

/-- What `AddCurrentTrack` adds to the state, for the item it found. -/
structure CurrentTrack (ι : Type) where
  item : ι
  playlistId : PluginId
  trackId : PluginId
  progress : Option TrackProgress

/-- `AddCurrentTrack`. -/
def addCurrentTrack (core : Core ι) (player : PlayerService ι) :
    IdM (Option (CurrentTrack ι)) :=
  match currentItemOf core player with
  | none => pure none
  | some item => do
    let key := locate core item
    let playlistId ← playlistId key.aimpPlaylistId
    let trackId ← trackId key.aimpPlaylistId key.index
    let progress :=
      if player.state ≠ 0 then
        some {
          trackLength := castInt 64 (player.duration.getD 0).ceil
          trackPosition := castInt 64 (truncate (player.position.getD 0))
          currentTrackSourceRadio := isUrl core item }
      else none
    pure (some { item, playlistId, trackId, progress })

structure PlayerPanel (ι : Type) where
  playbackState : Bytes
  volume : Int
  muteModeOn : Bool
  repeatModeOn : Bool
  shuffleModeOn : Bool
  radioCaptureModeOn : Bool
  track : Option (CurrentTrack ι)

/-- `GetPlayerControlPanelStateCommand::BuildState`; without the player service the
state is only `"playback_state": "stopped"`, here `none`. -/
def buildState (core : Core ι) : IdM (Option (PlayerPanel ι)) :=
  match core.player with
  | none => pure none
  | some player => do
    let getBoolProperty := fun property => (core.messageProperty property).getD false
    let track ← addCurrentTrack core player
    pure (some {
      playbackState := playbackStateName player.state
      volume := lround (player.volume.getD 0 * 100)
      muteModeOn := player.mute.getD false
      repeatModeOn := getBoolProperty .repeatMode
      shuffleModeOn := getBoolProperty .shuffle
      radioCaptureModeOn := getBoolProperty .radioCap
      track })

end RemoteControl
