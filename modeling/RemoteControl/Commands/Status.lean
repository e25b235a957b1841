import RemoteControl.Commands.ControlPanel
import RemoteControl.Commands.Mutations

/-!
# Status

statusCommand.cpp and equalizerBands.h, with a `float` as the rational it stands for and
exact arithmetic.
-/

namespace RemoteControl

variable {ι : Type}

/-! ## Ranges -/

structure RangeProperty where
  property : DispatcherProperty
  min : Rat
  max : Rat
  pivotPercent : Int := 0
  pivotValue : Rat := min

def rangeFor (id : Int) : Option RangeProperty :=
  match id with
  | 1 => some { property := .volume, min := 0, max := 1 }
  | 2 => some { property := .balance, min := -1, max := 1 }
  | 3 => some { property := .speed, min := 1 / 2, max := 3, pivotPercent := 50, pivotValue := 1 }
  | 6 => some { property := .reverb, min := 0, max := 1 }
  | 7 => some { property := .echo, min := 0, max := 1 }
  | 8 => some { property := .chorus, min := 0, max := 1 }
  | 9 => some { property := .flanger, min := 0, max := 1 }
  | 48 => some { property := .trueBass, min := 0, max := 2 }
  | 49 => some { property := .enhancer, min := 1, max := 5 }
  | 50 => some { property := .tempo, min := 1 / 2, max := 3, pivotPercent := 28, pivotValue := 1 }
  | 51 => some { property := .pitch, min := -10, max := 10 }
  | 52 => some { property := .preamp, min := -15, max := 15 }
  | _ => none

def toPercent (value : Rat) (r : RangeProperty) : Int :=
  let lower : Bool := value < r.pivotValue ∧ 0 < r.pivotPercent
  let start := if lower then r.min else r.pivotValue
  let stop := if lower then r.pivotValue else r.max
  let startPercent : Rat := if lower then 0 else r.pivotPercent
  let stopPercent : Rat := if lower then r.pivotPercent else 100
  (startPercent + (value - start) / (stop - start) * (stopPercent - startPercent)).floor

def fromPercent (percent : Int) (r : RangeProperty) : Rat :=
  let lower : Bool := percent < r.pivotPercent ∧ 0 < r.pivotPercent
  let start := if lower then r.min else r.pivotValue
  let stop := if lower then r.pivotValue else r.max
  let startPercent : Rat := if lower then 0 else r.pivotPercent
  let stopPercent : Rat := if lower then r.pivotPercent else 100
  start + (stop - start) * (percent - startPercent) / (stopPercent - startPercent)

def equalizerBandCount : Int := 18

def equalizerDbToPercent (db : Rat) : Int := ((db + 15) / (2 * 15) * 100).floor

def equalizerPercentToDb (percent : Int) : Rat := -15 + 2 * 15 * percent / 100

/-! ## Access -/

def boolPropertyFor (id : Int) : Option DispatcherProperty :=
  match id with
  | 5 => some .mute
  | 10 => some .equalizer
  | 29 => some .repeatMode
  | 30 => some .stopAfterTrack
  | 34 => some .repeatSingleFilePlaylists
  | 38 => some .radioCap
  | 41 => some .shuffle
  | 45 => some .minimizedToTray
  | _ => none

/-- What Status asks for: the dispatcher, if there is one, and the file info of the
player's current track. -/
structure StatusSources where
  dispatcher : Option MessageDispatcher
  currentFileInfo : Option FileInfo

namespace StatusSources

variable (sources : StatusSources)

/-- `Dispatcher::Set`, when there is a value to set. -/
def set (property : DispatcherProperty) (hiWord : Nat) (value : Option Rat) : List (Call ι) :=
  match sources.dispatcher, value with
  | some dispatcher, some value =>
    [⟨.setProperty property hiWord value, dispatcher.set property hiWord value⟩]
  | _, _ => []

/-- `Dispatcher::Get<float>`. -/
def getFloat (property : DispatcherProperty) (hiWord : Nat) (written : Option Rat) : Option Rat :=
  sources.dispatcher.bind fun dispatcher => dispatcher.getFloat property hiWord written

/-- `Dispatcher::Get` of a `BOOL` or an `INT32`. -/
def getInt (property : DispatcherProperty) (written : Option Int) : Option Int :=
  sources.dispatcher.bind fun dispatcher => dispatcher.getInt property 0 written

end StatusSources

/-- What is left when the id is of no range, no flag and no band. -/
def accessOther (sources : StatusSources) (id : Int) (value : Option Int) :
    Option Int × List (Call ι) :=
  match id with
  | 4 | 37 => (some ((sources.getInt .playerState none).getD 0), [])
  | 31 =>
    let written := value.map fun v => (v : Rat)
    (some (castInt 32 (truncate ((sources.getFloat .playerPosition 0 written).getD 0))),
      sources.set .playerPosition 0 written)
  | 32 => (some (castInt 32 ((sources.getFloat .playerDuration 0 none).getD 0).ceil), [])
  | 33 =>
    let written := value.map fun v => if v ≠ 0 then (1 : Int) else 0
    (some (if (sources.getInt .actionOnEndOfPlaylist written).getD 0 = 1 then 1 else 0),
      sources.set .actionOnEndOfPlaylist 0 (written.map fun v => (v : Rat)))
  | 35 => (some ((sources.currentFileInfo.bind FileInfo.bitrate).getD 0), [])
  | 36 => (some (((sources.currentFileInfo.bind FileInfo.samplerate).getD 0).tdiv 1000), [])
  | _ => (none, [])

/-- `Access`. -/
def access (sources : StatusSources) (id : Int) (value : Option Int) :
    Option Int × List (Call ι) :=
  match rangeFor id with
  | some range =>
    let written := value.map fun v => fromPercent v range
    (some (toPercent ((sources.getFloat range.property 0 written).getD range.min) range),
      sources.set range.property 0 written)
  | none =>
    match boolPropertyFor id with
    | some property =>
      let written := value.map fun v => if v ≠ 0 then (1 : Int) else 0
      (some (if (sources.getInt property written).getD 0 ≠ 0 then 1 else 0),
        sources.set property 0 (written.map fun v => (v : Rat)))
    | none =>
      if 11 ≤ id ∧ id ≤ 11 + equalizerBandCount - 1 then
        let band := (id - 11).toNat
        let written := value.map equalizerPercentToDb
        (some (equalizerDbToPercent ((sources.getFloat .equalizerBand band written).getD 0)),
          sources.set .equalizerBand band written)
      else accessOther sources id value

/-- The ids the client may ask for. -/
def knownStatus (id : Int) : Prop :=
  (rangeFor id).isSome ∨ (boolPropertyFor id).isSome ∨ (11 ≤ id ∧ id ≤ 28) ∨
    id ∈ [4, 37, 31, 32, 33, 35, 36]

theorem accessOther_unknown {sources : StatusSources} {id : Int} {value : Option Int}
    (h : id ∉ [4, 37, 31, 32, 33, 35, 36]) :
    (accessOther sources id value : Option Int × List (Call ι)) = (none, []) := by
  simp only [List.mem_cons, List.not_mem_nil, or_false, not_or] at h
  obtain ⟨h4, h37, h31, h32, h33, h35, h36⟩ := h
  unfold accessOther
  split <;> first | contradiction | rfl

theorem access_unknown {sources : StatusSources} {id : Int} {value : Option Int}
    (h : ¬knownStatus id) :
    (access sources id value : Option Int × List (Call ι)) = (none, []) := by
  simp only [knownStatus, not_or, Option.not_isSome_iff_eq_none] at h
  obtain ⟨hrange, hbool, hband, hother⟩ := h
  have hband' : ¬(11 ≤ id ∧ id ≤ 11 + equalizerBandCount - 1) := hband
  rw [access, hrange, hbool]
  dsimp only
  rw [if_neg hband', accessOther_unknown hother]

/-- `knownStatus` says which ids are answered. -/
theorem access_isSome_iff {sources : StatusSources} {id : Int} {value : Option Int} :
    (access sources id value : Option Int × List (Call ι)).1.isSome ↔ knownStatus id := by
  constructor
  · intro h
    by_contra hunknown
    rw [access_unknown hunknown] at h
    cases h
  · intro h
    unfold access
    split
    · rfl
    · next hrange =>
      split
      · rfl
      · next hbool =>
        split
        · rfl
        · next hband =>
          simp only [knownStatus, hrange, hbool, Option.isSome_none, Bool.false_eq_true,
            false_or] at h
          have hother := h.resolve_left hband
          simp only [List.mem_cons, List.not_mem_nil, or_false] at hother
          rcases hother with rfl | rfl | rfl | rfl | rfl | rfl | rfl <;> rfl

/-- `StatusCommand`; a `value` that is a number is rounded and narrowed to `int`. -/
def status (sources : StatusSources) (moment : Moment ι) (params : Json) : Outcome ι :=
  match params.int32 (ascii "status_id") with
  | none => refuse (invalidParams "status_id is required")
  | some id =>
    let value := (params.number (ascii "value")).map fun x => (BitVec.ofInt 32 (lround x)).toInt
    let done := runOnMainThread none moment fun _ _ => access sources id.toInt value
    { reply := .rpc (match done.value with
        | none => .error (.rpcError (-32602) (ascii "unknown status_id " ++ toDecimal id.toInt))
        | some value => .ok (.obj [(ascii "value", .int value)]))
      ran := done.ran
      calls := done.calls }

end RemoteControl
