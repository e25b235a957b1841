import RemoteControl.Std.Bytes

/-!
# StateUpdateEvents

One version counter for each kind of event and the stop flag, under one mutex.
`Wait` is cut at its blocking point: `enter` remembers the version it saw,
`predicate` is what every wake-up looks at, and `waitResult` is what `Wait`
returns once the predicate holds or the time is up.
-/

namespace RemoteControl

inductive EventKind
  | controlPanel
  | playlists
  | queue
  | timer
deriving DecidableEq, Repr

structure StateUpdateEvents where
  versions : EventKind → BitVec 64 := fun _ => 0
  stopped : Bool := false

namespace StateUpdateEvents

variable (e : StateUpdateEvents) (kind : EventKind)

/-- The locked part of `Notify`. -/
def notify : StateUpdateEvents :=
  { e with versions := fun k => if k = kind then e.versions kind + 1 else e.versions k }

/-- The locked part of `Stop`. -/
def stop : StateUpdateEvents := { e with stopped := true }

/-- What `Wait` compares with, taken when it enters. -/
def enter : BitVec 64 := e.versions kind

/-- The predicate of `wait_for`. -/
def predicate (seen : BitVec 64) : Bool := e.stopped || e.versions kind != seen

/-- The value of `Wait` when it gets the lock back. -/
def waitResult (seen : BitVec 64) : Bool := e.predicate kind seen && !e.stopped

theorem predicate_eq_false {e : StateUpdateEvents} {kind : EventKind} {seen : BitVec 64} :
    e.predicate kind seen = false ↔ e.stopped = false ∧ e.versions kind = seen := by
  simp [predicate]

end StateUpdateEvents

end RemoteControl
