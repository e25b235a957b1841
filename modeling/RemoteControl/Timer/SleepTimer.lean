import RemoteControl.Std.Bytes
import RemoteControl.Lib.Transition

/-!
# SleepTimer

The timer's fields under its mutex, the callers of `Set`, `Cancel` and `Stop`, and
the worker thread in `Run`. Every lock-protected section is one step: the worker's
go from taking the lock to the next wait or unlock.

Times are nanoseconds of the steady clock. The log lists what happened, newest
first; a `Set`, a `Cancel` and a fire are identified by their place in it.
-/

namespace RemoteControl

open Transition

/-- The fields of `SleepTimer` that its mutex guards, and whether `FEvents` is set. -/
structure SleepTimer where
  stopped : Bool := false
  active : Bool := false
  action : Bytes := []
  deadline : Int := 0
  generation : BitVec 64 := 0
  events : Bool := true

namespace SleepTimer

/-- `steady_clock::now() + delay` in the clock's 64-bit nanoseconds. -/
def deadlineAfter (now delay : Int) : Int := (now + delay * 10 ^ 9).bmod (2 ^ 64)

/-- The locked part of `Set`. -/
def set (timer : SleepTimer) (action : Bytes) (now delay : Int) : SleepTimer :=
  { timer with
    active := true
    action := action
    deadline := deadlineAfter now delay
    generation := timer.generation + 1 }

/-- The locked part of `Cancel`. -/
def cancel (timer : SleepTimer) : SleepTimer := { timer with active := false }

/-- The locked part of `Stop`. -/
def stop (timer : SleepTimer) : SleepTimer := { timer with stopped := true, active := false }

/-- What the worker waits for while no timer is set. -/
def activePredicate (timer : SleepTimer) : Bool := timer.stopped || timer.active

/-- What interrupts the wait for a deadline. -/
def deadlinePredicate (timer : SleepTimer) (generation : BitVec 64) : Bool :=
  timer.stopped || !timer.active || timer.generation != generation

/-- Where the worker thread is. -/
inductive Worker
  /-- About to take the lock at the head of the loop. -/
  | acquiring
  | waitingActive
  | waitingDeadline (generation : BitVec 64)
  /-- In `Execute`, unlocked. -/
  | executing (id : Nat) (action : Bytes)
  /-- Back from `Execute`, before its `Notify`. -/
  | notifying (id : Nat)
  | exited
deriving DecidableEq

/-- The head of the loop in `Run`, up to the next wait. -/
def loopHead (timer : SleepTimer) : Worker :=
  if timer.stopped then .exited
  else if timer.active then .waitingDeadline timer.generation
  else .waitingActive

inductive Event
  | set (id : Nat) (action : Bytes) (deadline : Int)
  | cancel (id : Nat)
  | stop
  /-- The worker commits to an action at `time`. -/
  | commit (id : Nat) (action : Bytes) (time : Int)
  /-- The `Notify(Timer)` that belongs to event `id`. -/
  | notified (id : Nat)
deriving DecidableEq

structure System where
  timer : SleepTimer := {}
  worker : Worker := .acquiring
  now : Int := 0
  /-- The calls of `Set` and `Cancel` that have yet to do their `if (FEvents) Notify`. -/
  callers : List Nat := []
  log : List Event := []

inductive Action
  | set (action : Bytes) (delay : Int)
  | cancel
  | callerNotify (id : Nat)
  | stop
  /-- `Stop` has joined the worker and clears `FEvents`. -/
  | stopJoined
  | tick (nanoseconds : Nat)
  | acquire
  /-- The worker wakes up, notified or not. -/
  | wake
  /-- The wait for the deadline reports a timeout; it may do so early. -/
  | timeout
  | executeDone
  | workerNotify

namespace System

/-- The worker's section after a timeout with a false predicate: an early one goes
back to waiting, otherwise the worker commits. -/
def expire (s : System) : System :=
  if s.now < s.timer.deadline then { s with worker := s.timer.loopHead }
  else { s with
    timer := { s.timer with active := false }
    worker := .executing s.log.length s.timer.action
    log := .commit s.log.length s.timer.action s.now :: s.log }

def step (s : System) : Action → Option System
  | .set action delay => some { s with
      timer := s.timer.set action s.now delay
      callers := s.log.length :: s.callers
      log := .set s.log.length action (deadlineAfter s.now delay) :: s.log }
  | .cancel => some { s with
      timer := s.timer.cancel
      callers := s.log.length :: s.callers
      log := .cancel s.log.length :: s.log }
  | .callerNotify id =>
    if id ∈ s.callers then
      some { s with
        callers := s.callers.erase id
        log := if s.timer.events then .notified id :: s.log else s.log }
    else none
  | .stop =>
    if s.timer.stopped then none
    else some { s with timer := s.timer.stop, log := .stop :: s.log }
  | .stopJoined =>
    match s.worker with
    | .exited => some { s with timer.events := false }
    | _ => none
  | .tick nanoseconds => some { s with now := s.now + nanoseconds }
  | .acquire =>
    match s.worker with
    | .acquiring => some { s with worker := s.timer.loopHead }
    | _ => none
  | .wake =>
    match s.worker with
    | .waitingActive =>
      if s.timer.activePredicate then some { s with worker := s.timer.loopHead } else some s
    | .waitingDeadline generation =>
      if s.timer.deadlinePredicate generation then some { s with worker := s.timer.loopHead }
      else some s
    | _ => none
  | .timeout =>
    match s.worker with
    | .waitingDeadline generation =>
      if s.timer.deadlinePredicate generation then some { s with worker := s.timer.loopHead }
      else some s.expire
    | _ => none
  | .executeDone =>
    match s.worker with
    | .executing id _ => some { s with worker := .notifying id }
    | _ => none
  | .workerNotify =>
    match s.worker with
    | .notifying id => some { s with
        worker := .acquiring
        log := if s.timer.events then .notified id :: s.log else s.log }
    | _ => none

end System

end SleepTimer

end RemoteControl
