import Mathlib.Logic.Relation
import RemoteControl.Lib.Transition

/-!
# Finalize and the threads it joins

The main thread in `AIMPPlugin::Finalize`, with the threads of the plugin as far as
they block: the netlink listener, the watcher, the sleep timer, the discovery server,
the HTTP listeners and the handlers they run. `JoinPumpingMessages` is a plain join, as
on Linux, and the main thread runs tasks only in its message loop.

Mutexes are left out: none is held across a wait but `ListenersMutex`, which the main
thread takes after it has joined the watcher. Where there is no thread service
`RunOnMainThread` runs the function in place, which is no step here.
-/

namespace RemoteControl

open Transition

namespace Plugin

/-- What a request handler is doing. -/
inductive Doing
  | running
  /-- In `ExecuteInMainThread`, for a task that has not run. -/
  | waitingTask
  /-- In `StateUpdateEvents::Wait`. -/
  | polling
  /-- Past a `Wait` that ended because of `Stop`: the reply is an error. -/
  | answering
deriving DecidableEq

structure Handler where
  listener : Nat
  doing : Doing
deriving DecidableEq

inductive Thread
  | main
  | notifications
  | watcher
  | timer
  | discovery
  | listener (id : Nat)
  | handler (handler : Handler)
deriving DecidableEq

inductive Watcher
  | waiting
  /-- In a pass, before its handlers. -/
  | reading
  /-- In the discovery server's handler, for its `io_context` to reply. -/
  | waitingDiscovery
  /-- In `Reconcile`, between two joins. -/
  | reconciling
  /-- In `Close`, joining the listener's thread. -/
  | closing (listener : Nat)
  | exited
deriving DecidableEq

inductive Timer
  | waiting
  /-- In `Execute`, before its task. -/
  | firing
  | waitingTask
  | exited
deriving DecidableEq

/-- The main thread: outside the plugin, or at a point of `Finalize`. -/
inductive MainThread
  | messageLoop
  | joiningNotifications
  | joiningWatcher
  | joiningTimer
  | stoppingEvents
  /-- In `CloseAll`, between two joins. -/
  | closingAll
  | closing (listener : Nat)
  | joiningDiscovery
  | finalized
deriving DecidableEq

def MainThread.joins : MainThread → Option Thread
  | .joiningNotifications => some .notifications
  | .joiningWatcher => some .watcher
  | .joiningTimer => some .timer
  | .closing listener => some (.listener listener)
  | .joiningDiscovery => some .discovery
  | .messageLoop | .stoppingEvents | .closingAll | .finalized => none

structure System where
  main : MainThread := .messageLoop
  /-- Whether the netlink thread and the discovery server's thread run. -/
  notifications : Bool := true
  discovery : Bool := true
  watcher : Watcher := .waiting
  watcherStopping : Bool := false
  timer : Timer := .waiting
  timerStopped : Bool := false
  eventsStopped : Bool := false
  /-- The `Listeners` that are not closed. -/
  listeners : List Nat := []
  handlers : List Handler := []

inductive Action
  /-- The main thread's next step of `Finalize`. -/
  | finalize
  /-- `OsNotifications::Listen` and `Io.run` return. -/
  | notificationsExit
  | discoveryExit
  | beginPass
  | listsRead
  | discoveryReplied
  | openListener (listener : Nat)
  | closeListener (listener : Nat)
  | listenerClosed
  | endPass
  | watcherExit
  | timerFire
  | timerRunOnMainThread
  | timerFired
  | timerExit
  | request (listener : Nat)
  | runOnMainThread (listener : Nat)
  | poll (listener : Nat)
  /-- `Wait` returns: a `Notify`, a timeout or `Stop`. -/
  | pollReturns (listener : Nat)
  | respond (handler : Handler)
  /-- The message loop runs the task of a handler or of the timer. -/
  | runTask (listener : Nat)
  | runTimerTask

namespace System

/-- Whether a handler of this listener has yet to return. -/
def inFlight (s : System) (listener : Nat) : Bool :=
  s.handlers.any fun h => h.listener == listener

/-- One handler of the listener goes on to something else. -/
def move (s : System) (listener : Nat) (before after : Doing) : Option System :=
  if ⟨listener, before⟩ ∈ s.handlers then
    some { s with handlers := ⟨listener, after⟩ :: s.handlers.erase ⟨listener, before⟩ }
  else none

/-- What `Finalize` does next, once the thread it joins has returned. -/
def finalize (s : System) : Option System :=
  match s.main with
  | .messageLoop => some { s with main := .joiningNotifications }
  | .joiningNotifications =>
    if s.notifications then none
    else some { s with main := .joiningWatcher, watcherStopping := true }
  | .joiningWatcher =>
    if s.watcher = .exited then some { s with main := .joiningTimer, timerStopped := true }
    else none
  | .joiningTimer => if s.timer = .exited then some { s with main := .stoppingEvents } else none
  | .stoppingEvents => some { s with main := .closingAll, eventsStopped := true }
  | .closingAll =>
    match s.listeners with
    | [] => some { s with main := .joiningDiscovery }
    | listener :: _ => some { s with main := .closing listener }
  | .closing listener =>
    if s.inFlight listener then none
    else some { s with main := .closingAll, listeners := s.listeners.erase listener }
  | .joiningDiscovery => if s.discovery then none else some { s with main := .finalized }
  | .finalized => none

def step (s : System) : Action → Option System
  | .finalize => s.finalize
  | .notificationsExit =>
    if s.main = .joiningNotifications then some { s with notifications := false } else none
  | .discoveryExit =>
    if s.main = .joiningDiscovery then some { s with discovery := false } else none
  | .beginPass =>
    if s.watcher = .waiting ∧ s.watcherStopping = false then some { s with watcher := .reading }
    else none
  | .listsRead =>
    if s.watcher = .reading then some { s with watcher := .waitingDiscovery } else none
  | .discoveryReplied =>
    if s.watcher = .waitingDiscovery then some { s with watcher := .reconciling } else none
  | .openListener listener =>
    if s.watcher = .reconciling ∧ listener ∉ s.listeners then
      some { s with listeners := s.listeners ++ [listener] }
    else none
  | .closeListener listener =>
    if s.watcher = .reconciling ∧ listener ∈ s.listeners then
      some { s with watcher := .closing listener }
    else none
  | .listenerClosed =>
    match s.watcher with
    | .closing listener =>
      if s.inFlight listener then none
      else some { s with watcher := .reconciling, listeners := s.listeners.erase listener }
    | _ => none
  | .endPass =>
    if s.watcher = .reconciling then some { s with watcher := .waiting } else none
  | .watcherExit =>
    if s.watcher = .waiting ∧ s.watcherStopping then some { s with watcher := .exited } else none
  | .timerFire =>
    if s.timer = .waiting ∧ s.timerStopped = false then some { s with timer := .firing } else none
  | .timerRunOnMainThread =>
    if s.timer = .firing then some { s with timer := .waitingTask } else none
  | .timerFired => if s.timer = .firing then some { s with timer := .waiting } else none
  | .timerExit =>
    if s.timer = .waiting ∧ s.timerStopped then some { s with timer := .exited } else none
  | .request listener =>
    -- also while it is being closed: the connection may have been accepted before
    if listener ∈ s.listeners then
      some { s with handlers := ⟨listener, .running⟩ :: s.handlers }
    else none
  | .runOnMainThread listener => s.move listener .running .waitingTask
  | .poll listener => s.move listener .running .polling
  | .pollReturns listener =>
    s.move listener .polling (if s.eventsStopped then .answering else .running)
  | .respond handler =>
    if handler ∈ s.handlers ∧ (handler.doing = .running ∨ handler.doing = .answering) then
      some { s with handlers := s.handlers.erase handler }
    else none
  | .runTask listener =>
    if s.main = .messageLoop then s.move listener .waitingTask .running else none
  | .runTimerTask =>
    if s.main = .messageLoop ∧ s.timer = .waitingTask then some { s with timer := .waiting }
    else none

end System

end Plugin

end RemoteControl
