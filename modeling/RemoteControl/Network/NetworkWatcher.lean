import RemoteControl.Lib.Transition
import RemoteControl.Network.RemoteControlServer

/-!
# NetworkWatcher

The watcher's fields under its mutex, the callers of its members, the operating
system's address list and the watcher thread in `Run`. A pass runs unlocked: its
two reads and its handlers are steps of their own, between which anything else
may happen.

`requests` counts the refresh requests, the one of `Start` being the first. What a
pass read, and what was written, carries the count at that moment.
-/

namespace RemoteControl

namespace NetworkWatcher

/-- `AllowedAddresses`, once the two lists are read. -/
def allowedAddresses (excluded : List Bytes) (addresses : List NetworkAddress) :
    List NetworkAddress :=
  addresses.filter fun a => a.interfaceId ∉ excluded

/-- A subscriber: the HTTP server's `Reconcile`, or another one. -/
inductive Handler
  | http
  | other
deriving DecidableEq

/-- Where the watcher thread is. -/
inductive Worker
  /-- Started, before it has the lock for the first time. -/
  | acquiring
  /-- In the wait: for two seconds with `retry`, untimed without. -/
  | waiting (retry : Bool)
  /-- In `AllowedAddresses`, before it copies the excluded ids. -/
  | readingExcluded (handlers : List Handler)
  /-- In `ListIPv4Addresses`. -/
  | readingAddresses (handlers : List Handler) (excluded : List Bytes)
  /-- In the loop over the handlers still to be called. -/
  | handling (allowed : List NetworkAddress) (todo : List Handler) (retry : Bool)
  | exited
deriving DecidableEq

/-- What the last pass read, and when. -/
structure Pass where
  excluded : List Bytes := []
  excludedAt : Nat := 0
  addresses : List NetworkAddress := []
  addressesAt : Nat := 0

def Pass.allowed (pass : Pass) : List NetworkAddress :=
  allowedAddresses pass.excluded pass.addresses

structure System where
  excludedIds : List Bytes
  handlers : List Handler
  stopping : Bool := false
  refreshRequested : Bool := true
  worker : Worker := .acquiring
  server : RemoteControlServer
  /-- What `ListIPv4Addresses` would return. -/
  osAddresses : List NetworkAddress
  requests : Nat := 1
  excludedWrittenAt : Nat := 0
  osChangedAt : Nat := 0
  lastPass : Pass := {}

/-- Where `Initialize` ends: the discovery server and the HTTP server have subscribed,
the HTTP server has been started and then the watcher. -/
def initialized (excludedIds : List Bytes) (osAddresses : List NetworkAddress) : System where
  excludedIds := excludedIds
  handlers := [.other, .http]
  server := RemoteControlServer.start (RemoteControlServer.onBindFailure {}) 3333
  osAddresses := osAddresses

inductive Action
  /-- The locked write of `SetExcludedInterfaces`; its `Refresh` is a step of its own. -/
  | setExcludedInterfaces (interfaceIds : List Bytes)
  | osChange (addresses : List NetworkAddress)
  /-- `Refresh`, by `SetExcludedInterfaces` or by a notification of the system. -/
  | refresh
  | subscribe (handler : Handler)
  | stop
  | acquire
  /-- The watcher wakes up, notified or not. -/
  | wake
  /-- The two seconds are over. -/
  | timeout
  | readExcluded
  | readAddresses
  /-- The next handler runs: another subscriber's answer, and what binds would answer. -/
  | handler (answer : Bool) (bind : Nat → Bytes → Bool)
  /-- The pass is over, the lock is taken again. -/
  | relock
  /-- The HTTP server's `Stop`, after the watcher's has joined the thread. -/
  | serverStop

namespace System

/-- The section after the wait, up to `lock.unlock()`. -/
def beginPass (s : System) : System :=
  { s with refreshRequested := false, worker := .readingExcluded s.handlers }

/-- The head of the loop, up to blocking or the next `lock.unlock()`. -/
def loopHead (s : System) (retry : Bool) : System :=
  if s.stopping then { s with worker := .exited }
  else if s.refreshRequested then s.beginPass
  else { s with worker := .waiting retry }

def step (s : System) : Action → Option System
  | .setExcludedInterfaces interfaceIds =>
    some { s with excludedIds := interfaceIds, excludedWrittenAt := s.requests }
  | .osChange addresses => some { s with osAddresses := addresses, osChangedAt := s.requests }
  | .refresh => some { s with refreshRequested := true, requests := s.requests + 1 }
  | .subscribe handler => some { s with handlers := s.handlers ++ [handler] }
  | .stop => some { s with stopping := true }
  | .acquire =>
    match s.worker with
    | .acquiring => some (s.loopHead false)
    | _ => none
  | .wake =>
    match s.worker with
    | .waiting retry => some (s.loopHead retry)
    | _ => none
  | .timeout =>
    match s.worker with
    | .waiting true => some (if s.stopping then { s with worker := .exited } else s.beginPass)
    | _ => none
  | .readExcluded =>
    match s.worker with
    | .readingExcluded handlers => some { s with
        worker := .readingAddresses handlers s.excludedIds
        lastPass := { s.lastPass with excluded := s.excludedIds, excludedAt := s.requests } }
    | _ => none
  | .readAddresses =>
    match s.worker with
    | .readingAddresses handlers excluded => some { s with
        worker := .handling (allowedAddresses excluded s.osAddresses) handlers false
        lastPass := { s.lastPass with addresses := s.osAddresses, addressesAt := s.requests } }
    | _ => none
  | .handler answer bind =>
    match s.worker with
    | .handling allowed (.other :: todo) retry =>
      some { s with worker := .handling allowed todo (retry || !answer) }
    | .handling allowed (.http :: todo) retry =>
      let (answer, server) := s.server.reconcile bind allowed
      some { s with server := server, worker := .handling allowed todo (retry || !answer) }
    | _ => none
  | .relock =>
    match s.worker with
    | .handling _ [] retry => some (s.loopHead retry)
    | _ => none
  | .serverStop =>
    match s.worker with
    | .exited => some { s with server := s.server.closeAll }
    | _ => none

end System

end NetworkWatcher

end RemoteControl
