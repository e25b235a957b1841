import Mathlib.Data.List.Nodup
import RemoteControl.Std.Bytes

/-!
# The HTTP server's listeners

`Start`, `Reconcile`, `Open`, `Close` and `CloseAll` of remoteControlServer.cpp, each
as one step: `ListenersMutex` is held throughout. A listener is its address, and
what `bind_to_port` answers is given, for each place in the list of allowed addresses.
-/

namespace RemoteControl

structure NetworkAddress where
  interfaceId : Bytes
  interfaceName : Bytes
  address : Bytes
  isLoopback : Bool := false
deriving DecidableEq

/-- The part of `AIMPRemoteControlServer::Impl` under `ListenersMutex`. `bindFailures`
lists the calls of the `BindFailure` handler, newest first. -/
structure RemoteControlServer where
  listeners : List Bytes := []
  bindFailure : Bool := false
  reportedBindFailures : List Bytes := []
  port : BitVec 16 := 3333
  running : Bool := false
  bindFailures : List (Bytes × BitVec 16) := []
deriving DecidableEq

namespace RemoteControlServer

def start (server : RemoteControlServer) (port : BitVec 16) : RemoteControlServer :=
  { server with port := port, running := true }

def onBindFailure (server : RemoteControlServer) : RemoteControlServer :=
  { server with bindFailure := true }

def closeAll (server : RemoteControlServer) : RemoteControlServer :=
  { server with running := false, listeners := [] }

def wanted (allowed : List NetworkAddress) (address : Bytes) : Bool :=
  allowed.any fun a => a.address == address

/-- The first loop of `Reconcile` and the `erase_if` after it. -/
def closeUnwanted (server : RemoteControlServer) (allowed : List NetworkAddress) :
    RemoteControlServer :=
  { server with
    listeners := server.listeners.filter (wanted allowed)
    reportedBindFailures := server.reportedBindFailures.filter (wanted allowed) }

/-- `bound || Open(a.Address)`, where `binds` is what the bind would answer. -/
def tryOpen (server : RemoteControlServer) (binds : Bool) (address : Bytes) :
    Bool × RemoteControlServer :=
  if address ∈ server.listeners then (true, server)
  else if binds then (true, { server with listeners := server.listeners ++ [address] })
  else (false, server)

/-- The end of the second loop's body: a first failure of the address is reported. -/
def reportBindFailure (server : RemoteControlServer) (address : Bytes) : RemoteControlServer :=
  if server.bindFailure ∧ address ∉ server.reportedBindFailures then
    { server with
      reportedBindFailures := address :: server.reportedBindFailures
      bindFailures := (address, server.port) :: server.bindFailures }
  else server

/-- The second loop's body; the result is whether `complete` may stay. -/
def openEntry (server : RemoteControlServer) (binds : Bool) (address : Bytes) :
    Bool × RemoteControlServer :=
  let (opened, server) := server.tryOpen binds address
  if opened then
    (true, { server with
      reportedBindFailures := server.reportedBindFailures.filter (· != address) })
  else (false, server.reportBindFailure address)

/-- The second loop of `Reconcile`, from entry `i` of the list on. -/
def openAllowed (bind : Nat → Bytes → Bool) (server : RemoteControlServer) (i : Nat) :
    List NetworkAddress → Bool × RemoteControlServer
  | [] => (true, server)
  | a :: allowed =>
    let (opened, server) := server.openEntry (bind i a.address) a.address
    let (complete, server) := openAllowed bind server (i + 1) allowed
    (opened && complete, server)

def reconcile (bind : Nat → Bytes → Bool) (server : RemoteControlServer)
    (allowed : List NetworkAddress) : Bool × RemoteControlServer :=
  if server.running then (server.closeUnwanted allowed).openAllowed bind 0 allowed
  else (true, server)

/-! ## What a pass leaves -/

variable {bind : Nat → Bytes → Bool} {server : RemoteControlServer}
  {allowed : List NetworkAddress} {address : Bytes}

theorem wanted_eq_true : wanted allowed address = true ↔ ∃ a ∈ allowed, a.address = address := by
  simp [wanted]

/-- Exactly one listener for every wanted address and none for any other. -/
structure Synced (server : RemoteControlServer) (allowed : List NetworkAddress) : Prop where
  nodup : server.listeners.Nodup
  mem_iff : ∀ address, address ∈ server.listeners ↔ wanted allowed address = true

@[simp] theorem reportBindFailure_listeners :
    (server.reportBindFailure address).listeners = server.listeners := by
  unfold reportBindFailure
  split <;> rfl

@[simp] theorem reportBindFailure_running :
    (server.reportBindFailure address).running = server.running := by
  unfold reportBindFailure
  split <;> rfl

theorem openEntry_listeners (binds : Bool) :
    (server.openEntry binds address).2.listeners =
      if address ∉ server.listeners ∧ binds then server.listeners ++ [address]
      else server.listeners := by
  unfold openEntry tryOpen
  by_cases hbound : address ∈ server.listeners
  · simp [hbound]
  · cases binds <;> simp [hbound]

theorem mem_openEntry_of_opened {binds : Bool}
    (h : (server.openEntry binds address).1 = true) :
    address ∈ (server.openEntry binds address).2.listeners := by
  rw [openEntry_listeners]
  unfold openEntry tryOpen at h
  by_cases hbound : address ∈ server.listeners
  · simp [hbound]
  · cases binds <;> simp [hbound] at h ⊢

@[simp] theorem openEntry_running (binds : Bool) :
    (server.openEntry binds address).2.running = server.running := by
  unfold openEntry tryOpen
  by_cases hbound : address ∈ server.listeners
  · simp [hbound]
  · cases binds <;> simp [hbound]

theorem openEntry_nodup (h : server.listeners.Nodup) (binds : Bool) :
    (server.openEntry binds address).2.listeners.Nodup := by
  rw [openEntry_listeners]
  split
  · next hnew =>
    refine List.nodup_append.mpr ⟨h, List.nodup_singleton _, ?_⟩
    intro x hx y hy hxy
    exact hnew.1 (List.mem_singleton.mp hy ▸ hxy ▸ hx)
  · exact h

theorem openEntry_subset (binds : Bool) :
    server.listeners ⊆ (server.openEntry binds address).2.listeners := by
  rw [openEntry_listeners]
  split
  · exact List.subset_append_left _ _
  · exact List.Subset.refl _

theorem mem_openEntry {x : Bytes} {binds : Bool}
    (h : x ∈ (server.openEntry binds address).2.listeners) :
    x ∈ server.listeners ∨ x = address := by
  rw [openEntry_listeners] at h
  split at h
  · simpa using h
  · exact Or.inl h

/-- What the second loop does to the listeners: it only adds, only addresses of the
list, none twice; when it reports `complete`, every address of the list is served. -/
structure Opened (server server' : RemoteControlServer) (allowed : List NetworkAddress)
    (complete : Bool) : Prop where
  running : server'.running = server.running
  nodup : server.listeners.Nodup → server'.listeners.Nodup
  keeps : server.listeners ⊆ server'.listeners
  only : ∀ x ∈ server'.listeners, x ∈ server.listeners ∨ wanted allowed x = true
  served : complete = true → ∀ a ∈ allowed, a.address ∈ server'.listeners

theorem openAllowed_opened (server : RemoteControlServer) (i : Nat)
    (allowed : List NetworkAddress) :
    Opened server (openAllowed bind server i allowed).2 allowed
      (openAllowed bind server i allowed).1 := by
  induction allowed generalizing server i with
  | nil => exact ⟨rfl, id, List.Subset.refl _, fun x hx => Or.inl hx, fun _ a ha => by cases ha⟩
  | cons a allowed ih =>
    obtain ⟨hrunning, hnodup, hkeeps, honly, hserved⟩ :=
      ih (server.openEntry (bind i a.address) a.address).2 (i + 1)
    refine ⟨?_, fun h => hnodup (openEntry_nodup h _), ?_, fun x hx => ?_, fun hcomplete b hb => ?_⟩
    · exact hrunning.trans (openEntry_running _)
    · exact List.Subset.trans (openEntry_subset _) hkeeps
    · rcases honly x hx with h | h
      · rcases mem_openEntry h with h | rfl
        · exact Or.inl h
        · exact Or.inr (by simp [wanted])
      · obtain ⟨b, hb, hbx⟩ := wanted_eq_true.mp h
        exact Or.inr (wanted_eq_true.mpr ⟨b, List.mem_cons_of_mem a hb, hbx⟩)
    · obtain ⟨hopened, hrest⟩ := Bool.and_eq_true_iff.mp hcomplete
      rcases List.mem_cons.mp hb with rfl | hb
      · exact hkeeps (mem_openEntry_of_opened hopened)
      · exact hserved hrest b hb

theorem closeUnwanted_listeners :
    (server.closeUnwanted allowed).listeners = server.listeners.filter (wanted allowed) := rfl

/-- Whatever the binds answer, a pass of the running server closes every listener
whose address is not allowed. -/
theorem reconcile_only_wanted (hrunning : server.running = true) :
    ∀ x ∈ (reconcile bind server allowed).2.listeners, wanted allowed x = true := by
  intro x hx
  rw [reconcile, if_pos hrunning] at hx
  rcases (openAllowed_opened _ _ _).only x hx with h | h
  · rw [closeUnwanted_listeners, List.mem_filter] at h
    exact h.2
  · exact h

theorem reconcile_nodup (h : server.listeners.Nodup) :
    (reconcile bind server allowed).2.listeners.Nodup := by
  unfold reconcile
  split
  · exact (openAllowed_opened _ _ _).nodup (h.filter _)
  · exact h

@[simp] theorem reconcile_running :
    (reconcile bind server allowed).2.running = server.running := by
  unfold reconcile
  split
  · exact (openAllowed_opened _ _ _).running
  · rfl

/-- A pass that answers `true` leaves exactly the wanted listeners. -/
theorem reconcile_synced (hrunning : server.running = true) (hnodup : server.listeners.Nodup)
    (hcomplete : (reconcile bind server allowed).1 = true) :
    Synced (reconcile bind server allowed).2 allowed := by
  refine ⟨reconcile_nodup hnodup, fun x => ⟨reconcile_only_wanted hrunning x, fun hx => ?_⟩⟩
  rw [reconcile, if_pos hrunning] at hcomplete ⊢
  obtain ⟨a, ha, rfl⟩ := wanted_eq_true.mp hx
  exact (openAllowed_opened _ _ _).served hcomplete a ha

end RemoteControlServer

end RemoteControl
