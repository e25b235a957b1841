import RemoteControl.Lib.Transition
import RemoteControl.Network.RemoteControlServer

/-!
# The discovery server's listeners

`Open` and `Reconcile` of serviceDiscoveryServer.cpp on Linux, where a listener's
socket is bound to the interface of the address it was opened for. The `Listeners` are
keyed by address: an address that is still allowed keeps its socket, also when it has
moved to another interface.
-/

namespace RemoteControl

open Transition

/-- The interface that the listener stored under an address is bound to. -/
structure DiscoveryServer where
  listeners : Bytes → Option Bytes := fun _ => none

namespace DiscoveryServer

open RemoteControlServer (wanted wanted_eq_true)

/-- The first loop of `Reconcile`. -/
def closeUnwanted (server : DiscoveryServer) (allowed : List NetworkAddress) :
    DiscoveryServer where
  listeners address := if wanted allowed address then server.listeners address else none

/-- `Open`, with `SO_BINDTODEVICE` and `bind` successful. -/
def openListener (server : DiscoveryServer) (a : NetworkAddress) : DiscoveryServer where
  listeners address := if address = a.address then some a.interfaceId else server.listeners address

/-- The second loop of `Reconcile`, from entry `i` of the list on; `opens` is what
`Open` would answer. -/
def openAllowed (opens : Nat → Bool) (server : DiscoveryServer) (i : Nat) :
    List NetworkAddress → Bool × DiscoveryServer
  | [] => (true, server)
  | a :: allowed =>
    if (server.listeners a.address).isSome then openAllowed opens server (i + 1) allowed
    else if opens i then openAllowed opens (server.openListener a) (i + 1) allowed
    else (false, (openAllowed opens server (i + 1) allowed).2)

def reconcile (opens : Nat → Bool) (server : DiscoveryServer) (allowed : List NetworkAddress) :
    Bool × DiscoveryServer :=
  (server.closeUnwanted allowed).openAllowed opens 0 allowed

/-! ## What a call leaves -/

section OpenAllowed

variable {opens : Nat → Bool} {server : DiscoveryServer} {i : Nat}
  {allowed : List NetworkAddress} {address interface : Bytes}

/-- A listener that is there stays as it is. -/
theorem openAllowed_keeps (h : server.listeners address = some interface) :
    (server.openAllowed opens i allowed).2.listeners address = some interface := by
  induction allowed generalizing server i with
  | nil => exact h
  | cons a allowed ih =>
    unfold openAllowed
    split
    · exact ih h
    · next hnone =>
      split
      · refine ih ?_
        rw [openListener]
        dsimp only
        split
        · next heq =>
          subst heq
          rw [h] at hnone
          exact absurd rfl hnone
        · exact h
      · exact ih h

/-- A new listener is bound to an interface that has its address. -/
theorem openAllowed_opened (h : (server.openAllowed opens i allowed).2.listeners address =
    some interface) :
    server.listeners address = some interface ∨
      ∃ a ∈ allowed, a.address = address ∧ a.interfaceId = interface := by
  induction allowed generalizing server i with
  | nil => exact .inl h
  | cons a allowed ih =>
    have hlater : (∃ b ∈ allowed, b.address = address ∧ b.interfaceId = interface) →
        ∃ b ∈ a :: allowed, b.address = address ∧ b.interfaceId = interface := by
      rintro ⟨b, hb, hmatch⟩
      exact ⟨b, List.mem_cons_of_mem a hb, hmatch⟩
    unfold openAllowed at h
    split at h
    · exact (ih h).imp_right hlater
    · split at h
      · rcases ih h with hopened | hrest
        · rw [openListener] at hopened
          dsimp only at hopened
          split at hopened
          · next heq =>
            cases hopened
            exact .inr ⟨a, List.mem_cons_self, heq.symm, rfl⟩
          · exact .inl hopened
        · exact .inr (hlater hrest)
      · exact (ih h).imp_right hlater

/-- The call succeeds when `Open` does for every address that had no listener, the first
time it comes. -/
def OpensMissing (opens : Nat → Bool) (server : DiscoveryServer) (i : Nat)
    (allowed : List NetworkAddress) : Prop :=
  ∀ before a after, allowed = before ++ a :: after → server.listeners a.address = none →
    (∀ b ∈ before, b.address ≠ a.address) → opens (i + before.length) = true

/-- What is open already does not matter for the rest of the list. -/
theorem opensMissing_cons {server' : DiscoveryServer} {a : NetworkAddress}
    (hsame : ∀ address, server'.listeners address = none ↔
      server.listeners address = none ∧ address ≠ a.address)
    (ha : server.listeners a.address = none → opens i = true) :
    OpensMissing opens server i (a :: allowed) ↔ OpensMissing opens server' (i + 1) allowed := by
  have hindex : ∀ n, i + (n + 1) = i + 1 + n := fun n => by omega
  constructor
  · rintro h before b after rfl hb hfirst
    obtain ⟨hnone, hne⟩ := (hsame b.address).mp hb
    rw [← hindex]
    refine h (a :: before) b after rfl hnone ?_
    intro c hc
    rcases List.mem_cons.mp hc with rfl | hc
    · exact Ne.symm hne
    · exact hfirst c hc
  · intro h before b after heq hb hfirst
    cases before with
    | nil =>
      obtain ⟨rfl, rfl⟩ := List.cons_eq_cons.mp heq
      exact ha hb
    | cons c before =>
      obtain ⟨rfl, rfl⟩ := List.cons_eq_cons.mp heq
      rw [List.length_cons, hindex]
      exact h before b after rfl
        ((hsame b.address).mpr ⟨hb, Ne.symm (hfirst a List.mem_cons_self)⟩)
        fun c hc => hfirst c (List.mem_cons_of_mem a hc)

theorem openListener_eq_none {a : NetworkAddress} :
    (server.openListener a).listeners address = none ↔
      server.listeners address = none ∧ address ≠ a.address := by
  rw [openListener]
  dsimp only
  split
  · next heq => simp [heq]
  · next hne => simp [hne]

theorem openAllowed_complete_iff :
    (server.openAllowed opens i allowed).1 = true ↔ OpensMissing opens server i allowed := by
  induction allowed generalizing server i with
  | nil =>
    refine ⟨fun _ before a after heq => ?_, fun _ => rfl⟩
    simp at heq
  | cons a allowed ih =>
    unfold openAllowed
    split
    · next hsome =>
      obtain ⟨interface, hlistener⟩ := Option.isSome_iff_exists.mp hsome
      have hsame : ∀ address, server.listeners address = none ↔
          server.listeners address = none ∧ address ≠ a.address := by
        intro address
        refine ⟨fun hnone => ⟨hnone, ?_⟩, And.left⟩
        rintro rfl
        rw [hlistener] at hnone
        cases hnone
      rw [ih, opensMissing_cons hsame]
      intro hnone
      rw [hlistener] at hnone
      cases hnone
    · next hnone =>
      split
      · next hopens =>
        rw [ih]
        exact (opensMissing_cons (fun _ => openListener_eq_none) fun _ => hopens).symm
      · next hfails =>
        refine ⟨nofun, fun h => absurd ?_ hfails⟩
        exact h [] a allowed rfl (Option.not_isSome_iff_eq_none.mp hnone) nofun

/-- A call that succeeds has opened a listener for the first entry with each address. -/
theorem openAllowed_missing (hcomplete : (server.openAllowed opens i allowed).1 = true)
    (h : server.listeners address = none) :
    (server.openAllowed opens i allowed).2.listeners address =
      (allowed.find? (·.address = address)).map (·.interfaceId) := by
  induction allowed generalizing server i with
  | nil => exact h
  | cons a allowed ih =>
    have hskip : a.address ≠ address → (a :: allowed).find? (·.address = address) =
        allowed.find? (·.address = address) := fun hne => by
      rw [List.find?_cons_of_neg (by simpa using hne)]
    unfold openAllowed at hcomplete ⊢
    split
    · next hsome =>
      rw [if_pos hsome] at hcomplete
      rw [hskip, ih hcomplete h]
      rintro rfl
      rw [h] at hsome
      cases hsome
    · next hnone =>
      rw [if_neg hnone] at hcomplete
      split
      · next hopens =>
        rw [if_pos hopens] at hcomplete
        by_cases heq : a.address = address
        · rw [List.find?_cons_of_pos (by simpa using heq)]
          refine openAllowed_keeps ?_
          rw [openListener]
          exact if_pos heq.symm
        · rw [hskip heq]
          exact ih hcomplete (openListener_eq_none.mpr ⟨h, Ne.symm heq⟩)
      · next hfails =>
        rw [if_neg hfails] at hcomplete
        cases hcomplete

end OpenAllowed

section Reconcile

variable {opens : Nat → Bool} {server : DiscoveryServer} {allowed : List NetworkAddress}

/-- Every listener is bound to an interface that has its address in the list; and after a
call that returned true each pair of the list has a listener bound to its interface. -/
structure Serves (server : DiscoveryServer) (allowed : List NetworkAddress) (complete : Bool) :
    Prop where
  within : ∀ address interface, server.listeners address = some interface →
    ∃ a ∈ allowed, a.address = address ∧ a.interfaceId = interface
  served : complete = true → ∀ a ∈ allowed, ∃ address,
    server.listeners address = some a.interfaceId

/-- The interface an address of the list gets: its listener's, or that of its first entry. -/
def bound (server : DiscoveryServer) (allowed : List NetworkAddress) (address : Bytes) :
    Option Bytes :=
  (server.listeners address).or ((allowed.find? (·.address = address)).map (·.interfaceId))

/-- No address has left the interface of its listener; and, unless `Open` fails, every
interface of the list gets one of its addresses. -/
structure InterfacesStay (server : DiscoveryServer) (opens : Nat → Bool)
    (allowed : List NetworkAddress) : Prop where
  kept : ∀ address interface, server.listeners address = some interface →
    wanted allowed address = true → ∃ a ∈ allowed, a.address = address ∧ a.interfaceId = interface
  covered : OpensMissing opens server 0 allowed → ∀ a ∈ allowed, ∃ b ∈ allowed,
    server.bound allowed b.address = some a.interfaceId

theorem closeUnwanted_of_mem {a : NetworkAddress} (h : a ∈ allowed) :
    (server.closeUnwanted allowed).listeners a.address = server.listeners a.address :=
  if_pos (wanted_eq_true.mpr ⟨a, h, rfl⟩)

theorem reconcile_complete_iff :
    (server.reconcile opens allowed).1 = true ↔ OpensMissing opens server 0 allowed := by
  rw [reconcile, openAllowed_complete_iff]
  refine forall_congr' fun before => forall_congr' fun a => forall_congr' fun after =>
    forall_congr' fun heq => ?_
  rw [closeUnwanted_of_mem (heq ▸ List.mem_append_right before List.mem_cons_self)]

theorem reconcile_bound (hcomplete : (server.reconcile opens allowed).1 = true)
    {a : NetworkAddress} (ha : a ∈ allowed) :
    (server.reconcile opens allowed).2.listeners a.address = server.bound allowed a.address := by
  have hclosed : (server.closeUnwanted allowed).listeners a.address = server.listeners a.address :=
    closeUnwanted_of_mem ha
  rw [reconcile] at hcomplete ⊢
  rw [bound, ← hclosed]
  cases hlistener : (server.closeUnwanted allowed).listeners a.address with
  | none => rw [openAllowed_missing hcomplete hlistener, Option.none_or]
  | some interface => rw [openAllowed_keeps hlistener, Option.some_or]

theorem reconcile_listener {address interface : Bytes}
    (h : (server.reconcile opens allowed).2.listeners address = some interface) :
    (server.listeners address = some interface ∧ wanted allowed address = true) ∨
      ∃ a ∈ allowed, a.address = address ∧ a.interfaceId = interface := by
  refine (openAllowed_opened h).imp_left ?_
  intro hclosed
  rw [closeUnwanted] at hclosed
  dsimp only at hclosed
  split at hclosed
  · next hwanted => exact ⟨hclosed, hwanted⟩
  · cases hclosed

/-- **One call leaves the listeners on the allowed interfaces exactly when the addresses
have stayed on theirs.** -/
theorem serves_reconcile_iff :
    Serves (server.reconcile opens allowed).2 allowed (server.reconcile opens allowed).1 ↔
      InterfacesStay server opens allowed := by
  constructor
  · intro h
    refine ⟨fun address interface hlistener hwanted => h.within address interface ?_,
      fun hopens a ha => ?_⟩
    · refine openAllowed_keeps ?_
      rw [closeUnwanted]
      exact (if_pos hwanted).trans hlistener
    · have hcomplete := reconcile_complete_iff.mpr hopens
      obtain ⟨address, haddress⟩ := h.served hcomplete a ha
      obtain ⟨b, hb, rfl, -⟩ := h.within address _ haddress
      exact ⟨b, hb, by rw [← reconcile_bound hcomplete hb, haddress]⟩
  · intro h
    refine ⟨fun address interface hlistener => ?_, fun hcomplete a ha => ?_⟩
    · rcases reconcile_listener hlistener with ⟨hbefore, hwanted⟩ | hopened
      · exact h.kept address interface hbefore hwanted
      · exact hopened
    · obtain ⟨b, hb, hbound⟩ := h.covered (reconcile_complete_iff.mp hcomplete) a ha
      exact ⟨b.address, by rw [reconcile_bound hcomplete hb, hbound]⟩

end Reconcile

/-! ## Sequences of calls -/

structure System where
  server : DiscoveryServer := {}
  /-- The list and the result of the last call. -/
  last : Option (List NetworkAddress × Bool) := none

inductive Action
  | reconcile (opens : Nat → Bool) (allowed : List NetworkAddress)

namespace System

def step (s : System) : Action → Option System
  | .reconcile opens allowed =>
    let (complete, server) := s.server.reconcile opens allowed
    some ⟨server, some (allowed, complete)⟩

def LastServed (s : System) : Prop :=
  ∀ allowed complete, s.last = some (allowed, complete) → Serves s.server allowed complete

def InterfacesStay (s : System) : Action → Prop
  | .reconcile opens allowed => s.server.InterfacesStay opens allowed

end System

/-- **The discovery responder serves the allowed interfaces and no others** after each of a
sequence of calls between which no address leaves the interface of its listener. -/
theorem discovery_serves_allowed {s : System}
    (h : ReachableBy System.step System.InterfacesStay {} s) : s.LastServed := by
  refine h.invariant (I := System.LastServed) (fun allowed complete hlast => by cases hlast) ?_
  intro s a t _ hok hst
  obtain ⟨opens, allowed⟩ := a
  cases hst
  rintro allowed' complete' ⟨⟩
  exact serves_reconcile_iff.mpr hok

def sampleAddress (interface : String) : NetworkAddress :=
  { interfaceId := ascii interface, interfaceName := ascii interface, address := ascii "10.0.0.2" }

/-- The first call of two opens a listener, which the second keeps. -/
theorem discovery_serves_allowed_sample :
    ∃ s, run System.step {} [.reconcile (fun _ => true) [sampleAddress "eth0"],
        .reconcile (fun _ => false) [sampleAddress "eth0"]] = some s ∧
      s.last = some ([sampleAddress "eth0"], true) ∧ s.LastServed := by
  refine ⟨_, rfl, rfl, discovery_serves_allowed
    (.tail (a := .reconcile (fun _ => false) [sampleAddress "eth0"])
      (.tail (a := .reconcile (fun _ => true) [sampleAddress "eth0"]) .refl ⟨?_, ?_⟩ rfl)
      ⟨?_, ?_⟩ rfl)⟩
  · intro address interface hlistener
    cases hlistener
  · rintro - a ha
    obtain rfl := List.mem_singleton.mp ha
    exact ⟨_, List.mem_singleton_self _, by decide⟩
  · rintro address interface hlistener -
    have hopened : (({} : DiscoveryServer).reconcile (fun _ => true)
      [sampleAddress "eth0"]).2.listeners address = some interface := hlistener
    exact (reconcile_listener hopened).resolve_left fun hnone => by cases hnone.1
  · rintro - a ha
    obtain rfl := List.mem_singleton.mp ha
    exact ⟨_, List.mem_singleton_self _, by decide⟩

/-- An address moves from one interface to another: the second call reports success, and
the listener answers on the interface that is not in the list. -/
theorem moved_address_keeps_interface :
    ∃ s, run System.step {} [.reconcile (fun _ => true) [sampleAddress "eth0"],
        .reconcile (fun _ => true) [sampleAddress "wlan0"]] = some s ∧
      s.last = some ([sampleAddress "wlan0"], true) ∧
      s.server.listeners (ascii "10.0.0.2") = some (ascii "eth0") ∧ ¬ s.LastServed := by
  refine ⟨_, rfl, rfl, rfl, ?_⟩
  intro h
  obtain ⟨a, ha, -, hinterface⟩ := (h _ _ rfl).within (ascii "10.0.0.2") (ascii "eth0") rfl
  obtain rfl := List.mem_singleton.mp ha
  exact absurd hinterface (by decide)

end DiscoveryServer

end RemoteControl
