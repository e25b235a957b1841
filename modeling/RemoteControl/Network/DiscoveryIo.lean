import Mathlib.Logic.Function.Basic
import RemoteControl.Network.DiscoveryServer

/-!
# The discovery server's thread

`Receive`, `Open`, `Reconcile` and `CloseAll` of serviceDiscoveryServer.cpp as handlers of
the one thread that runs the `io_context`, with what the context documents: a receive
completes once, closing a socket cancels a receive that has not completed, a completion
waits in the queue behind what was posted before it, and `run` returns when there is
nothing left to wait for.
-/

namespace RemoteControl.DiscoveryIo

open Transition RemoteControlServer

/-- How an `async_receive_from` ends. -/
inductive Completion (ε : Type)
  | datagram (sender : ε)
  | error
  /-- `operation_aborted`: the socket was closed. -/
  | aborted

/-- A `Listener`, with what is kept for its socket. -/
structure Listener (ε : Type) where
  /-- `SO_BINDTODEVICE`. -/
  interfaceId : Bytes := []
  isOpen : Bool := false
  /-- The senders of the datagrams the kernel holds. -/
  inbox : List ε := []
  /-- A receive has been started that has not completed. -/
  receiving : Bool := false
  /-- The senders of all datagrams that reached the socket, and where each `send_to` went. -/
  arrived : List ε := []
  answered : List ε := []

/-- What the `io_context` calls. -/
inductive Handler (ε : Type)
  | received (listener : Nat) (completion : Completion ε)
  /-- Posted by the subscription, for what `Open` would answer. -/
  | reconcile (opens : Nat → Bool) (allowed : List NetworkAddress)
  /-- Posted by `Stop`. -/
  | stop

/-- `Impl`; the `Listener` objects are numbered as they are made. -/
structure Io (ε : Type) where
  listeners : List (Bytes × Nat) := []
  objects : Nat → Listener ε := fun _ => {}
  next : Nat := 0
  queue : List (Handler ε) := []
  /-- The `Work` guard. -/
  work : Bool := true
  /-- `Io.run` has not returned. -/
  running : Bool := true

variable {ε : Type}

namespace Io

/-- `Listeners.find(address)`. -/
def lookup (io : Io ε) (address : Bytes) : Option Nat := io.listeners.lookup address

def update (io : Io ε) (n : Nat) (listener : Listener ε) : Io ε :=
  { io with objects := Function.update io.objects n listener }

/-- `Receive`. -/
def receive (io : Io ε) (n : Nat) : Io ε :=
  io.update n { io.objects n with receiving := true }

/-- `Socket.close(ec)`. -/
def closeSocket (io : Io ε) (n : Nat) : Io ε :=
  { io.update n { io.objects n with isOpen := false, inbox := [], receiving := false } with
    queue := io.queue ++
      if (io.objects n).receiving then [.received n .aborted] else [] }

/-- The sockets of these entries are closed, in the order of the map. -/
def closeEach : List (Bytes × Nat) → Io ε → Io ε
  | [], io => io
  | entry :: entries, io => closeEach entries (io.closeSocket entry.2)

/-- `Listeners[address] = listener`, for an address that has none: the keys are sorted. -/
def insertEntry (address : Bytes) (n : Nat) : List (Bytes × Nat) → List (Bytes × Nat)
  | [] => [(address, n)]
  | entry :: entries =>
    if address < entry.1 then (address, n) :: entry :: entries
    else entry :: insertEntry address n entries

/-- `Open`, where nothing failed. -/
def openListener (io : Io ε) (a : NetworkAddress) : Io ε :=
  { io with
    listeners := insertEntry a.address io.next io.listeners
    objects := Function.update io.objects io.next { interfaceId := a.interfaceId, isOpen := true }
    next := io.next + 1 }.receive io.next

/-- The first loop of `Reconcile`. -/
def closeUnwanted (io : Io ε) (allowed : List NetworkAddress) : Io ε :=
  { closeEach (io.listeners.filter fun entry => !wanted allowed entry.1) io with
    listeners := io.listeners.filter fun entry => wanted allowed entry.1 }

/-- The second loop, from entry `i` of the list on. -/
def openAllowed (opens : Nat → Bool) (io : Io ε) (i : Nat) : List NetworkAddress → Bool × Io ε
  | [] => (true, io)
  | a :: allowed =>
    if (io.lookup a.address).isSome then openAllowed opens io (i + 1) allowed
    else if opens i then openAllowed opens (io.openListener a) (i + 1) allowed
    else (false, (openAllowed opens io (i + 1) allowed).2)

def reconcile (opens : Nat → Bool) (io : Io ε) (allowed : List NetworkAddress) : Bool × Io ε :=
  (io.closeUnwanted allowed).openAllowed opens 0 allowed

def closeAll (io : Io ε) : Io ε := { closeEach io.listeners io with listeners := [] }

/-- `Socket.send_to(Reply, Sender)`, whatever becomes of it. -/
def sendReply (io : Io ε) (n : Nat) (sender : ε) : Io ε :=
  io.update n { io.objects n with answered := (io.objects n).answered ++ [sender] }

/-- A handler's body. -/
def handle (io : Io ε) : Handler ε → Io ε
  | .received _ .aborted => io
  | .received n .error => if (io.objects n).isOpen then io.receive n else io
  | .received n (.datagram sender) =>
    if (io.objects n).isOpen then (io.sendReply n sender).receive n else io
  | .reconcile opens allowed => (io.reconcile opens allowed).2
  | .stop => { io.closeAll with work := false }

/-- No receive is outstanding. -/
def Idle (io : Io ε) : Prop := ∀ n < io.next, (io.objects n).receiving = false

instance (io : Io ε) : Decidable io.Idle :=
  inferInstanceAs (Decidable (∀ n < io.next, (io.objects n).receiving = false))

end Io

inductive Action (ε : Type)
  /-- A datagram reaches the socket of the listener. -/
  | arrive (listener : Nat) (sender : ε)
  /-- The receive completes with the oldest datagram, or with an error. -/
  | complete (listener : Nat)
  | fail (listener : Nat)
  | postReconcile (opens : Nat → Bool) (allowed : List NetworkAddress)
  | postStop
  | runHandler
  /-- `Io.run` returns. -/
  | exit

namespace Io

def step (io : Io ε) : Action ε → Option (Io ε)
  | .arrive n sender =>
    let l := io.objects n
    if l.isOpen then
      some (io.update n { l with inbox := l.inbox ++ [sender], arrived := l.arrived ++ [sender] })
    else none
  | .complete n =>
    let l := io.objects n
    match l.receiving, l.inbox with
    | true, sender :: inbox =>
      some { io.update n { l with receiving := false, inbox } with
        queue := io.queue ++ [.received n (.datagram sender)] }
    | _, _ => none
  | .fail n =>
    let l := io.objects n
    if l.receiving then
      some { io.update n { l with receiving := false } with
        queue := io.queue ++ [.received n .error] }
    else none
  | .postReconcile opens allowed => some { io with queue := io.queue ++ [.reconcile opens allowed] }
  | .postStop => some { io with queue := io.queue ++ [.stop] }
  | .runHandler =>
    match io.running, io.queue with
    | true, handler :: queue => some ({ io with queue }.handle handler)
    | _, _ => none
  | .exit =>
    if io.running ∧ io.work = false ∧ io.queue = [] ∧ io.Idle then
      some { io with running := false }
    else none

/-- The completions of a listener's receives that are still to be handled. -/
def completionsOf (queue : List (Handler ε)) (n : Nat) : List (Completion ε) :=
  queue.filterMap fun
    | .received m completion => if m = n then some completion else none
    | _ => none

end Io

def Completion.sender? : Completion ε → Option ε
  | .datagram sender => some sender
  | .error | .aborted => none

/-- The receives of a listener whose handler has not run. -/
def Listener.outstanding (l : Listener ε) (completions : List (Completion ε)) : Nat :=
  (if l.receiving then 1 else 0) + completions.length

/-! ## One listener -/

/-- An open socket has exactly one receive outstanding, and what arrived is what was
answered, then what was received, then what the kernel holds. A closed one is through with
receiving but for a completion that was already queued. -/
structure ListenerOk (l : Listener ε) (completions : List (Completion ε)) : Prop where
  one : l.isOpen = true → l.outstanding completions = 1
  closed : l.isOpen = false → l.receiving = false ∧ completions.length ≤ 1
  history : l.isOpen = true →
    l.arrived = l.answered ++ completions.filterMap Completion.sender? ++ l.inbox
  not_aborted : l.isOpen = true → ∀ c ∈ completions, c ≠ .aborted
  answered_prefix : l.answered <+: l.arrived

namespace ListenerOk

variable {l : Listener ε} {completions : List (Completion ε)} {c : Completion ε} {sender : ε}

/-- A receive that has not completed leaves no completion to handle. -/
theorem completions_eq_nil (h : ListenerOk l completions) (hreceiving : l.receiving = true) :
    l.isOpen = true ∧ completions = [] := by
  cases hopen : l.isOpen with
  | false =>
    have hnot := (h.closed hopen).1
    rw [hreceiving] at hnot
    cases hnot
  | true =>
    have hone := h.one hopen
    rw [Listener.outstanding, if_pos hreceiving] at hone
    exact ⟨rfl, List.length_eq_zero_iff.mp (by omega)⟩

/-- A completion to handle is the only receive there is. -/
theorem of_cons (h : ListenerOk l (c :: completions)) :
    l.receiving = false ∧ completions = [] := by
  have hreceiving : l.receiving = false := by
    cases hreceiving : l.receiving with
    | false => rfl
    | true => exact absurd (h.completions_eq_nil hreceiving).2 (List.cons_ne_nil _ _)
  refine ⟨hreceiving, List.length_eq_zero_iff.mp ?_⟩
  cases hopen : l.isOpen with
  | false =>
    have hle := (h.closed hopen).2
    rw [List.length_cons] at hle
    omega
  | true =>
    have hone := h.one hopen
    rw [Listener.outstanding, if_neg (by simp [hreceiving]), List.length_cons] at hone
    omega

theorem arrive (h : ListenerOk l completions) (hopen : l.isOpen = true) :
    ListenerOk { l with inbox := l.inbox ++ [sender], arrived := l.arrived ++ [sender] }
      completions where
  one _ := h.one hopen
  closed hclosed := h.closed hclosed
  history _ := by
    show l.arrived ++ [sender] = _ ++ (l.inbox ++ [sender])
    rw [h.history hopen, List.append_assoc, List.append_assoc]
  not_aborted _ := h.not_aborted hopen
  answered_prefix := h.answered_prefix.trans (List.prefix_append _ _)

theorem complete (h : ListenerOk l completions) (hreceiving : l.receiving = true)
    {inbox : List ε} (hinbox : l.inbox = sender :: inbox) :
    ListenerOk { l with receiving := false, inbox } (completions ++ [.datagram sender]) := by
  obtain ⟨hopen, rfl⟩ := h.completions_eq_nil hreceiving
  refine ⟨fun _ => rfl, fun _ => ⟨rfl, Nat.le_refl 1⟩, fun _ => ?_, fun _ => by simp,
    h.answered_prefix⟩
  show l.arrived = l.answered ++ [sender] ++ inbox
  rw [h.history hopen, hinbox]
  simp

theorem fail (h : ListenerOk l completions) (hreceiving : l.receiving = true) :
    ListenerOk { l with receiving := false } (completions ++ [.error]) := by
  obtain ⟨hopen, rfl⟩ := h.completions_eq_nil hreceiving
  exact ⟨fun _ => rfl, fun _ => ⟨rfl, Nat.le_refl 1⟩, fun _ => h.history hopen, fun _ => by simp,
    h.answered_prefix⟩

theorem close (h : ListenerOk l completions) :
    ListenerOk { l with isOpen := false, inbox := [], receiving := false }
      (completions ++ if l.receiving then [.aborted] else []) := by
  refine ⟨nofun, fun _ => ⟨rfl, ?_⟩, nofun, nofun, h.answered_prefix⟩
  cases hreceiving : l.receiving with
  | true =>
    obtain ⟨-, rfl⟩ := h.completions_eq_nil hreceiving
    exact Nat.le_refl 1
  | false =>
    rw [if_neg (by simp), List.append_nil]
    cases hopen : l.isOpen with
    | false => exact (h.closed hopen).2
    | true =>
      have hone := h.one hopen
      rw [Listener.outstanding, hreceiving] at hone
      simp only [Bool.false_eq_true, if_false] at hone
      omega

/-- A handler that finds the socket closed starts no other receive. -/
theorem drop (h : ListenerOk l (c :: completions)) (hclosed : l.isOpen = false) :
    ListenerOk l completions := by
  obtain ⟨hreceiving, rfl⟩ := h.of_cons
  have hnot : l.isOpen ≠ true := by simp [hclosed]
  exact ⟨fun hopen => absurd hopen hnot, fun _ => ⟨hreceiving, Nat.zero_le 1⟩,
    fun hopen => absurd hopen hnot, fun hopen => absurd hopen hnot, h.answered_prefix⟩

theorem retry (h : ListenerOk l (.error :: completions)) (hopen : l.isOpen = true) :
    ListenerOk { l with receiving := true } completions := by
  obtain ⟨-, rfl⟩ := h.of_cons
  have hnot : l.isOpen ≠ false := by simp [hopen]
  exact ⟨fun _ => rfl, fun hclosed => absurd hclosed hnot, fun _ => h.history hopen,
    fun _ => nofun, h.answered_prefix⟩

theorem answer (h : ListenerOk l (.datagram sender :: completions)) (hopen : l.isOpen = true) :
    ListenerOk { l with answered := l.answered ++ [sender], receiving := true } completions := by
  obtain ⟨-, rfl⟩ := h.of_cons
  have hnot : l.isOpen ≠ false := by simp [hopen]
  have hhistory : l.arrived = l.answered ++ [sender] ++ l.inbox := h.history hopen
  refine ⟨fun _ => rfl, fun hclosed => absurd hclosed hnot, fun _ => ?_, fun _ => nofun, ?_⟩
  · simpa using hhistory
  · show l.answered ++ [sender] <+: l.arrived
    rw [hhistory]
    exact List.prefix_append _ _

end ListenerOk

/-! ## The whole server -/

section CompletionsOf

variable {n m : Nat} {c : Completion ε} {queue more : List (Handler ε)}

open Io (completionsOf)

theorem completionsOf_append :
    completionsOf (queue ++ more) n = completionsOf queue n ++ completionsOf more n :=
  List.filterMap_append

theorem completionsOf_received :
    completionsOf (.received m c :: queue) n =
      if m = n then c :: completionsOf queue n else completionsOf queue n := by
  by_cases h : m = n <;> simp [completionsOf, h]

@[simp] theorem completionsOf_nil : completionsOf ([] : List (Handler ε)) n = [] := rfl

@[simp] theorem completionsOf_reconcile {opens : Nat → Bool} {allowed : List NetworkAddress} :
    completionsOf (.reconcile opens allowed :: queue) n = completionsOf queue n := rfl

@[simp] theorem completionsOf_stop : completionsOf (.stop :: queue) n = completionsOf queue n := rfl

end CompletionsOf

/-- Exactly the listeners of `live` are open, and each is as it should be. -/
structure Sound (io : Io ε) (live : Nat → Prop) : Prop where
  open_iff : ∀ n, (io.objects n).isOpen = true ↔ live n
  ok : ∀ n, ListenerOk (io.objects n) (Io.completionsOf io.queue n)
  unused : ∀ n, io.next ≤ n → io.objects n = {} ∧ Io.completionsOf io.queue n = []

namespace Sound

variable {io io' : Io ε} {live live' : Nat → Prop} {n m : Nat}

theorem lt_next (h : Sound io live) (hused : io.objects n ≠ {}) : n < io.next :=
  Nat.lt_of_not_le fun hle => hused (h.unused n hle).1

theorem lt_next_of_isOpen (h : Sound io live) (hopen : (io.objects n).isOpen = true) :
    n < io.next := by
  refine h.lt_next fun heq => ?_
  rw [heq] at hopen
  cases hopen

theorem lt_next_of_receiving (h : Sound io live) (hreceiving : (io.objects n).receiving = true) :
    n < io.next :=
  h.lt_next_of_isOpen ((h.ok n).completions_eq_nil hreceiving).1

/-- A step that concerns one listener. -/
theorem of_one (h : Sound io live) (hn : n < io'.next) (hnext : io.next ≤ io'.next)
    (hobjects : ∀ m ≠ n, io'.objects m = io.objects m)
    (hqueue : ∀ m ≠ n, Io.completionsOf io'.queue m = Io.completionsOf io.queue m)
    (hok : ListenerOk (io'.objects n) (Io.completionsOf io'.queue n))
    (hopen : (io'.objects n).isOpen = true ↔ live' n) (hlive : ∀ m ≠ n, live' m ↔ live m) :
    Sound io' live' where
  open_iff m := by
    by_cases heq : m = n
    · rw [heq]
      exact hopen
    · rw [hobjects m heq, h.open_iff, hlive m heq]
  ok m := by
    by_cases heq : m = n
    · rw [heq]
      exact hok
    · rw [hobjects m heq, hqueue m heq]
      exact h.ok m
  unused m hm := by
    have heq : m ≠ n := fun heq => absurd hm (by omega)
    rw [hobjects m heq, hqueue m heq]
    exact h.unused m (Nat.le_trans hnext hm)

/-- A handler other than a completion is queued, or taken from the front. -/
theorem of_queue (h : Sound io live) {queue : List (Handler ε)}
    (hqueue : ∀ m, Io.completionsOf queue m = Io.completionsOf io.queue m) :
    Sound { io with queue } live where
  open_iff := h.open_iff
  ok m := by
    rw [hqueue m]
    exact h.ok m
  unused m hm := by
    rw [hqueue m]
    exact h.unused m hm

theorem closeSocket (h : Sound io live) (hn : live n) :
    Sound (io.closeSocket n) fun m => live m ∧ m ≠ n := by
  have hlt : n < io.next := h.lt_next_of_isOpen ((h.open_iff n).mpr hn)
  have hcompletions : ∀ m, Io.completionsOf (io.closeSocket n).queue m =
      Io.completionsOf io.queue m ++
        if n = m ∧ (io.objects n).receiving = true then [.aborted] else [] := by
    intro m
    rw [Io.closeSocket, completionsOf_append]
    cases (io.objects n).receiving with
    | false => simp
    | true =>
      by_cases heq : n = m
      · simp [completionsOf_received, heq]
      · simp [completionsOf_received, heq]
  refine h.of_one (n := n) hlt (Nat.le_refl _) ?_ ?_ ?_ ?_ ?_
  · intro m hm
    exact Function.update_of_ne hm ..
  · intro m hm
    rw [hcompletions, if_neg fun hand => hm hand.1.symm, List.append_nil]
  · rw [hcompletions]
    simpa [Io.closeSocket, Io.update] using (h.ok n).close
  · simp [Io.closeSocket, Io.update]
  · intro m hm
    exact and_iff_left hm

theorem congr (h : Sound io live) (hlive : ∀ m, live m ↔ live' m) : Sound io live' :=
  ⟨fun m => (h.open_iff m).trans (hlive m), h.ok, h.unused⟩

/-- Closing the listeners of distinct live entries. -/
theorem closeEach {entries : List (Bytes × Nat)} (h : Sound io live)
    (hlive : ∀ entry ∈ entries, live entry.2) (hnodup : (entries.map Prod.snd).Nodup) :
    Sound (Io.closeEach entries io) fun m => live m ∧ m ∉ entries.map Prod.snd := by
  induction entries generalizing io live with
  | nil => exact h.congr fun m => (and_iff_left List.not_mem_nil).symm
  | cons entry entries ih =>
    obtain ⟨hnot, hnodup⟩ := List.nodup_cons.mp hnodup
    have hclosed := ih (h.closeSocket (hlive entry List.mem_cons_self)) ?_ hnodup
    · simpa [Io.closeEach, and_assoc] using hclosed
    · intro other hother
      refine ⟨hlive other (List.mem_cons_of_mem _ hother), fun heq => hnot ?_⟩
      exact heq ▸ List.mem_map_of_mem hother

/-- Neither the map nor the guard matters. -/
theorem withListeners (h : Sound io live) {listeners : List (Bytes × Nat)} {work : Bool} :
    Sound { io with listeners, work } live :=
  ⟨h.open_iff, h.ok, h.unused⟩

theorem openListener (h : Sound io live) (a : NetworkAddress) :
    Sound (io.openListener a) fun m => live m ∨ m = io.next := by
  have hnone : Io.completionsOf io.queue io.next = [] := (h.unused io.next (Nat.le_refl _)).2
  refine h.of_one (n := io.next) (Nat.lt_succ_self _) (Nat.le_succ _) ?_ ?_ ?_ ?_ ?_
  · intro m hm
    simp [Io.openListener, Io.receive, Io.update, Function.update_of_ne hm]
  · intro m _
    rfl
  · have hok : ListenerOk
        ({ interfaceId := a.interfaceId, isOpen := true, receiving := true } : Listener ε) [] :=
      ⟨fun _ => rfl, nofun, fun _ => rfl, fun _ => nofun, List.prefix_refl _⟩
    simpa [Io.openListener, Io.receive, Io.update, hnone] using hok
  · simp [Io.openListener, Io.receive, Io.update]
  · intro m hm
    exact or_iff_left hm

end Sound

/-- The open sockets are those of the listeners in the map, one for each address. -/
structure Inv (io : Io ε) : Prop where
  sound : Sound io fun n => n ∈ io.listeners.map Prod.snd
  tokens : (io.listeners.map Prod.snd).Nodup
  keys : (io.listeners.map Prod.fst).Nodup

section Map

variable {address : Bytes} {n : Nat} {entries : List (Bytes × Nat)}

theorem insertEntry_perm : (Io.insertEntry address n entries).Perm ((address, n) :: entries) := by
  induction entries with
  | nil => exact List.Perm.refl _
  | cons entry entries ih =>
    unfold Io.insertEntry
    split
    · exact List.Perm.refl _
    · exact (ih.cons entry).trans (List.Perm.swap _ _ _)

theorem lookup_cons {key : Bytes} {m : Nat} :
    ((key, m) :: entries).lookup address =
      if address = key then some m else entries.lookup address := by
  rw [List.lookup_cons]
  by_cases h : address = key
  · simp [h]
  · rw [if_neg h, beq_eq_false_iff_ne.mpr h]

theorem lookup_insertEntry (hnone : entries.lookup address = none) (other : Bytes) :
    (Io.insertEntry address n entries).lookup other =
      if other = address then some n else entries.lookup other := by
  induction entries with
  | nil => exact lookup_cons
  | cons entry entries ih =>
    obtain ⟨key, m⟩ := entry
    rw [lookup_cons] at hnone
    have hkey : address ≠ key := by
      rintro rfl
      simp at hnone
    rw [if_neg hkey] at hnone
    unfold Io.insertEntry
    split
    · exact lookup_cons
    · rw [lookup_cons, lookup_cons, ih hnone]
      by_cases heq : other = key
      · rw [if_pos heq, if_pos heq, if_neg (heq ▸ Ne.symm hkey)]
      · rw [if_neg heq, if_neg heq]

theorem lookup_filter (keep : Bytes → Bool) :
    (entries.filter fun entry => keep entry.1).lookup address =
      if keep address then entries.lookup address else none := by
  induction entries with
  | nil => simp
  | cons entry entries ih =>
    obtain ⟨key, m⟩ := entry
    rw [List.filter_cons, lookup_cons]
    by_cases heq : address = key
    · subst heq
      rw [if_pos rfl]
      split
      · rw [lookup_cons, if_pos rfl]
      · next hkeep => rw [ih, if_neg hkeep]
    · rw [if_neg heq]
      split
      · rw [lookup_cons, if_neg heq, ih]
      · exact ih

theorem lookup_eq_some (hkeys : (entries.map Prod.fst).Nodup) :
    entries.lookup address = some n ↔ (address, n) ∈ entries := by
  induction entries with
  | nil => simp
  | cons entry entries ih =>
    obtain ⟨key, m⟩ := entry
    obtain ⟨hnot, hkeys⟩ := List.nodup_cons.mp hkeys
    rw [lookup_cons, List.mem_cons, Prod.mk.injEq]
    by_cases heq : address = key
    · subst heq
      have hnomem : (address, n) ∉ entries := fun hmem =>
        hnot (List.mem_map.mpr ⟨_, hmem, rfl⟩)
      rw [if_pos rfl, Option.some_inj]
      constructor
      · rintro rfl
        exact Or.inl ⟨rfl, rfl⟩
      · rintro (⟨-, rfl⟩ | hmem)
        · rfl
        · exact absurd hmem hnomem
    · rw [if_neg heq, ih hkeys]
      constructor
      · exact Or.inr
      · rintro (⟨heq', -⟩ | hmem)
        · exact absurd heq' heq
        · exact hmem

end Map

/-! ## What a handler keeps -/

namespace Inv

variable {io : Io ε} {a : NetworkAddress} {allowed : List NetworkAddress}

theorem isOpen_iff (h : Inv io) (n : Nat) :
    (io.objects n).isOpen = true ↔ ∃ address, io.lookup address = some n := by
  rw [h.sound.open_iff, List.mem_map]
  constructor
  · rintro ⟨⟨address, m⟩, hmem, rfl⟩
    exact ⟨address, (lookup_eq_some h.keys).mpr hmem⟩
  · rintro ⟨address, hlookup⟩
    exact ⟨(address, n), (lookup_eq_some h.keys).mp hlookup, rfl⟩

/-- The sockets of some of the map's entries are closed, and these are taken from it. -/
theorem closeSome (h : Inv io) (keep : Bytes × Nat → Bool) :
    Inv { Io.closeEach (io.listeners.filter fun entry => !keep entry) io with
      listeners := io.listeners.filter keep } := by
  have hsub : (io.listeners.filter fun entry => !keep entry).Sublist io.listeners :=
    List.filter_sublist
  refine ⟨?_, h.tokens.sublist (List.filter_sublist.map _),
    h.keys.sublist (List.filter_sublist.map _)⟩
  have hclosed : Sound (Io.closeEach (io.listeners.filter fun entry => !keep entry) io) _ :=
    h.sound.closeEach (fun entry hentry => List.mem_map_of_mem (hsub.subset hentry))
      (h.tokens.sublist (hsub.map _))
  have hinj := List.inj_on_of_nodup_map h.tokens
  refine Sound.withListeners (hclosed.congr fun m => ?_)
  simp only [List.mem_map, List.mem_filter, Bool.not_eq_true']
  constructor
  · rintro ⟨⟨entry, hentry, rfl⟩, hkept⟩
    refine ⟨entry, ⟨hentry, ?_⟩, rfl⟩
    by_contra hnot
    exact hkept ⟨entry, ⟨hentry, Bool.eq_false_iff.mpr hnot⟩, rfl⟩
  · rintro ⟨entry, ⟨hentry, hkeep⟩, rfl⟩
    refine ⟨⟨entry, hentry, rfl⟩, ?_⟩
    rintro ⟨other, ⟨hother, hnot⟩, heq⟩
    rw [hinj hother hentry heq, hkeep] at hnot
    cases hnot

theorem openListener (h : Inv io) (hnone : io.lookup a.address = none) :
    Inv (io.openListener a) := by
  have hperm : (io.openListener a).listeners.Perm ((a.address, io.next) :: io.listeners) :=
    insertEntry_perm
  have hfresh : io.next ∉ io.listeners.map Prod.snd := fun hmem =>
    absurd (h.sound.lt_next_of_isOpen ((h.sound.open_iff _).mpr hmem)) (Nat.lt_irrefl _)
  have hunknown : a.address ∉ io.listeners.map Prod.fst := fun hmem => by
    obtain ⟨⟨address, n⟩, hentry, rfl⟩ := List.mem_map.mp hmem
    rw [Io.lookup, (lookup_eq_some h.keys).mpr hentry] at hnone
    cases hnone
  refine ⟨(h.sound.openListener a).congr fun m => ?_, ?_, ?_⟩
  · rw [(hperm.map Prod.snd).mem_iff, List.map_cons, List.mem_cons, or_comm]
  · exact (hperm.map Prod.snd).nodup_iff.mpr (List.nodup_cons.mpr ⟨hfresh, h.tokens⟩)
  · exact (hperm.map Prod.fst).nodup_iff.mpr (List.nodup_cons.mpr ⟨hunknown, h.keys⟩)

theorem closeUnwanted (h : Inv io) (allowed : List NetworkAddress) :
    Inv (io.closeUnwanted allowed) :=
  h.closeSome fun entry => wanted allowed entry.1

theorem openAllowed (h : Inv io) {opens : Nat → Bool} {i : Nat} (allowed : List NetworkAddress) :
    Inv (io.openAllowed opens i allowed).2 := by
  induction allowed generalizing io i with
  | nil => exact h
  | cons a allowed ih =>
    unfold Io.openAllowed
    split
    · exact ih h
    · next hnone =>
      split
      · exact ih (h.openListener (Option.not_isSome_iff_eq_none.mp hnone))
      · exact ih h

theorem closeAll (h : Inv io) {work : Bool} : Inv { io.closeAll with work } := by
  have hclosed := h.closeSome fun _ => false
  simp only [Bool.not_false, List.filter_true, List.filter_false] at hclosed
  exact ⟨hclosed.sound.withListeners, hclosed.tokens, hclosed.keys⟩

theorem withQueue (h : Inv io) {queue : List (Handler ε)}
    (hqueue : ∀ m, Io.completionsOf queue m = Io.completionsOf io.queue m) :
    Inv { io with queue } :=
  ⟨h.sound.of_queue hqueue, h.tokens, h.keys⟩

/-- A step that concerns one listener and neither opens nor closes it. -/
theorem of_one (h : Inv io) {n : Nat} {l : Listener ε} {queue : List (Handler ε)}
    (hn : n < io.next) (hopen : l.isOpen = (io.objects n).isOpen)
    (hqueue : ∀ m ≠ n, Io.completionsOf queue m = Io.completionsOf io.queue m)
    (hok : ListenerOk l (Io.completionsOf queue n)) :
    Inv { io.update n l with queue } := by
  refine ⟨h.sound.of_one (n := n) hn (Nat.le_refl _) ?_ hqueue ?_ ?_ fun m _ => Iff.rfl,
    h.tokens, h.keys⟩
  · intro m hm
    exact Function.update_of_ne hm ..
  · simpa [Io.update] using hok
  · show (Function.update io.objects n l n).isOpen = true ↔ n ∈ io.listeners.map Prod.snd
    rw [Function.update_self, hopen]
    exact h.sound.open_iff n

/-- The handler of a receive: it starts the next one if the socket is open. -/
theorem handleReceived {n : Nat} {c : Completion ε} {queue : List (Handler ε)} (h : Inv io)
    (hqueue : io.queue = .received n c :: queue) :
    Inv ({ io with queue }.handle (.received n c)) := by
  have hother : ∀ m ≠ n, Io.completionsOf queue m = Io.completionsOf io.queue m := by
    intro m hm
    rw [hqueue, completionsOf_received, if_neg (Ne.symm hm)]
  have hcons : Io.completionsOf io.queue n = c :: Io.completionsOf queue n := by
    rw [hqueue, completionsOf_received, if_pos rfl]
  have hok := h.sound.ok n
  rw [hcons] at hok
  have hn : n < io.next := by
    refine Nat.lt_of_not_le fun hle => ?_
    have hnone := (h.sound.unused n hle).2
    rw [hcons] at hnone
    cases hnone
  have hdrop : (io.objects n).isOpen = false → Inv { io with queue } := by
    intro hclosed
    have hone := h.of_one (l := io.objects n) hn rfl hother (hok.drop hclosed)
    rwa [Io.update, Function.update_eq_self] at hone
  cases hopen : (io.objects n).isOpen with
  | false =>
    cases c with
    | aborted => exact hdrop hopen
    | error | datagram sender =>
      rw [Io.handle, if_neg (by simp [hopen])]
      exact hdrop hopen
  | true =>
    cases c with
    | aborted => exact absurd rfl (hok.not_aborted hopen _ List.mem_cons_self)
    | error =>
      rw [Io.handle, if_pos hopen]
      exact h.of_one hn rfl hother (hok.retry hopen)
    | datagram sender =>
      rw [Io.handle, if_pos hopen]
      have hone := h.of_one (l := { io.objects n with
        answered := (io.objects n).answered ++ [sender], receiving := true })
        hn rfl hother (hok.answer hopen)
      simpa [Io.sendReply, Io.receive, Io.update] using hone

theorem handle {handler : Handler ε} {queue : List (Handler ε)} (h : Inv io)
    (hqueue : io.queue = handler :: queue) : Inv ({ io with queue }.handle handler) := by
  cases handler with
  | received n c => exact h.handleReceived hqueue
  | reconcile opens allowed =>
    have hrest : Inv { io with queue } := h.withQueue fun m => by rw [hqueue]; rfl
    exact (hrest.closeUnwanted allowed).openAllowed allowed
  | stop =>
    have hrest : Inv { io with queue } := h.withQueue fun m => by rw [hqueue]; rfl
    exact hrest.closeAll

end Inv

theorem start_inv : Inv ({} : Io ε) where
  sound := {
    open_iff n := by simp
    ok n := ⟨nofun, fun _ => ⟨rfl, Nat.zero_le 1⟩, nofun, nofun, List.prefix_refl _⟩
    unused n _ := ⟨rfl, rfl⟩ }
  tokens := List.nodup_nil
  keys := List.nodup_nil

theorem step_inv {io io' : Io ε} {action : Action ε} (h : Inv io)
    (hst : io.step action = some io') : Inv io' := by
  cases action with
  | arrive n sender =>
    simp only [Io.step] at hst
    split at hst <;> cases hst
    next hopen =>
      exact h.of_one (h.sound.lt_next_of_isOpen hopen) rfl (fun _ _ => rfl)
        ((h.sound.ok n).arrive hopen)
  | complete n =>
    simp only [Io.step] at hst
    split at hst <;> cases hst
    next sender inbox hreceiving hinbox =>
      refine h.of_one (h.sound.lt_next_of_receiving hreceiving) rfl (fun m hm => ?_) ?_
      · rw [completionsOf_append, completionsOf_received, if_neg (Ne.symm hm)]
        exact List.append_nil _
      · rw [completionsOf_append, completionsOf_received, if_pos rfl]
        exact (h.sound.ok n).complete hreceiving hinbox
  | fail n =>
    simp only [Io.step] at hst
    split at hst <;> cases hst
    next hreceiving =>
      refine h.of_one (h.sound.lt_next_of_receiving hreceiving) rfl (fun m hm => ?_) ?_
      · rw [completionsOf_append, completionsOf_received, if_neg (Ne.symm hm)]
        exact List.append_nil _
      · rw [completionsOf_append, completionsOf_received, if_pos rfl]
        exact (h.sound.ok n).fail hreceiving
  | postReconcile | postStop =>
    cases hst
    refine h.withQueue fun m => ?_
    rw [completionsOf_append]
    exact List.append_nil _
  | runHandler =>
    simp only [Io.step] at hst
    split at hst <;> cases hst
    next hqueue => exact h.handle hqueue
  | exit =>
    simp only [Io.step] at hst
    split at hst <;> cases hst
    exact ⟨⟨h.sound.open_iff, h.sound.ok, h.sound.unused⟩, h.tokens, h.keys⟩

/-! ## What happens to a listener later on -/

/-- Listeners are never taken away or moved to another interface, and one that is closed
stays as it is. -/
structure Extends (io io' : Io ε) : Prop where
  next_le : io.next ≤ io'.next
  interface : ∀ n < io.next, (io'.objects n).interfaceId = (io.objects n).interfaceId
  closed : ∀ n < io.next, (io.objects n).isOpen = false → io'.objects n = io.objects n

namespace Extends

variable {io io' io'' : Io ε}

theorem refl (io : Io ε) : Extends io io := ⟨Nat.le_refl _, fun _ _ => rfl, fun _ _ _ => rfl⟩

theorem trans (h : Extends io io') (h' : Extends io' io'') : Extends io io'' where
  next_le := Nat.le_trans h.next_le h'.next_le
  interface n hn := (h'.interface n (Nat.lt_of_lt_of_le hn h.next_le)).trans (h.interface n hn)
  closed n hn hclosed := by
    have hsame := h.closed n hn hclosed
    rw [← hsame] at hclosed
    rw [h'.closed n (Nat.lt_of_lt_of_le hn h.next_le) hclosed, hsame]

/-- Neither the map nor the queue matters. -/
theorem of_objects (hnext : io'.next = io.next) (hobjects : io'.objects = io.objects) :
    Extends io io' :=
  ⟨Nat.le_of_eq hnext.symm, fun _ _ => by rw [hobjects], fun _ _ _ => by rw [hobjects]⟩

/-- An open listener changes but stays on its interface. -/
theorem of_one {n : Nat} {l : Listener ε} {queue : List (Handler ε)}
    (hinterface : l.interfaceId = (io.objects n).interfaceId)
    (hopen : (io.objects n).isOpen = true) : Extends io { io.update n l with queue } where
  next_le := Nat.le_refl _
  interface m _ := by
    show (Function.update io.objects n l m).interfaceId = _
    rw [Function.update_apply]
    split
    · next heq => rw [heq, hinterface]
    · rfl
  closed m _ hclosed := by
    refine Function.update_of_ne ?_ ..
    rintro rfl
    exact absurd (hopen.symm.trans hclosed) (by decide)

theorem closeEach {entries : List (Bytes × Nat)} {live : Nat → Prop} (h : Sound io live)
    (hlive : ∀ entry ∈ entries, live entry.2) (hnodup : (entries.map Prod.snd).Nodup) :
    Extends io (Io.closeEach entries io) := by
  induction entries generalizing io live with
  | nil => exact refl io
  | cons entry entries ih =>
    obtain ⟨hnot, hnodup⟩ := List.nodup_cons.mp hnodup
    have hentry := hlive entry List.mem_cons_self
    have hone : Extends io (io.closeSocket entry.2) :=
      of_one rfl ((h.open_iff _).mpr hentry)
    refine hone.trans (ih (h.closeSocket hentry) ?_ hnodup)
    intro other hother
    refine ⟨hlive other (List.mem_cons_of_mem _ hother), fun heq => hnot ?_⟩
    exact heq ▸ List.mem_map_of_mem hother

theorem openListener (a : NetworkAddress) : Extends io (io.openListener a) := by
  have hold : ∀ n < io.next, (io.openListener a).objects n = io.objects n := by
    intro n hn
    have hne : n ≠ io.next := Nat.ne_of_lt hn
    simp [Io.openListener, Io.receive, Io.update, Function.update_of_ne hne]
  exact ⟨Nat.le_succ _, fun n hn => by rw [hold n hn], fun n hn _ => hold n hn⟩

theorem openAllowed {opens : Nat → Bool} {i : Nat} (allowed : List NetworkAddress) :
    Extends io (io.openAllowed opens i allowed).2 := by
  induction allowed generalizing io i with
  | nil => exact refl io
  | cons a allowed ih =>
    unfold Io.openAllowed
    split
    · exact ih
    · split
      · exact (openListener a).trans ih
      · exact ih

end Extends

namespace Inv

variable {io io' : Io ε} {allowed : List NetworkAddress}

theorem extends_closeSome (h : Inv io) (keep : Bytes × Nat → Bool) :
    Extends io (Io.closeEach (io.listeners.filter keep) io) :=
  .closeEach h.sound (fun _ hentry => List.mem_map_of_mem (List.filter_sublist.subset hentry))
    (h.tokens.sublist (List.filter_sublist.map _))

theorem extends_closeUnwanted (h : Inv io) : Extends io (io.closeUnwanted allowed) :=
  (h.extends_closeSome _).trans (.of_objects rfl rfl)

theorem extends_closeAll (h : Inv io) {work : Bool} : Extends io { io.closeAll with work } :=
  (Extends.closeEach h.sound (fun _ hentry => List.mem_map_of_mem hentry) h.tokens).trans
    (.of_objects rfl rfl)

theorem extends_handle {handler : Handler ε} {queue : List (Handler ε)} (h : Inv io)
    (hqueue : io.queue = handler :: queue) : Extends io ({ io with queue }.handle handler) := by
  have hpopped : Extends io { io with queue } := .of_objects rfl rfl
  cases handler with
  | received n c =>
    cases c with
    | aborted => exact hpopped
    | error =>
      rw [Io.handle]
      split
      · next hopen => exact .of_one rfl hopen
      · exact hpopped
    | datagram sender =>
      rw [Io.handle]
      split
      · next hopen =>
        have hsent : Extends io ({ io with queue }.sendReply n sender) := .of_one rfl hopen
        refine hsent.trans (.of_one rfl ?_)
        simpa [Io.sendReply, Io.update] using hopen
      · exact hpopped
  | reconcile opens allowed =>
    have hrest : Inv { io with queue } := h.withQueue fun m => by rw [hqueue]; rfl
    exact hpopped.trans (hrest.extends_closeUnwanted.trans (.openAllowed allowed))
  | stop =>
    have hrest : Inv { io with queue } := h.withQueue fun m => by rw [hqueue]; rfl
    exact hpopped.trans hrest.extends_closeAll

end Inv

theorem step_extends {io io' : Io ε} {action : Action ε} (h : Inv io)
    (hst : io.step action = some io') : Extends io io' := by
  cases action with
  | arrive n sender =>
    simp only [Io.step] at hst
    split at hst <;> cases hst
    next hopen => exact .of_one rfl hopen
  | complete n =>
    simp only [Io.step] at hst
    split at hst <;> cases hst
    next hreceiving _ => exact .of_one rfl ((h.sound.ok n).completions_eq_nil hreceiving).1
  | fail n =>
    simp only [Io.step] at hst
    split at hst <;> cases hst
    next hreceiving => exact .of_one rfl ((h.sound.ok n).completions_eq_nil hreceiving).1
  | postReconcile | postStop =>
    cases hst
    exact .of_objects rfl rfl
  | runHandler =>
    simp only [Io.step] at hst
    split at hst <;> cases hst
    next hqueue => exact h.extends_handle hqueue
  | exit =>
    simp only [Io.step] at hst
    split at hst <;> cases hst
    exact .of_objects rfl rfl

/-! ## Each datagram is answered once -/

variable {io io' : Io ε} {n : Nat}

/-- The sockets that are open are those of the map. Whatever the order in which datagrams
arrive, receives end, lists are applied and `Stop` is called, an open socket has one receive
outstanding, so no datagram is overtaken: the replies are to the datagrams that arrived, in
this order, each to its sender, and what has no reply yet is held by the one receive or by
the kernel. A closed socket has no receive to come and sends no reply any more. -/
theorem answers_once (h : Reachable Io.step ({} : Io ε) io) (n : Nat) :
    ((io.objects n).isOpen = true ↔ ∃ address, io.lookup address = some n) ∧
    (io.objects n).answered <+: (io.objects n).arrived ∧
    ((io.objects n).isOpen = true →
      (io.objects n).outstanding (Io.completionsOf io.queue n) = 1 ∧
      (io.objects n).arrived = (io.objects n).answered ++
        (Io.completionsOf io.queue n).filterMap Completion.sender? ++ (io.objects n).inbox) ∧
    ((io.objects n).isOpen = false → n < io.next →
      (io.objects n).receiving = false ∧
      ∀ as io', run Io.step io as = some io' → io'.objects n = io.objects n) := by
  have hinv := h.invariant start_inv step_inv
  have hok := hinv.sound.ok n
  refine ⟨hinv.isOpen_iff n, hok.answered_prefix, fun hopen => ⟨hok.one hopen, hok.history hopen⟩,
    fun hclosed hn => ⟨(hok.closed hclosed).1, fun as io' hrun => ?_⟩⟩
  have hextends := run_preserves (I := fun io' => Inv io' ∧ Extends io io') hrun
    ⟨hinv, .refl io⟩ fun hs hst => ⟨step_inv hs.1 hst, hs.2.trans (step_extends hs.1 hst)⟩
  exact hextends.2.closed n hn hclosed

/-- Two datagrams arrive; the first has been answered and the second received. -/
def sampleRun : List (Action Nat) :=
  [.postReconcile (fun _ => true) [DiscoveryServer.sampleAddress "eth0"], .runHandler,
    .arrive 0 7, .arrive 0 8, .complete 0, .runHandler, .complete 0]

theorem answers_once_sample :
    ∃ io, run Io.step {} sampleRun = some io ∧ (io.objects 0).answered = [7] ∧
      (io.objects 0).arrived = [7, 8] ∧ (io.objects 0).answered <+: (io.objects 0).arrived := by
  obtain ⟨io, hrun, hs⟩ := (Option.any_eq_true _ _).mp
    (show (run Io.step {} sampleRun).any (fun io =>
      decide ((io.objects 0).answered = [7] ∧ (io.objects 0).arrived = [7, 8])) = true by
        decide +kernel)
  obtain ⟨hanswered, harrived⟩ := of_decide_eq_true hs
  exact ⟨io, hrun, hanswered, harrived, (answers_once ⟨_, hrun⟩ 0).2.1⟩

end RemoteControl.DiscoveryIo
