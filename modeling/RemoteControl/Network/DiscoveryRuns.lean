import Mathlib
import RemoteControl.Network.DiscoveryIo

/-!
# Runs of the discovery server's thread

* `refines_discoveryServer`: until `Stop`, the thread makes the calls of `Reconcile` that
  are posted, in their order, and these calls alone have the same results and leave each
  address on the same interface.
* `stop_returns`: after `Stop` has posted its handler the thread always has something to
  run until `run` returns, and it returns after so many handlers, as long as nothing else
  is posted; `AIMPPlugin::Finalize` has joined the watcher before.
-/

namespace RemoteControl.DiscoveryIo

open Transition RemoteControlServer

variable {ε : Type} {io io' : Io ε}

/-! ## The sockets as a `DiscoveryServer` -/

/-- The interface that the listener stored under an address is bound to. -/
def Io.server (io : Io ε) : DiscoveryServer where
  listeners address := (io.lookup address).map fun n => (io.objects n).interfaceId

theorem Inv.lt_next_of_lookup (h : Inv io) {address : Bytes} {n : Nat}
    (hlookup : io.lookup address = some n) : n < io.next :=
  h.sound.lt_next_of_isOpen ((h.isOpen_iff n).mpr ⟨address, hlookup⟩)

/-- What changes neither the map nor an interface is not seen. -/
theorem Inv.server_eq (h : Inv io) (hextends : Extends io io')
    (hlookup : ∀ address, io'.lookup address = io.lookup address) : io'.server = io.server := by
  refine congrArg DiscoveryServer.mk (funext fun address => ?_)
  show (io'.lookup address).map _ = (io.lookup address).map _
  rw [hlookup]
  refine Option.map_congr fun n hn => hextends.interface n (h.lt_next_of_lookup hn)

theorem Inv.server_closeUnwanted (h : Inv io) (allowed : List NetworkAddress) :
    (io.closeUnwanted allowed).server = io.server.closeUnwanted allowed := by
  refine congrArg DiscoveryServer.mk (funext fun address => ?_)
  have hlookup : (io.closeUnwanted allowed).lookup address =
      if wanted allowed address then io.lookup address else none := lookup_filter _
  rw [hlookup]
  show _ = if wanted allowed address then io.server.listeners address else none
  split
  · exact Option.map_congr fun n hn =>
      h.extends_closeUnwanted.interface n (h.lt_next_of_lookup hn)
  · rfl

theorem Inv.server_openListener (h : Inv io) {a : NetworkAddress}
    (hnone : io.lookup a.address = none) :
    (io.openListener a).server = io.server.openListener a := by
  refine congrArg DiscoveryServer.mk (funext fun address => ?_)
  have hlookup : (io.openListener a).lookup address =
      if address = a.address then some io.next else io.lookup address :=
    lookup_insertEntry hnone address
  rw [hlookup]
  show _ = if address = a.address then some a.interfaceId else io.server.listeners address
  split
  · simp [Io.openListener, Io.receive, Io.update]
  · exact Option.map_congr fun n hn =>
      (Extends.openListener a).interface n (h.lt_next_of_lookup hn)

theorem Io.server_isSome (io : Io ε) (address : Bytes) :
    (io.server.listeners address).isSome = (io.lookup address).isSome :=
  Option.isSome_map

theorem Inv.server_openAllowed (h : Inv io) {opens : Nat → Bool} {i : Nat}
    (allowed : List NetworkAddress) :
    io.server.openAllowed opens i allowed =
      ((io.openAllowed opens i allowed).1, (io.openAllowed opens i allowed).2.server) := by
  induction allowed generalizing io i with
  | nil => rfl
  | cons a allowed ih =>
    unfold Io.openAllowed DiscoveryServer.openAllowed
    rw [io.server_isSome]
    split
    · exact ih h
    · next hnone =>
      have hnone := Option.not_isSome_iff_eq_none.mp hnone
      split
      · rw [← h.server_openListener hnone]
        exact ih (h.openListener hnone)
      · rw [ih h]

/-- `Reconcile` with its sockets does and answers what it does without. -/
theorem Inv.server_reconcile (h : Inv io) (opens : Nat → Bool) (allowed : List NetworkAddress) :
    io.server.reconcile opens allowed =
      ((io.reconcile opens allowed).1, (io.reconcile opens allowed).2.server) := by
  rw [DiscoveryServer.reconcile, ← h.server_closeUnwanted]
  exact (h.closeUnwanted allowed).server_openAllowed allowed

/-- A step that calls no `Reconcile` and closes nothing is not seen. -/
theorem Inv.server_step (h : Inv io) {action : Action ε} (hst : io.step action = some io')
    (hhandler : ∀ handler queue, action = .runHandler → io.queue = handler :: queue →
      ∃ n c, handler = .received n c) : io'.server = io.server := by
  refine h.server_eq (step_extends h hst) fun address => ?_
  cases action with
  | arrive | complete | fail =>
    simp only [Io.step] at hst
    split at hst <;> cases hst
    rfl
  | postReconcile | postStop =>
    cases hst
    rfl
  | exit =>
    simp only [Io.step] at hst
    split at hst <;> cases hst
    rfl
  | runHandler =>
    simp only [Io.step] at hst
    split at hst <;> cases hst
    next handler queue _ hqueue =>
      obtain ⟨n, c, rfl⟩ := hhandler handler queue rfl hqueue
      cases c with
      | aborted => rfl
      | error | datagram sender =>
        rw [Io.handle]
        split <;> rfl

/-! ## What a step does to the queue -/

def Handler.IsReceived : Handler ε → Prop
  | .received .. => True
  | .reconcile .. | .stop => False

/-- Only completions have been added, behind everything else. -/
def Queued (queue queue' : List (Handler ε)) : Prop :=
  ∃ more, queue' = queue ++ more ∧ ∀ handler ∈ more, handler.IsReceived

section Queue

variable {queue queue' queue'' : List (Handler ε)}

theorem Queued.refl (queue : List (Handler ε)) : Queued queue queue :=
  ⟨[], (List.append_nil _).symm, fun _ hmem => absurd hmem List.not_mem_nil⟩

theorem Queued.trans (h : Queued queue queue') (h' : Queued queue' queue'') :
    Queued queue queue'' := by
  obtain ⟨more, rfl, hmore⟩ := h
  obtain ⟨more', rfl, hmore'⟩ := h'
  refine ⟨more ++ more', List.append_assoc .., fun handler hmem => ?_⟩
  exact (List.mem_append.mp hmem).elim (hmore handler) (hmore' handler)

theorem queued_closeEach (entries : List (Bytes × Nat)) :
    Queued io.queue (Io.closeEach entries io).queue := by
  induction entries generalizing io with
  | nil => exact .refl _
  | cons entry entries ih =>
    have hone : Queued io.queue (io.closeSocket entry.2).queue := by
      refine ⟨_, rfl, fun handler hmem => ?_⟩
      split at hmem
      · rw [List.mem_singleton.mp hmem]
        trivial
      · exact absurd hmem List.not_mem_nil
    exact hone.trans ih

theorem queue_openAllowed {opens : Nat → Bool} {i : Nat} (allowed : List NetworkAddress) :
    (io.openAllowed opens i allowed).2.queue = io.queue := by
  induction allowed generalizing io i with
  | nil => rfl
  | cons a allowed ih =>
    unfold Io.openAllowed
    split
    · exact ih
    · split
      · exact ih
      · exact ih

theorem queued_handle (handler : Handler ε) : Queued io.queue (io.handle handler).queue := by
  cases handler with
  | received n c =>
    cases c with
    | aborted => exact .refl _
    | error | datagram sender =>
      rw [Io.handle]
      split <;> exact .refl _
  | reconcile opens allowed =>
    rw [Io.handle, Io.reconcile, queue_openAllowed]
    exact queued_closeEach _
  | stop => exact queued_closeEach _

/-- Whether an action posts a handler. -/
def Action.posts : Action ε → Bool
  | .postReconcile .. | .postStop => true
  | .arrive .. | .complete _ | .fail _ | .runHandler | .exit => false

theorem queued_step {action : Action ε} (hposts : action.posts = false)
    (hst : io.step action = some io') :
    (∃ handler queue, action = .runHandler ∧ io.queue = handler :: queue ∧
      io' = { io with queue }.handle handler) ∨
    action ≠ .runHandler ∧ Queued io.queue io'.queue ∧ io'.next = io.next ∧ io'.work = io.work ∧
      io'.listeners = io.listeners := by
  cases action with
  | postReconcile | postStop => cases hposts
  | arrive =>
    simp only [Io.step] at hst
    split at hst <;> cases hst
    exact Or.inr ⟨by simp, .refl _, rfl, rfl, rfl⟩
  | complete | fail =>
    simp only [Io.step] at hst
    split at hst <;> cases hst
    refine Or.inr ⟨by simp, ⟨_, rfl, fun handler hmem => ?_⟩, rfl, rfl, rfl⟩
    rw [List.mem_singleton.mp hmem]
    trivial
  | exit =>
    simp only [Io.step] at hst
    split at hst <;> cases hst
    exact Or.inr ⟨by simp, .refl _, rfl, rfl, rfl⟩
  | runHandler =>
    simp only [Io.step] at hst
    split at hst <;> cases hst
    next handler queue _ hqueue => exact Or.inl ⟨handler, queue, rfl, hqueue, rfl⟩

end Queue

/-! ## The runs before `Stop` -/

def NotStop (_ : Io ε) : Action ε → Prop
  | .postStop => False
  | _ => True

instance (io : Io ε) (action : Action ε) : Decidable (NotStop io action) := by
  unfold NotStop
  split <;> infer_instance

theorem Queued.stop_notMem {queue queue' : List (Handler ε)} (h : Queued queue queue')
    (hqueue : Handler.stop ∉ queue) : Handler.stop ∉ queue' := by
  obtain ⟨more, rfl, hmore⟩ := h
  intro hmem
  exact (List.mem_append.mp hmem).elim hqueue fun hmem => hmore _ hmem

theorem stop_notMem_step {action : Action ε} (hstop : Handler.stop ∉ io.queue)
    (hok : NotStop io action) (hst : io.step action = some io') : Handler.stop ∉ io'.queue := by
  cases hposts : action.posts with
  | true =>
    cases action with
    | postReconcile opens allowed =>
      cases hst
      simpa using hstop
    | postStop => exact hok.elim
    | arrive | complete | fail | runHandler | exit => cases hposts
  | false =>
    rcases queued_step hposts hst with ⟨handler, queue, -, hqueue, rfl⟩ | ⟨-, hqueued, -⟩
    · refine (queued_handle handler).stop_notMem fun hmem => hstop ?_
      rw [hqueue]
      exact List.mem_cons_of_mem _ hmem
    · exact hqueued.stop_notMem hstop

/-- Before `Stop` everything is as it should be, and its handler is not in the queue. -/
theorem inv_of_notStop (h : ReachableBy Io.step NotStop ({} : Io ε) io) :
    Inv io ∧ Handler.stop ∉ io.queue :=
  h.invariant (I := fun io => Inv io ∧ Handler.stop ∉ io.queue) ⟨start_inv, List.not_mem_nil⟩
    fun hio hok hst => ⟨step_inv hio.1 hst, stop_notMem_step hio.2 hok hst⟩

/-! ## The calls of `Reconcile` -/

section Calls

variable {action : Action ε}

/-- The call that a handler is for. -/
def Handler.call : Handler ε → Option DiscoveryServer.Action
  | .reconcile opens allowed => some (.reconcile opens allowed)
  | .received .. | .stop => none

/-- The calls that wait in the queue. -/
def Io.waiting (io : Io ε) : List DiscoveryServer.Action := io.queue.filterMap Handler.call

/-- The call that an action posts. -/
def Action.call : Action ε → Option DiscoveryServer.Action
  | .postReconcile opens allowed => some (.reconcile opens allowed)
  | _ => none

def posted (as : List (Action ε)) : List DiscoveryServer.Action :=
  as.flatMap fun action => action.call.toList

/-- The call that the thread makes in a step, with its result. -/
def Io.made (io : Io ε) : Action ε → Option (DiscoveryServer.Action × Bool)
  | .runHandler =>
    match io.queue with
    | .reconcile opens allowed :: queue =>
      some (.reconcile opens allowed, ({ io with queue }.reconcile opens allowed).1)
    | _ => none
  | _ => none

def Io.madeAlong (io : Io ε) : List (Action ε) → List (DiscoveryServer.Action × Bool)
  | [] => []
  | action :: as =>
    (io.made action).toList ++ ((io.step action).map fun io' => io'.madeAlong as).getD []

theorem Queued.waiting_eq {queue queue' : List (Handler ε)} (h : Queued queue queue') :
    queue'.filterMap Handler.call = queue.filterMap Handler.call := by
  obtain ⟨more, rfl, hmore⟩ := h
  have hnone : more.filterMap Handler.call = [] := by
    refine List.filterMap_eq_nil_iff.mpr fun handler hmem => ?_
    cases handler with
    | received n c => rfl
    | reconcile | stop => exact (hmore _ hmem).elim
  rw [List.filterMap_append, hnone, List.append_nil]

/-- A step that makes no call adds the one it posts, if any, behind those that wait. -/
theorem waiting_step (hnone : io.made action = none) (hst : io.step action = some io') :
    io'.waiting = io.waiting ++ action.call.toList := by
  cases hposts : action.posts with
  | true =>
    cases action with
    | postReconcile opens allowed | postStop =>
      cases hst
      rw [Io.waiting, List.filterMap_append]
      rfl
    | arrive | complete | fail | runHandler | exit => cases hposts
  | false =>
    have hcall : action.call = none := by
      cases action with
      | postReconcile | postStop => cases hposts
      | arrive | complete | fail | runHandler | exit => rfl
    rw [hcall, Option.toList_none, List.append_nil]
    rcases queued_step hposts hst with ⟨handler, queue, rfl, hqueue, rfl⟩ | ⟨-, hkept, -⟩
    · rw [Io.waiting, (queued_handle handler).waiting_eq, Io.waiting, hqueue]
      cases handler with
      | received | stop => rfl
      | reconcile opens allowed =>
        rw [Io.made, hqueue] at hnone
        cases hnone
    · exact hkept.waiting_eq

/-- It calls no `Reconcile`, and before `Stop` nothing else closes a socket. -/
theorem Inv.server_of_none (h : Inv io) (hstop : Handler.stop ∉ io.queue)
    (hnone : io.made action = none) (hst : io.step action = some io') : io'.server = io.server := by
  refine h.server_step hst fun handler queue hrun hqueue => ?_
  cases handler with
  | received n c => exact ⟨n, c, rfl⟩
  | reconcile opens allowed =>
    rw [hrun, Io.made, hqueue] at hnone
    cases hnone
  | stop => exact absurd (hqueue ▸ List.mem_cons_self) hstop

/-- A step that makes a call makes the first that waits. -/
theorem Inv.reconcile_step {call : DiscoveryServer.Action} {answer : Bool} (h : Inv io)
    (hmade : io.made action = some (call, answer)) (hst : io.step action = some io') :
    action.call = none ∧ io.waiting = call :: io'.waiting ∧
      ∃ opens allowed, call = .reconcile opens allowed ∧
        io.server.reconcile opens allowed = (answer, io'.server) := by
  unfold Io.made at hmade
  cases action with
  | arrive | complete | fail | postReconcile | postStop | exit => cases hmade
  | runHandler =>
    dsimp only at hmade
    split at hmade
    · next opens allowed queue hqueue =>
      cases hmade
      rcases queued_step rfl hst with ⟨handler, rest, -, hhead, rfl⟩ | ⟨hne, -⟩
      · obtain ⟨rfl, rfl⟩ := List.cons_eq_cons.mp (hhead.symm.trans hqueue)
        have hpopped : Inv { io with queue := rest } :=
          h.withQueue fun m => by rw [hqueue]; rfl
        refine ⟨rfl, ?_, opens, allowed, rfl, hpopped.server_reconcile opens allowed⟩
        rw [Io.waiting, Io.waiting, (queued_handle _).waiting_eq, hqueue]
        rfl
      · exact absurd rfl hne
    · cases hmade

/-- The results of a sequence of calls. -/
def results (server : DiscoveryServer) : List DiscoveryServer.Action → List Bool
  | [] => []
  | .reconcile opens allowed :: calls =>
    (server.reconcile opens allowed).1 :: results (server.reconcile opens allowed).2 calls

theorem Inv.madeAlong_run {as : List (Action ε)} (h : Inv io) (hstop : Handler.stop ∉ io.queue)
    (hposts : Action.postStop ∉ as) (hrun : run Io.step io as = some io') :
    io.waiting ++ posted as = (io.madeAlong as).map Prod.fst ++ io'.waiting ∧
      results io.server ((io.madeAlong as).map Prod.fst) = (io.madeAlong as).map Prod.snd ∧
      ∀ s : DiscoveryServer.System, s.server = io.server →
        ∃ t, run DiscoveryServer.System.step s ((io.madeAlong as).map Prod.fst) = some t ∧
          t.server = io'.server := by
  induction as generalizing io with
  | nil =>
    cases hrun
    exact ⟨List.append_nil _, rfl, fun s hs => ⟨s, rfl, hs⟩⟩
  | cons action as ih =>
    obtain ⟨next, hst, hrun⟩ := run_cons_eq_some.mp hrun
    have hnotStop : NotStop io action := by
      cases action with
      | postStop => exact absurd List.mem_cons_self hposts
      | arrive | complete | fail | postReconcile | runHandler | exit => trivial
    obtain ⟨hcalls, hresults, hsystem⟩ := ih (step_inv h hst) (stop_notMem_step hstop hnotStop hst)
      (fun hmem => hposts (List.mem_cons_of_mem _ hmem)) hrun
    have hposted : posted (action :: as) = action.call.toList ++ posted as := List.flatMap_cons
    have halong : io.madeAlong (action :: as) = (io.made action).toList ++ next.madeAlong as := by
      rw [Io.madeAlong, hst]
      rfl
    rw [hposted, halong]
    cases hmade : io.made action with
    | none =>
      have hserver := h.server_of_none hstop hmade hst
      rw [← List.append_assoc, ← waiting_step hmade hst, ← hserver]
      exact ⟨hcalls, hresults, hsystem⟩
    | some made =>
      obtain ⟨call, answer⟩ := made
      obtain ⟨hcall, hwaiting, opens, allowed, rfl, hreconcile⟩ := h.reconcile_step hmade hst
      have hanswer : (io.server.reconcile opens allowed).1 = answer := by rw [hreconcile]
      have hafter : (io.server.reconcile opens allowed).2 = next.server := by rw [hreconcile]
      refine ⟨?_, ?_, fun s hs => ?_⟩
      · rw [hcall, hwaiting]
        exact congrArg (List.cons _) hcalls
      · simp only [Option.toList_some, List.singleton_append, List.map_cons, results]
        rw [hanswer, hafter, hresults]
      · obtain ⟨t, ht, hserver⟩ :=
          hsystem ⟨next.server, some (allowed, answer)⟩ rfl
        refine ⟨t, ?_, hserver⟩
        rw [Option.toList_some, List.singleton_append, List.map_cons, run_cons,
          DiscoveryServer.System.step, hs, hreconcile]
        exact ht

end Calls

/-- **The thread does to the sockets what `Reconcile` alone does to the map**: in every run
before `Stop` the calls it has made, then those that wait, are the calls posted, in their
order; and the calls made, directly one after the other, have the results they had and leave
each address on the interface it is on. -/
theorem refines_discoveryServer {as : List (Action ε)} (hrun : run Io.step {} as = some io)
    (hposts : Action.postStop ∉ as) :
    let made := ({} : Io ε).madeAlong as
    posted as = made.map Prod.fst ++ io.waiting ∧
      results {} (made.map Prod.fst) = made.map Prod.snd ∧
      ∃ s, run DiscoveryServer.System.step {} (made.map Prod.fst) = some s ∧
        s.server = io.server := by
  obtain ⟨hcalls, hresults, hsystem⟩ := start_inv.madeAlong_run List.not_mem_nil hposts hrun
  exact ⟨hcalls, hresults, hsystem {} rfl⟩

/-- A second call that finds a port in use, and a third that waits. -/
def sampleCalls : List (Action Nat) :=
  sampleRun ++
    [.postReconcile (fun _ => false) [DiscoveryServer.sampleAddress "eth0",
      ⟨ascii "wlan0", ascii "wlan0", ascii "10.0.0.3", false⟩], .postReconcile (fun _ => true) [],
      .runHandler, .runHandler]

theorem refines_discoveryServer_sample :
    ∃ io, run Io.step ({} : Io Nat) sampleCalls = some io ∧ io.waiting.length = 1 ∧
      results {} ((({} : Io Nat).madeAlong sampleCalls).map Prod.fst) = [true, false] ∧
      io.server.listeners (ascii "10.0.0.2") = some (ascii "eth0") ∧
      ∃ s, run DiscoveryServer.System.step {}
        ((({} : Io Nat).madeAlong sampleCalls).map Prod.fst) = some s ∧ s.server = io.server := by
  obtain ⟨io, hrun, hs⟩ := (Option.any_eq_true _ _).mp
    (show (run Io.step ({} : Io Nat) sampleCalls).any (fun io => decide (io.waiting.length = 1 ∧
      (({} : Io Nat).madeAlong sampleCalls).map Prod.snd = [true, false] ∧
      io.server.listeners (ascii "10.0.0.2") = some (ascii "eth0"))) = true by decide +kernel)
  obtain ⟨hwaiting, hresults, hlistener⟩ := of_decide_eq_true hs
  obtain ⟨-, hresults', hsystem⟩ := refines_discoveryServer hrun (by simp [sampleCalls, sampleRun])
  exact ⟨io, hrun, hwaiting, hresults'.trans hresults, hlistener, hsystem⟩

/-! ## `Stop` -/

/-- What a handler adds to the listeners that can still end a receive. -/
def Handler.cost : Handler ε → Nat
  | .reconcile _ allowed => allowed.length + 1
  | .received .. | .stop => 1

/-- `Stop`'s handler is to be run before any other handler posted since, or has been run;
and at most `bound` handlers are left to run. -/
def Stopping (io : Io ε) (bound : Nat) : Prop :=
  (∃ before after, io.queue = before ++ .stop :: after ∧ Handler.stop ∉ before ∧
    (∀ handler ∈ after, handler.IsReceived) ∧
    (before.map Handler.cost).sum + 1 + io.next ≤ bound) ∨
  io.work = false ∧ io.listeners = [] ∧ (∀ handler ∈ io.queue, handler.IsReceived) ∧
    io.queue.length ≤ bound

theorem next_openAllowed {opens : Nat → Bool} {i : Nat} (allowed : List NetworkAddress) :
    (io.openAllowed opens i allowed).2.next ≤ io.next + allowed.length := by
  induction allowed generalizing io i with
  | nil => exact Nat.le_refl _
  | cons a allowed ih =>
    rw [List.length_cons]
    unfold Io.openAllowed
    split
    · exact Nat.le_trans ih (by omega)
    · split
      · have hopened : (io.openListener a).next = io.next + 1 := rfl
        have hle : ((io.openListener a).openAllowed opens (i + 1) allowed).2.next ≤ _ := ih
        rw [hopened] at hle
        omega
      · exact Nat.le_trans ih (by omega)

theorem next_closeEach (entries : List (Bytes × Nat)) :
    (Io.closeEach entries io).next = io.next := by
  induction entries generalizing io with
  | nil => rfl
  | cons entry entries ih => exact ih

theorem next_handle (handler : Handler ε) :
    (io.handle handler).next + 1 ≤ io.next + handler.cost := by
  cases handler with
  | received n c =>
    cases c with
    | aborted => exact Nat.le_refl _
    | error | datagram sender =>
      rw [Io.handle]
      split <;> exact Nat.le_refl _
  | reconcile opens allowed =>
    have hle := @next_openAllowed ε (io.closeUnwanted allowed) opens 0 allowed
    have hclosed : (io.closeUnwanted allowed).next = io.next := next_closeEach _
    rw [hclosed] at hle
    rw [Io.handle, Io.reconcile, Handler.cost]
    omega
  | stop => exact Nat.le_of_eq (congrArg (· + 1) (next_closeEach io.listeners))

def Handler.listener : Handler ε → Nat
  | .received n _ => n
  | .reconcile .. | .stop => 0

theorem count_listener {queue : List (Handler ε)}
    (hqueue : ∀ handler ∈ queue, handler.IsReceived) (n : Nat) :
    (queue.map Handler.listener).count n = (Io.completionsOf queue n).length := by
  induction queue with
  | nil => rfl
  | cons handler queue ih =>
    have hrest := ih fun other hother => hqueue other (List.mem_cons_of_mem _ hother)
    cases handler with
    | reconcile | stop => exact (hqueue _ List.mem_cons_self).elim
    | received m c =>
      rw [List.map_cons, List.count_cons, hrest, completionsOf_received]
      by_cases heq : m = n
      · simp [Handler.listener, heq]
      · simp [Handler.listener, heq]

/-- The completions in the queue are of different listeners. -/
theorem Inv.length_le (h : Inv io) (hqueue : ∀ handler ∈ io.queue, handler.IsReceived) :
    io.queue.length ≤ io.next := by
  have hle : ∀ n, (Io.completionsOf io.queue n).length ≤ 1 := by
    intro n
    cases hopen : (io.objects n).isOpen with
    | false => exact ((h.sound.ok n).closed hopen).2
    | true =>
      have hone := (h.sound.ok n).one hopen
      rw [Listener.outstanding] at hone
      omega
  have hnodup : (io.queue.map Handler.listener).Nodup := by
    rw [List.nodup_iff_count_le_one]
    intro n
    rw [count_listener hqueue]
    exact hle n
  have hsub : io.queue.map Handler.listener ⊆ List.range io.next := by
    intro n hn
    rw [List.mem_range]
    refine Nat.lt_of_not_le fun hunused => ?_
    have hpos := List.count_pos_iff.mpr hn
    rw [count_listener hqueue, (h.sound.unused n hunused).2] at hpos
    exact absurd hpos (Nat.lt_irrefl 0)
  have hlength := (List.subperm_of_subset hnodup hsub).length_le
  rwa [List.length_map, List.length_range] at hlength

/-- With no listener left, nothing happens but the handlers that remain. -/
theorem Inv.step_closed {action : Action ε} (h : Inv io) (hlisteners : io.listeners = [])
    (hposts : action.posts = false) (hst : io.step action = some io') :
    action = .exit ∧ io' = { io with running := false } ∨
    action = .runHandler ∧ ∃ handler queue, io.queue = handler :: queue ∧
      io' = { io with queue }.handle handler := by
  have hclosed : ∀ n, (io.objects n).isOpen = false := by
    intro n
    rw [← Bool.not_eq_true, h.sound.open_iff, hlisteners]
    exact List.not_mem_nil
  have hreceiving : ∀ n, (io.objects n).receiving = false := fun n =>
    ((h.sound.ok n).closed (hclosed n)).1
  cases action with
  | postReconcile | postStop => cases hposts
  | arrive n =>
    simp only [Io.step, hclosed n] at hst
    cases hst
  | complete n | fail n =>
    simp only [Io.step, hreceiving n] at hst
    cases hst
  | exit =>
    simp only [Io.step] at hst
    split at hst <;> cases hst
    exact Or.inl ⟨rfl, rfl⟩
  | runHandler =>
    rcases queued_step hposts hst with ⟨handler, queue, -, hqueue, heq⟩ | ⟨hne, -⟩
    · exact Or.inr ⟨rfl, handler, queue, hqueue, heq⟩
    · exact absurd rfl hne

theorem Inv.handle_closed {n : Nat} {c : Completion ε} (h : Inv io)
    (hlisteners : io.listeners = []) {queue : List (Handler ε)} :
    { io with queue }.handle (.received n c) = { io with queue } := by
  have hclosed : (io.objects n).isOpen ≠ true := by
    rw [ne_eq, h.sound.open_iff, hlisteners]
    exact List.not_mem_nil
  cases c with
  | aborted => rfl
  | error | datagram sender => exact if_neg hclosed

def Action.isRunHandler : Action ε → Bool
  | .runHandler => true
  | _ => false

theorem Stopping.step {action : Action ε} {bound : Nat} (h : Stopping io bound) (hinv : Inv io)
    (hposts : action.posts = false) (hst : io.step action = some io') :
    ∃ bound', Stopping io' bound' ∧ bound' + action.isRunHandler.toNat ≤ bound := by
  rcases h with ⟨before, after, hqueue, hbefore, hafter, hbound⟩ |
    ⟨hwork, hlisteners, hqueue, hbound⟩
  · rcases queued_step hposts hst with ⟨handler, queue, rfl, hhead, rfl⟩ |
      ⟨hne, ⟨more, hmore, hreceived⟩, hnext, -⟩
    · obtain ⟨more, hmore, hreceived⟩ := @queued_handle ε { io with queue } handler
      cases before with
      | nil =>
        -- `Stop`'s own handler: what it leaves are the receives it has cancelled
        obtain ⟨rfl, rfl⟩ := List.cons_eq_cons.mp (hhead.symm.trans hqueue)
        have hall : ∀ handler ∈ ({ io with queue }.handle .stop).queue, handler.IsReceived := by
          rw [hmore]
          intro handler hmem
          exact (List.mem_append.mp hmem).elim (hafter handler) (hreceived handler)
        have hlength := (step_inv hinv hst).length_le hall
        have hnext := @next_handle ε { io with queue } .stop
        refine ⟨io.next, Or.inr ⟨rfl, rfl, hall, ?_⟩, ?_⟩
        · exact Nat.le_trans hlength (Nat.le_of_succ_le_succ hnext)
        · simp only [List.map_nil, List.sum_nil, Action.isRunHandler, Bool.toNat_true] at hbound ⊢
          omega
      | cons head before =>
        rw [List.cons_append] at hqueue
        obtain ⟨rfl, rfl⟩ := List.cons_eq_cons.mp (hhead.symm.trans hqueue)
        have hnext := @next_handle ε { io with queue := before ++ .stop :: after } handler
        refine ⟨_, Or.inl ⟨before, after ++ more, ?_, ?_, ?_, Nat.le_refl _⟩, ?_⟩
        · rw [hmore, List.append_assoc, List.cons_append]
        · exact fun hmem => hbefore (List.mem_cons_of_mem _ hmem)
        · intro other hmem
          exact (List.mem_append.mp hmem).elim (hafter other) (hreceived other)
        · simp only [List.map_cons, List.sum_cons, Action.isRunHandler, Bool.toNat_true]
            at hbound hnext ⊢
          omega
    · refine ⟨bound, Or.inl ⟨before, after ++ more, ?_, hbefore, ?_, ?_⟩, ?_⟩
      · rw [hmore, hqueue, List.append_assoc, List.cons_append]
      · intro other hmem
        exact (List.mem_append.mp hmem).elim (hafter other) (hreceived other)
      · rw [hnext]
        exact hbound
      · cases action with
        | runHandler => exact absurd rfl hne
        | _ => exact Nat.le_refl _
  · rcases hinv.step_closed hlisteners hposts hst with
      ⟨rfl, rfl⟩ | ⟨rfl, handler, queue, hhead, rfl⟩
    · exact ⟨bound, Or.inr ⟨hwork, hlisteners, hqueue, hbound⟩, Nat.le_refl _⟩
    · have hreceived := hqueue handler (hhead ▸ List.mem_cons_self)
      rw [hhead, List.length_cons] at hbound
      cases handler with
      | reconcile | stop => exact hreceived.elim
      | received n c =>
        rw [hinv.handle_closed hlisteners]
        refine ⟨queue.length, Or.inr ⟨hwork, hlisteners, fun other hmem => ?_, Nat.le_refl _⟩, ?_⟩
        · exact hqueue other (hhead ▸ List.mem_cons_of_mem _ hmem)
        · exact hbound

/-- Over a run, every handler that is run comes off the bound. -/
theorem Stopping.run {as : List (Action ε)} {bound : Nat} (h : Stopping io bound) (hinv : Inv io)
    (hposts : ∀ action ∈ as, action.posts = false) (hrun : run Io.step io as = some io') :
    Inv io' ∧ ∃ bound', Stopping io' bound' ∧
      bound' + as.countP Action.isRunHandler ≤ bound := by
  induction as generalizing io bound with
  | nil =>
    cases hrun
    exact ⟨hinv, bound, h, Nat.le_refl _⟩
  | cons action as ih =>
    obtain ⟨next, hst, hrun⟩ := run_cons_eq_some.mp hrun
    obtain ⟨bound₁, hstopping, hle₁⟩ := h.step hinv (hposts action List.mem_cons_self) hst
    obtain ⟨hinv', bound₂, hstopping', hle₂⟩ := ih hstopping (step_inv hinv hst)
      (fun other hother => hposts other (List.mem_cons_of_mem _ hother)) hrun
    refine ⟨hinv', bound₂, hstopping', ?_⟩
    rw [List.countP_cons]
    cases hhandler : action.isRunHandler with
    | true =>
      rw [hhandler] at hle₁
      simp only [Bool.toNat_true, if_pos] at hle₁ ⊢
      omega
    | false =>
      rw [hhandler] at hle₁
      simp only [Bool.toNat_false, Bool.false_eq_true, if_false] at hle₁ ⊢
      omega

/-- The thread is never left waiting: it has a handler to run, or `run` returns. -/
theorem Stopping.progress {bound : Nat} (h : Stopping io bound) (hinv : Inv io)
    (hrunning : io.running = true) :
    (io.step .runHandler).isSome ∨ (io.step .exit).isSome := by
  rcases h with ⟨before, after, hqueue, -⟩ | ⟨hwork, hlisteners, -⟩
  · refine Or.inl ?_
    obtain ⟨handler, queue, hcons⟩ : ∃ handler queue, io.queue = handler :: queue := by
      rw [hqueue]
      cases before with
      | nil => exact ⟨_, _, rfl⟩
      | cons head before => exact ⟨_, _, rfl⟩
    simp only [Io.step, hrunning, hcons]
    rfl
  · cases hqueue : io.queue with
    | cons handler queue =>
      refine Or.inl ?_
      simp only [Io.step, hrunning, hqueue]
      rfl
    | nil =>
      have hidle : io.Idle := by
        intro n _
        refine ((hinv.sound.ok n).closed ?_).1
        rw [← Bool.not_eq_true, hinv.sound.open_iff, hlisteners]
        exact List.not_mem_nil
      refine Or.inr ?_
      simp only [Io.step, hrunning, hwork, hqueue, hidle, and_self, if_true]
      rfl

/-- **`Stop`'s join returns**: from the moment it has posted its handler, whatever
datagrams arrive and however receives end, and provided nothing else is posted, the thread
runs at most the handlers queued before, one for each listener these may still open, its
own and one for each listener there is; and until `run` has returned there is always a
handler to run, or `run` returns. -/
theorem stop_returns (h : ReachableBy Io.step NotStop ({} : Io ε) io) {as : List (Action ε)}
    (hposts : ∀ action ∈ as, action.posts = false)
    (hrun : run Io.step io (.postStop :: as) = some io') :
    as.countP Action.isRunHandler ≤ (io.queue.map Handler.cost).sum + 1 + io.next ∧
    (io'.running = true → (io'.step .runHandler).isSome ∨ (io'.step .exit).isSome) := by
  obtain ⟨hio, hstop⟩ := inv_of_notStop h
  obtain ⟨posted, hst, hrun⟩ := run_cons_eq_some.mp hrun
  have hinv := step_inv hio hst
  cases hst
  have hstopping : Stopping { io with queue := io.queue ++ [.stop] }
      ((io.queue.map Handler.cost).sum + 1 + io.next) :=
    Or.inl ⟨io.queue, [], rfl, hstop, fun _ hmem => absurd hmem List.not_mem_nil, Nat.le_refl _⟩
  obtain ⟨hinv', bound, hstopping', hle⟩ := hstopping.run hinv hposts hrun
  exact ⟨by omega, hstopping'.progress hinv'⟩

/-- `Stop` with one datagram received and one that arrives later. -/
def sampleStop : List (Action Nat) := [.arrive 0 9, .runHandler, .complete 0, .runHandler,
  .runHandler]

theorem stop_returns_sample :
    ∃ io io', ReachableBy Io.step NotStop ({} : Io Nat) io ∧
      run Io.step io (.postStop :: sampleStop) = some io' ∧
      (io'.step .runHandler).isSome = false ∧ (io'.step .exit).isSome := by
  obtain ⟨io, hrun, hs⟩ := (Option.any_eq_true _ _).mp
    (show (run (guarded Io.step NotStop) {} sampleRun).any (fun io =>
      (run Io.step io (.postStop :: sampleStop)).any fun io' =>
        io'.running && !(io'.step .runHandler).isSome) = true by decide +kernel)
  obtain ⟨io', hrun', hs⟩ := (Option.any_eq_true _ _).mp hs
  obtain ⟨hrunning, hnone⟩ := Bool.and_eq_true_iff.mp hs
  rw [Bool.not_eq_true'] at hnone
  have hreach : ReachableBy Io.step NotStop ({} : Io Nat) io := .of_guarded ⟨_, hrun⟩
  refine ⟨io, io', hreach, hrun', hnone, ?_⟩
  refine ((stop_returns hreach (by decide) hrun').2 hrunning).resolve_left ?_
  rw [hnone]
  exact Bool.false_ne_true

end RemoteControl.DiscoveryIo
