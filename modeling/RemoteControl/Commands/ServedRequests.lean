import RemoteControl.Commands.MainThreadOrder
import RemoteControl.Commands.ReferenceRuns

/-!
# Requests on many threads

The tasks of requests, run on the main thread for the threads of a server: a task looks at the
player and then works with what it has seen and with the ids, and between the tasks the player
changes, step by step. Commands are modelled as if one task came after another; this is so.

* `requests_served_in_turn`: in every interleaving, what the threads whose tasks run are
  answered is what the tasks answer one after another, each with the player it found.
-/

namespace RemoteControl.MainThreadRunner

open Transition Linearizable SingleThread

variable {ι : Type}

/-- What the tasks work on. -/
structure Served (ι : Type) where
  core : Core ι
  controls : PlayerControls ι
  ids : IdSession

/-- The answer of a request; the player's own work has none. -/
abbrev Answered (ι : Type) := Option (Σ request : Counted.Request ι, request.Answer)

def requestTask (request : Counted.Request ι) : Body (Served ι) (Answered ι) :=
  Body.bind (fun player : Core ι × PlayerControls ι => .act fun s =>
      (request.plain player.1 player.2 s.ids).map fun out =>
        (some ⟨request, out.1⟩, { s with ids := out.2 }))
    (.step id fun s => .done (s.core, s.controls))

/-- The player goes through these states. -/
def playerWork : List (Core ι × PlayerControls ι) → Body (Served ι) (Answered ι)
  | [] => .done none
  | player :: players =>
    .step (fun s => { s with core := player.1, controls := player.2 }) fun _ => playerWork players

def OfServer (fn : Body (Served ι) (Answered ι)) : Prop :=
  (∃ request, fn = requestTask request) ∨ ∃ players, fn = playerWork players

/-- Threads serve requests, and the threads service is there. -/
def Action.OfServer : Action (Served ι) (Answered ι) → Prop
  | .call _ fn _ => ∃ request, fn = requestTask request
  | .work fn _ => ∃ players, fn = playerWork players
  | .inPlace _ => False
  | _ => True

theorem Action.OfServer.threaded {action : Action (Served ι) (Answered ι)} (h : action.OfServer) :
    action.Threaded := by
  cases action with
  | inPlace id => exact h
  | call | work | move | take | advance | leave => trivial

theorem perform_requestTask (request : Counted.Request ι) (s : Served ι) :
    (requestTask request).perform s =
      (request.plain s.core s.controls s.ids).map fun out =>
        (some ⟨request, out.1⟩, { s with ids := out.2 }) := by
  rw [requestTask, Body.perform_bind]
  show (Body.act fun s' : Served ι => (request.plain s.core s.controls s'.ids).map fun out =>
    ((some ⟨request, out.1⟩ : Answered ι), { s' with ids := out.2 })).perform s = _
  exact Body.perform_act _ s

theorem perform_playerWork (players : List (Core ι × PlayerControls ι)) (s : Served ι) :
    ∃ core controls, (playerWork players).perform s = some (none, { s with core, controls }) := by
  induction players generalizing s with
  | nil => exact ⟨s.core, s.controls, rfl⟩
  | cons player players ih => exact ih { s with core := player.1, controls := player.2 }

/-! ## One after another -/

theorem plainRun_cons {turn : Counted.Turn ι} {turns : List (Counted.Turn ι)}
    {ids ids' ids'' : IdSession} {answer : turn.request.Answer}
    {answers : List (Σ request : Counted.Request ι, request.Answer)}
    (hturn : turn.request.plain turn.core turn.controls ids = some (answer, ids'))
    (hturns : Counted.plainRun turns ids' = some (answers, ids'')) :
    Counted.plainRun (turn :: turns) ids = some (⟨turn.request, answer⟩ :: answers, ids'') := by
  show (turn.request.plain turn.core turn.controls ids).bind (fun out =>
    (Counted.plainRun turns out.2).bind fun rest =>
      some (⟨turn.request, out.1⟩ :: rest.1, rest.2)) = _
  rw [hturn, Option.bind_some, hturns, Option.bind_some]

theorem plainRun_of_replays {s t : Served ι}
    {order : List (Entry Nat (Body (Served ι) (Answered ι)) (Answered ι))}
    (h : Replays (object (Served ι) (Answered ι)).perform s order t)
    (hserver : ∀ e ∈ order, OfServer e.op) :
    ∃ turns, Counted.plainRun turns s.ids = some (order.filterMap Entry.result, t.ids) := by
  induction h with
  | nil s => exact ⟨[], rfl⟩
  | @cons s m t e order hperform rest ih =>
    obtain ⟨turns, hturns⟩ := ih fun e' he' => hserver e' (List.mem_cons_of_mem e he')
    have hbody : e.op.perform s = some (e.result, m) := hperform
    rcases hserver e List.mem_cons_self with ⟨request, hop⟩ | ⟨players, hop⟩
    · rw [hop, perform_requestTask] at hbody
      obtain ⟨out, hplain, heq⟩ := Option.map_eq_some_iff.mp hbody
      obtain ⟨hresult, rfl⟩ := Prod.mk.inj heq
      refine ⟨⟨s.core, s.controls, request⟩ :: turns, ?_⟩
      rw [List.filterMap_cons_some hresult.symm]
      exact plainRun_cons hplain hturns
    · obtain ⟨core, controls, hwork⟩ := perform_playerWork players s
      rw [hop, hwork] at hbody
      obtain ⟨hresult, rfl⟩ := Prod.mk.inj (Option.some.inj hbody)
      refine ⟨turns, ?_⟩
      rw [List.filterMap_cons_none hresult.symm]
      exact hturns

/-! ## Every interleaving -/

namespace Threads

theorem mem_of_mem_answer {σ R : Type} {s : Threads σ R} {id id' : Nat} {result : R} {known : Bool}
    {fn : Body σ R} (h : .invoke id fn ∈ (s.answer id' result known).history) :
    .invoke id fn ∈ s.history := by
  rcases List.mem_append.mp h with h | h
  · exact h
  · cases known
    · cases h
    · cases List.mem_singleton.mp h

theorem invoked_push {σ R : Type} {s : Threads σ R} {c : Call σ R} {id : Nat} {fn : Body σ R}
    (h : .invoke id fn ∈ (s.push c).history) : .invoke id fn ∈ s.history ∨ fn = c.fn := by
  rcases List.mem_append.mp h with h | h
  · exact .inl h
  · cases List.mem_singleton.mp h
    exact .inr rfl

/-- A function is new in the history with the call it belongs to. -/
theorem invoked_step {σ R : Type} {s t : Threads σ R} {action : Action σ R} {id : Nat}
    {fn : Body σ R} (hst : s.step action = some t) (h : .invoke id fn ∈ t.history) :
    .invoke id fn ∈ s.history ∨ (∃ posted initial, action = .call posted fn initial) ∨
      ∃ initial, action = .work fn initial := by
  cases action with
  | call posted fn' initial =>
    cases hst
    rcases invoked_push h with h | rfl
    · exact .inl h
    · exact .inr (.inl ⟨posted, initial, rfl⟩)
  | work fn' initial =>
    obtain ⟨-, rfl⟩ := work_step hst
    rcases invoked_push h with h | rfl
    · exact .inl h
    · exact .inr (.inr ⟨initial, rfl⟩)
  | move id' move =>
    obtain ⟨c, c', -, -, rfl⟩ := move_step hst
    exact .inl h
  | inPlace id' =>
    obtain ⟨c, -, ⟨result, -, rfl⟩ | ⟨change, next, -, rfl⟩⟩ := inPlace_step hst
    · exact .inl h
    · exact .inl h
  | take id' =>
    obtain ⟨c, -, -, -, rfl⟩ := take_step hst
    exact .inl h
  | advance =>
    obtain ⟨id', c, -, -, ⟨result, -, rfl⟩ | ⟨change, next, -, rfl⟩⟩ := advance_step hst
    · exact .inl (mem_of_mem_answer h)
    · exact .inl h
  | leave id' =>
    obtain ⟨c, -, -, rfl⟩ := leave_step hst
    exact .inl (mem_of_mem_answer h)

theorem invoked_ofServer {s : Threads (Served ι) (Answered ι)} {shared : Served ι}
    (h : ReachableBy Threads.step (fun _ action => action.OfServer) { shared } s) :
    ∀ id fn, .invoke id fn ∈ s.history → OfServer fn := by
  refine h.invariant (I := fun s => ∀ id fn, .invoke id fn ∈ s.history → OfServer fn)
    (fun _ _ hmem => absurd hmem List.not_mem_nil) ?_
  intro s action t hs hserver hst id fn hmem
  rcases invoked_step hst hmem with hmem | ⟨posted, initial, rfl⟩ | ⟨initial, rfl⟩
  · exact hs id fn hmem
  · exact .inl hserver
  · exact .inr hserver

/-- In every interleaving of requests' threads and of what the player does, where no function
has to run in place: there is an order of the tasks that have run and of what the player did of
its own, as one after another does it, that respects real time; every task that has run is in
it with the answer its thread gets, and the ids are those these issue. A task that was refused,
or has not run yet, is not in it and has left its thread's result as it was. -/
theorem requests_served_in_turn {core : Core ι} {controls : PlayerControls ι}
    {s : Threads (Served ι) (Answered ι)}
    (h : ReachableBy Threads.step (fun _ action => action.OfServer)
      { shared := ⟨core, controls, .empty⟩ } s) :
    ∃ order base turns, Linearization (object (Served ι) (Answered ι)) ⟨core, controls, .empty⟩
        s.history base order ∧
      Counted.plainRun turns .empty = some (order.filterMap Entry.result, base.ids) ∧
      (s.main = none → base = s.shared) ∧
      ∀ id c, s.calls[id]? = some c →
        (c.task.Ran → ⟨id, c.fn, c.result⟩ ∈ order) ∧
        (¬ c.task.Ran → c.result = c.initial ∧ ∀ e ∈ order, e.id ≠ id) := by
  have hthreaded := h.mono fun _ _ hserver => hserver.threaded
  obtain ⟨-, hunwritten, order, base, hserial⟩ := serial_of_reachable hthreaded
  have hserver : ∀ e ∈ order, OfServer e.op := fun e he =>
    invoked_ofServer h e.id e.op (hserial.inv.invoked e he)
  obtain ⟨turns, hturns⟩ := plainRun_of_replays hserial.inv.replays hserver
  refine ⟨order, base, turns, hserial.inv.toLinearization, hturns, hserial.base_eq,
    fun id c hc => ⟨mem_order hserial hc, fun hran => ?_⟩⟩
  refine ⟨hunwritten c (List.mem_of_getElem? hc) hran, ?_⟩
  exact hserial.not_mem (works_of_call hc) fun hover => hran ((Call.ran_iff c).mpr hover)

def servedControls : PlayerControls Nat :=
  ⟨fun _ => sOk, fun _ _ => sOk, fun _ _ => none, fun _ _ => sOk⟩

/-- The second request's task runs first, and then the player changes. -/
def sampleServed : List (Action (Served Nat) (Answered Nat)) :=
  [.call false (requestTask (.createPlaylist (ascii "Mix"))) none,
    .call false (requestTask (.queuedEntries [ascii "id"])) none,
    .move 0 (.acquire true), .move 1 (.acquire true), .move 0 .make, .move 1 .make,
    .move 1 (.execute true), .move 0 (.execute true), .take 1, .advance, .advance, .advance,
    .work (playerWork [(Counted.sampleFiles, servedControls)]) none, .advance, .advance,
    .take 0, .advance, .advance, .advance]

theorem sampleServed_ofServer : ∀ action ∈ sampleServed, action.OfServer := by
  simp [sampleServed, Action.OfServer]

theorem requests_served_in_turn_sample :
    ∃ s turns, ∃ order : List (Entry Nat (Body (Served Nat) (Answered Nat)) (Answered Nat)),
      run Threads.step
        { shared := ⟨Counted.sampleFiles, servedControls, .empty⟩ } sampleServed = some s ∧
      Counted.plainRun turns .empty = some (order.filterMap Entry.result, s.shared.ids) ∧
      ∃ c answer, s.calls[1]? = some c ∧ c.result = some answer ∧
        answer ∈ order.filterMap Entry.result := by
  obtain ⟨s, hs⟩ := Option.isSome_iff_exists.mp
    (show ((run Threads.step { shared := ⟨Counted.sampleFiles, servedControls, .empty⟩ }
        sampleServed).filter fun s => decide (s.main = none) && s.calls[1]?.any fun c =>
          decide c.task.Ran && c.result.isSome).isSome = true by decide +kernel)
  obtain ⟨hrun, hsample⟩ := Option.filter_eq_some_iff.mp hs
  obtain ⟨hmain, hsample⟩ := Bool.and_eq_true_iff.mp hsample
  obtain ⟨c, hc, hsample⟩ := Option.any_eq_true _ _ |>.mp hsample
  obtain ⟨hran, hresult⟩ := Bool.and_eq_true_iff.mp hsample
  obtain ⟨answer, hanswer⟩ := Option.isSome_iff_exists.mp hresult
  obtain ⟨order, base, turns, -, hturns, hbase, hcalls⟩ :=
    requests_served_in_turn (.of_run hrun sampleServed_ofServer)
  cases hbase (of_decide_eq_true hmain)
  exact ⟨s, turns, order, hrun, hturns, c, answer, hc, hanswer,
    List.mem_filterMap.mpr ⟨_, (hcalls 1 c hc).1 (of_decide_eq_true hran), hanswer⟩⟩

end Threads

end RemoteControl.MainThreadRunner
