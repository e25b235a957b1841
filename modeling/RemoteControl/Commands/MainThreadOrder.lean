import RemoteControl.Commands.MainThreadTasks

/-!
# The order of the main thread's tasks

The threads of `RunOnMainThread` and `PostToMainThread` against a thread that is handed work:
taking references, waiting and giving references back are no steps there.

* `tasks_run_whole`: where the player has its threads service, the functions run as if each
  were called once and in one go, between the call and its answer.
-/

namespace RemoteControl.MainThreadRunner

open Transition Linearizable SingleThread

variable {σ R : Type}

/-- No step of a function that runs in place. -/
def Action.Threaded : Action σ R → Prop
  | .inPlace _ => False
  | _ => True

instance (action : Action σ R) : Decidable action.Threaded := by
  cases action <;> unfold Action.Threaded <;> infer_instance

def CallerStage.isReturned : CallerStage σ R → Bool
  | .returned => true
  | _ => false

namespace Call

/-- The result is there as soon as the function has run, and known when its caller is back. -/
def stage (c : Call σ R) : SingleThread.Stage σ R :=
  match c.task with
  | .notGiven | .queued => .queued
  | .running rest => .running rest
  | .ran | .writes _ | .released =>
    if c.maker = .run ∧ c.caller.isReturned = false then .finished c.result
    else .returned c.result

def work (c : Call σ R) : Work σ R := ⟨c.fn, c.stage⟩

variable {c c' : Call σ R} {m : Move}

/-- Where a caller is on its way does not matter. -/
theorem work_caller {caller : CallerStage σ R} {object : Option FunctionTask}
    (h : caller.isReturned = c.caller.isReturned) :
    Call.work { c with caller, object } = c.work := by
  unfold work stage
  rw [← h]

theorem stage_of_ran (h : c.task.Ran) : c.stage =
    if c.maker = .run ∧ c.caller.isReturned = false then .finished c.result
    else .returned c.result := by
  obtain ⟨maker, fn, initial, result, caller, task, object⟩ := c
  cases task with
  | ran | writes | released => rfl
  | notGiven | queued | running => exact h.elim

theorem work_ran {task : TaskStage σ R} {object : Option FunctionTask} (h : c.task.Ran)
    (hnow : task.Ran) : Call.work { c with task, object } = c.work := by
  have hstage : Call.stage { c with task, object } = c.stage :=
    (stage_of_ran (c := { c with task, object }) hnow).trans (stage_of_ran h).symm
  exact congrArg (Work.mk c.fn) hstage

/-- Only who waits for a result learns it when the caller is back. -/
theorem work_returned (h : ¬ (c.maker = .run ∧ c.task.Ran)) :
    Call.work { c with caller := .returned } = c.work := by
  refine congrArg (Work.mk c.fn) ?_
  by_cases hran : c.task.Ran
  · have hmaker : c.maker ≠ .run := fun hmaker => h ⟨hmaker, hran⟩
    rw [stage_of_ran hran, stage_of_ran (c := { c with caller := .returned }) hran,
      if_neg fun hboth => hmaker hboth.1, if_neg fun hboth => hmaker hboth.1]
  · obtain ⟨maker, fn, initial, result, caller, task, object⟩ := c
    cases task with
    | notGiven | queued | running => rfl
    | ran | writes | released => exact absurd True.intro hran

theorem ran_ended (c : Call σ R) (result : R) : (c.ended result).task.Ran := by
  unfold ended
  split <;> trivial

theorem work_ended (result : R) : (c.ended result).work =
    ⟨c.fn, if c.maker = .run ∧ c.caller.isReturned = false then .finished result
      else .returned result⟩ := congrArg (Work.mk c.fn) (stage_of_ran (c.ran_ended result))

/-- No move of a call on its own changes what has become of its function. -/
theorem work_move (hinv : c.Inv) (h : c.move m = some c') : c'.work = c.work := by
  cases m with
  | acquire given =>
    simp only [move] at h
    split at h
    · next hcaller =>
      cases h
      exact work_caller (by rw [hcaller]; cases given <;> rfl)
    · cases h
  | make =>
    simp only [move] at h
    split at h
    · next hcaller =>
      cases h
      exact work_caller (hcaller ▸ rfl)
    · cases h
  | execute accepted =>
    simp only [move] at h
    split at h
    · next hcaller _ =>
      cases h
      cases accepted with
      | true =>
        have htask : c.task = .notGiven := hinv.before (by rw [hcaller]; trivial)
        simp only [work, stage, htask, if_true]
      | false => exact work_caller (hcaller ▸ rfl)
    · cases h
  | wake =>
    simp only [move] at h
    split at h
    · next hcaller =>
      split at h
      · cases h
        exact work_caller (hcaller ▸ rfl)
      · cases h
    · cases h
  | read holder | write holder =>
    cases holder with
    | caller =>
      simp only [move] at h
      split at h
      · next hcaller _ =>
        cases h
        exact work_caller (hcaller ▸ rfl)
      · cases h
    | player =>
      simp only [move] at h
      split at h
      · next htask _ =>
        cases h
        exact work_ran (htask ▸ trivial) trivial
      · cases h

theorem ran_iff (c : Call σ R) : c.task.Ran ↔ c.stage.Over := by
  constructor
  · intro h
    rw [stage_of_ran h]
    split <;> trivial
  · obtain ⟨maker, fn, initial, result, caller, task, object⟩ := c
    cases task with
    | ran | writes | released => exact fun _ => trivial
    | notGiven | queued | running => exact id

theorem ran_of_work (h : c'.work = c.work) : c'.task.Ran ↔ c.task.Ran := by
  have hstage : c'.stage = c.stage := congrArg Work.stage h
  rw [ran_iff, ran_iff, hstage]

theorem move_frame (h : c.move m = some c') : c'.result = c.result ∧ c'.initial = c.initial := by
  cases m with
  | execute accepted =>
    simp only [move] at h
    split at h
    · cases h
      cases accepted <;> exact ⟨rfl, rfl⟩
    · cases h
  | wake =>
    simp only [move] at h
    split at h
    · split at h
      · cases h
        exact ⟨rfl, rfl⟩
      · cases h
    · cases h
  | acquire | make =>
    simp only [move] at h
    split at h <;> cases h
    exact ⟨rfl, rfl⟩
  | read holder | write holder =>
    cases holder <;> (simp only [move] at h; split at h <;> cases h; exact ⟨rfl, rfl⟩)

/-- A function that has not run has not written its result. -/
def Unwritten (c : Call σ R) : Prop := ¬ c.task.Ran → c.result = c.initial

end Call

def Threads.view (s : Threads σ R) : SingleThread.System σ Nat R :=
  ⟨s.shared, fun id => s.calls[id]?.map Call.work, s.main, s.history⟩

namespace Threads

variable {s t : Threads σ R} {c c' : Call σ R} {id : Nat}

theorem works_set (hc : s.calls[id]? = some c) (c' : Call σ R) :
    (s.put id c').view.works = Function.update s.view.works id (some c'.work) := by
  funext i
  show (s.calls.set id c')[i]?.map Call.work = _
  obtain ⟨hlt, -⟩ := List.getElem?_eq_some_iff.mp hc
  by_cases hi : i = id
  · subst hi
    rw [List.getElem?_set_self hlt, Function.update_self, Option.map_some]
  · rw [List.getElem?_set_ne (Ne.symm hi), Function.update_of_ne hi]
    rfl

theorem view_put (hc : s.calls[id]? = some c) (c' : Call σ R) :
    (s.put id c').view = s.view.put id c'.work :=
  congrArg (fun works => SingleThread.System.mk s.shared works s.main s.history) (works_set hc c')

theorem view_put_same (hc : s.calls[id]? = some c) (hwork : c'.work = c.work) :
    (s.put id c').view = s.view := by
  have hsame : Function.update s.view.works id (some c'.work) = s.view.works := by
    refine Function.update_eq_self_iff.mpr ?_
    show some c'.work = s.calls[id]?.map Call.work
    rw [hc, hwork, Option.map_some]
  rw [view_put hc, System.put, hsame]

theorem view_main (main : Option Nat) :
    Threads.view { s with main } = { s.view with running := main } := rfl

theorem view_shared (shared : σ) :
    Threads.view { s with shared } = { s.view with shared } := rfl

theorem view_answer (id : Nat) (result : R) :
    (s.answer id result true).view =
      { s.view with history := s.history ++ [.respond id result] } := rfl

theorem answer_unknown (id : Nat) (result : R) : s.answer id result false = s := by
  show { s with history := s.history ++ [] } = s
  rw [List.append_nil]

theorem works_of_call (hc : s.calls[id]? = some c) : s.view.works id = some c.work := by
  show (s.calls[id]?).map Call.work = some c.work
  rw [hc, Option.map_some]

theorem works_new : s.view.works s.calls.length = none := by
  show (s.calls[s.calls.length]?).map Call.work = none
  rw [List.getElem?_eq_none (Nat.le_refl _), Option.map_none]

theorem view_push (c : Call σ R) :
    (s.push c).view =
      { s.view.put s.calls.length c.work with
        history := s.history ++ [.invoke s.calls.length c.fn] } := by
  have hworks : (s.push c).view.works =
      Function.update s.view.works s.calls.length (some c.work) := by
    funext i
    show (s.calls ++ [c])[i]?.map Call.work = _
    rcases Nat.lt_trichotomy i s.calls.length with hlt | rfl | hgt
    · rw [List.getElem?_append_left hlt, Function.update_of_ne (Nat.ne_of_lt hlt)]
      rfl
    · rw [List.getElem?_concat_length, Function.update_self, Option.map_some]
    · rw [List.getElem?_eq_none (by rw [List.length_append]; exact hgt),
        Function.update_of_ne (Nat.ne_of_gt hgt)]
      show none = (s.calls[i]?).map Call.work
      rw [List.getElem?_eq_none (Nat.le_of_lt hgt), Option.map_none]
  exact congrArg (fun works => SingleThread.System.mk s.shared works s.main
    (s.history ++ [.invoke s.calls.length c.fn])) hworks

theorem view_call (fn : Body σ R) (posted : Bool) (initial : R) :
    SingleThread.step s.view (.submit s.calls.length fn) =
      some (s.push { maker := if posted then .post else .run, fn, initial,
                     result := initial }).view := by
  rw [view_push]
  simp only [SingleThread.step, works_new]
  rfl

/-- The player's own work is begun as soon as it is there. -/
theorem view_work {fn : Body σ R} {initial : R} {shared : σ}
    (h : Reachable SingleThread.step (SingleThread.init shared) s.view) (hidle : s.main = none) :
    Reachable SingleThread.step (SingleThread.init shared)
      (Threads.view { s.push { maker := .player, fn, initial, result := initial,
                               caller := .returned, task := .running fn } with
        main := some s.calls.length }) := by
  have hsubmitted := h.tail (view_call fn false initial)
  rw [view_push] at hsubmitted
  have htaken := hsubmitted.tail (step_take hidle (put_self s.calls.length ⟨fn, .queued⟩))
  rw [view_main, view_push, ← put_put s.calls.length ⟨fn, .queued⟩]
  exact htaken

theorem view_step {action : Action σ R} {shared : σ} (hinv : s.Inv)
    (hthreaded : action.Threaded) (hst : s.step action = some t)
    (h : Reachable SingleThread.step (SingleThread.init shared) s.view) :
    Reachable SingleThread.step (SingleThread.init shared) t.view := by
  cases action with
  | call posted fn initial =>
    cases hst
    exact h.tail (view_call fn posted initial)
  | work fn initial =>
    obtain ⟨hidle, rfl⟩ := work_step hst
    exact view_work h hidle
  | move id move =>
    obtain ⟨c, c', hc, hmove, rfl⟩ := move_step hst
    rw [view_put_same hc (Call.work_move (hinv c (List.mem_of_getElem? hc)) hmove)]
    exact h
  | inPlace id => exact hthreaded.elim
  | take id =>
    obtain ⟨c, hc, hidle, htask, rfl⟩ := take_step hst
    have hw : s.view.works id = some ⟨c.fn, .queued⟩ := by
      rw [works_of_call hc, Call.work, Call.stage, htask]
    rw [view_main, view_put hc]
    exact h.tail (step_take hidle hw)
  | advance =>
    obtain ⟨id, c, hmain, hc, ⟨result, htask, rfl⟩ | ⟨change, next, htask, rfl⟩⟩ :=
      advance_step hst
    · have hcall := hinv c (List.mem_of_getElem? hc)
      have hw : s.view.works id = some ⟨c.fn, .running (.done result)⟩ := by
        rw [works_of_call hc, Call.work, Call.stage, htask]
      have hfinished := h.tail (step_finish hmain hw)
      by_cases hmaker : c.maker = .run
      · have hcaller : c.caller = .waits := hcall.waits hmaker (htask ▸ trivial)
        have hwork : (c.ended result).work = ⟨c.fn, .finished result⟩ := by
          rw [Call.work_ended, if_pos ⟨hmaker, hcaller ▸ rfl⟩]
        rw [decide_eq_false (not_not_intro hmaker), answer_unknown, view_main, view_put hc, hwork]
        exact hfinished
      · have hwork : (c.ended result).work = ⟨c.fn, .returned result⟩ := by
          rw [Call.work_ended, if_neg fun hboth => hmaker hboth.1]
        have hresponded := hfinished.tail (step_respond (put_self id ⟨c.fn, .finished result⟩))
        rw [decide_eq_true hmaker, view_answer, view_main, view_put hc, hwork,
          ← put_put id ⟨c.fn, .finished result⟩]
        exact hresponded
    · have hw : s.view.works id = some ⟨c.fn, .running (.step change next)⟩ := by
        rw [works_of_call hc, Call.work, Call.stage, htask]
      rw [view_shared, view_put hc]
      exact h.tail (SingleThread.step_advance hmain hw)
  | leave id =>
    obtain ⟨c, hc, hcaller, rfl⟩ := leave_step hst
    by_cases hwaited : c.maker = .run ∧ c.task.Ran
    · have hw : s.view.works id = some ⟨c.fn, .finished c.result⟩ := by
        rw [works_of_call hc, Call.work, Call.stage_of_ran hwaited.2,
          if_pos ⟨hwaited.1, hcaller ▸ rfl⟩]
      have hwork : Call.work { c with caller := .returned } = ⟨c.fn, .returned c.result⟩ := by
        rw [Call.work, Call.stage_of_ran (c := { c with caller := .returned }) hwaited.2,
          if_neg (by simp [CallerStage.isReturned])]
      rw [decide_eq_true hwaited, view_answer, view_put hc, hwork]
      exact h.tail (step_respond hw)
    · rw [decide_eq_false hwaited, answer_unknown, view_put_same hc (Call.work_returned hwaited)]
      exact h

/-! ## The order -/

theorem unwritten_step {action : Action σ R} (hinv : s.Inv) (h : ∀ c ∈ s.calls, c.Unwritten)
    (hthreaded : action.Threaded) (hst : s.step action = some t) :
    ∀ c ∈ t.calls, c.Unwritten := by
  cases action with
  | call posted fn initial =>
    cases hst
    exact forall_push h fun _ => rfl
  | work fn initial =>
    obtain ⟨-, rfl⟩ := work_step hst
    exact forall_push h fun _ => rfl
  | move id move =>
    obtain ⟨c, c', hc, hmove, rfl⟩ := move_step hst
    have hmem := List.mem_of_getElem? hc
    obtain ⟨hresult, hinitial⟩ := Call.move_frame hmove
    refine forall_put h fun hran => ?_
    rw [hresult, hinitial]
    exact h c hmem fun hbefore =>
      hran ((Call.ran_of_work (Call.work_move (hinv c hmem) hmove)).mpr hbefore)
  | inPlace id => exact hthreaded.elim
  | take id =>
    obtain ⟨c, hc, hidle, htask, rfl⟩ := take_step hst
    exact forall_put h fun _ => h c (List.mem_of_getElem? hc) (htask ▸ False.elim)
  | advance =>
    obtain ⟨id, c, hmain, hc, ⟨result, htask, rfl⟩ | ⟨change, next, htask, rfl⟩⟩ :=
      advance_step hst
    · exact forall_put h fun hran => absurd (c.ran_ended result) hran
    · exact forall_put h fun _ => h c (List.mem_of_getElem? hc) (htask ▸ False.elim)
  | leave id =>
    obtain ⟨c, hc, hcaller, rfl⟩ := leave_step hst
    exact forall_put h fun hran => h c (List.mem_of_getElem? hc) hran

theorem serial_of_reachable {shared : σ}
    (h : ReachableBy Threads.step (fun _ action => action.Threaded) ({ shared } : Threads σ R) s) :
    s.Inv ∧ (∀ c ∈ s.calls, c.Unwritten) ∧ ∃ order base, Serial shared s.view order base := by
  obtain ⟨hinv, hunwritten, hview⟩ : s.Inv ∧ (∀ c ∈ s.calls, c.Unwritten) ∧
      Reachable SingleThread.step (SingleThread.init shared) s.view := by
    refine h.invariant (I := fun s => s.Inv ∧ (∀ c ∈ s.calls, c.Unwritten) ∧
        Reachable SingleThread.step (SingleThread.init shared) s.view)
      ⟨fun _ hc => (nomatch hc), fun _ hc => (nomatch hc), .refl⟩ ?_
    rintro s action t ⟨hinv, hunwritten, hview⟩ hthreaded hst
    exact ⟨hinv.step hst, unwritten_step hinv hunwritten hthreaded hst,
      view_step hinv hthreaded hst hview⟩
  exact ⟨hinv, hunwritten, Serial.of_reachable hview⟩

/-- A function that has run is in the order, with the result that is there. -/
theorem mem_order {shared base : σ} {order : List (Entry Nat (Body σ R) R)}
    (h : Serial shared s.view order base) (hc : s.calls[id]? = some c) (hran : c.task.Ran) :
    ⟨id, c.fn, c.result⟩ ∈ order := by
  have hw := works_of_call hc
  rw [Call.work, Call.stage_of_ran hran] at hw
  split at hw
  · exact h.finished hw
  · exact h.returned id c.fn c.result hw

/-- Where no function has to run in place, in every interleaving: the functions that have run
are those of an order in which each is called once and in one go, with what the player does of
its own between them; it respects real time, and gives the results and the state that are
there. A function that has not run leaves its result as it was, and one of `RunOnMainThread`
that may still run has a caller who waits for it. -/
theorem tasks_run_whole {shared : σ}
    (h : ReachableBy Threads.step (fun _ action => action.Threaded) ({ shared } : Threads σ R) s) :
    ∃ order base, Linearization (object σ R) shared s.history base order ∧
      (s.main = none → base = s.shared) ∧
      ∀ id c, s.calls[id]? = some c →
        (c.task.Ran → ⟨id, c.fn, c.result⟩ ∈ order) ∧
        (¬ c.task.Ran → c.result = c.initial ∧ ∀ e ∈ order, e.id ≠ id) ∧
        (c.maker = .run → c.task.Pending → c.caller = .waits) := by
  obtain ⟨hinv, hunwritten, order, base, hserial⟩ := serial_of_reachable h
  refine ⟨order, base, hserial.inv.toLinearization, hserial.base_eq, fun id c hc => ?_⟩
  have hmem := List.mem_of_getElem? hc
  refine ⟨mem_order hserial hc, fun hran => ⟨hunwritten c hmem hran, ?_⟩, (hinv c hmem).waits⟩
  exact hserial.not_mem (works_of_call hc) fun hover => hran ((Call.ran_iff c).mpr hover)

/-- The second call's task runs first, and then the player does something of its own. -/
def sampleOrder : List (Action Nat Nat) :=
  [.call false (.step (· * 2) fun n => .done (n * 2)) 0,
    .call false (.step (· + 1) fun _ => .step (· + 1) fun n => .done (n + 1)) 0,
    .move 0 (.acquire true), .move 1 (.acquire true), .move 0 .make, .move 1 .make,
    .move 1 (.execute true), .move 0 (.execute true), .take 1, .advance, .advance, .advance,
    .work (.step (· * 10) fun n => .done n) 0, .advance, .advance, .take 0, .advance, .advance,
    .move 0 .wake, .move 0 (.read .caller), .move 0 (.write .caller), .move 0 (.read .player),
    .move 0 (.write .player), .leave 0]

theorem tasks_run_whole_sample :
    ∃ s c order, run (guarded Threads.step fun _ action => action.Threaded)
        ({ shared := 5 } : Threads Nat Nat) sampleOrder = some s ∧ s.calls[0]? = some c ∧
      c.result = 140 ∧ Linearization (object Nat Nat) 5 s.history s.shared order ∧
      ⟨0, c.fn, c.result⟩ ∈ order := by
  obtain ⟨s, hs⟩ := Option.isSome_iff_exists.mp
    (show ((run (guarded Threads.step fun _ action => action.Threaded)
        ({ shared := 5 } : Threads Nat Nat) sampleOrder).filter fun s =>
      decide (s.main = none) && s.calls[0]?.any fun c =>
        decide (c.result = 140 ∧ c.task.Ran)).isSome = true by decide +kernel)
  obtain ⟨hrun, hsample⟩ := Option.filter_eq_some_iff.mp hs
  obtain ⟨hmain, hsample⟩ := Bool.and_eq_true_iff.mp hsample
  obtain ⟨c, hc, hsample⟩ := Option.any_eq_true _ _ |>.mp hsample
  obtain ⟨hresult, hran⟩ := of_decide_eq_true hsample
  obtain ⟨order, base, horder, hbase, hcalls⟩ := tasks_run_whole (.of_guarded ⟨_, hrun⟩)
  cases hbase (of_decide_eq_true hmain)
  exact ⟨s, c, order, hrun, hc, hresult, horder, (hcalls 0 c hc).1 hran⟩

end Threads

end RemoteControl.MainThreadRunner
