import RemoteControl.Lib.SingleThread
import RemoteControl.Lib.UnlockedCount

/-!
# The tasks of the main thread

`RunOnMainThread` and `PostToMainThread` call by call: any number of threads make a task, give
it to `ExecuteInMainThread` and give their references back, while the main thread takes the
tasks one at a time, in any order, and does work of its own between them. `IUnknownImpl` counts
the references to a task in a plain field, so a `Release` reads the counter in one step and
writes it in another.

The player is one that takes a reference to each task it accepts, runs each task it has queued
once and gives its reference back once, after `Execute`.

* `tasks_freed_once`: nobody uses a task that is deleted, none is deleted twice, and one that
  is done with is deleted unless the two `Release`s overlapped.
-/

namespace RemoteControl.MainThreadRunner

open Transition Linearizable SingleThread

/-- Who has a function run on the main thread. -/
inductive Maker
  /-- `RunOnMainThread`, which waits. -/
  | run
  /-- `PostToMainThread`. -/
  | post
  /-- The player, with work of its own. -/
  | player
deriving DecidableEq

/-- Where the thread of a call is. -/
inductive CallerStage (σ R : Type)
  /-- Before `AcquireThreadsService`. -/
  | acquires
  /-- Without the service, at `fn()`. -/
  | inPlace (rest : Body σ R)
  | makes
  | executes
  /-- In `ExecuteInMainThread`. -/
  | waits
  /-- Before `task->Release()`. -/
  | releases
  /-- In `task->Release()`, with what it has read. -/
  | writes (counter : Nat)
  | releasesService
  | returned

/-- What the player does with a task. -/
inductive TaskStage (σ R : Type)
  | notGiven
  | queued
  | running (rest : Body σ R)
  /-- `Execute` is over, the player's reference is still to be given back. -/
  | ran
  | writes (counter : Nat)
  | released

structure FunctionTask where
  counter : Nat
  /-- Whether one `Release` has read the counter while another was to write it. -/
  overlapped : Bool := false
  /-- How often it came to `delete this`. -/
  deletions : Nat := 0
deriving DecidableEq

structure Call (σ R : Type) where
  maker : Maker
  fn : Body σ R
  /-- What `R result{}` gives. -/
  initial : R
  /-- The variable that the task writes. -/
  result : R
  caller : CallerStage σ R := .acquires
  task : TaskStage σ R := .notGiven
  object : Option FunctionTask := none

structure Threads (σ R : Type) where
  shared : σ
  calls : List (Call σ R) := []
  /-- The call whose function the main thread runs. -/
  main : Option Nat := none
  history : List (Event Nat (Body σ R) R) := []

/-- The two sides that hold a task. -/
inductive Holder
  | caller
  | player
deriving DecidableEq

/-- A step of one call that nobody else sees. -/
inductive Move
  /-- `AcquireThreadsService`: whether there is one. -/
  | acquire (given : Bool)
  /-- `new FunctionTask` and `AddRef`. -/
  | make
  /-- `ExecuteInMainThread`: whether the player takes the task, with a reference of its own. -/
  | execute (accepted : Bool)
  /-- `ExecuteInMainThread` answers. -/
  | wake
  /-- The first half of `Release`. -/
  | read (holder : Holder)
  | write (holder : Holder)

inductive Action (σ R : Type)
  | call (posted : Bool) (fn : Body σ R) (initial : R)
  /-- The player begins work of its own. -/
  | work (fn : Body σ R) (initial : R)
  | move (id : Nat) (move : Move)
  /-- A step of a function that runs in place. -/
  | inPlace (id : Nat)
  /-- The main thread takes a task. -/
  | take (id : Nat)
  /-- The next step of what the main thread runs. -/
  | advance
  /-- `svc->Release()`, and back to the caller. -/
  | leave (id : Nat)

variable {σ R : Type}

namespace TaskStage

/-- The player still has the task to run. -/
def Pending : TaskStage σ R → Prop
  | .queued | .running _ => True
  | _ => False

def Ran : TaskStage σ R → Prop
  | .ran | .writes _ | .released => True
  | _ => False

instance (task : TaskStage σ R) : Decidable task.Pending := by
  cases task <;> unfold Pending <;> infer_instance

instance (task : TaskStage σ R) : Decidable task.Ran := by
  cases task <;> unfold Ran <;> infer_instance

def isWriting : TaskStage σ R → Bool
  | .writes _ => true
  | _ => false

end TaskStage

def CallerStage.isWriting : CallerStage σ R → Bool
  | .writes _ => true
  | _ => false

/-! ## Release -/

namespace FunctionTask

def addRef (object : FunctionTask) : FunctionTask := { object with counter := object.counter + 1 }

/-- The counter is read, while the other side may be about to write it. -/
def read (object : FunctionTask) (otherWrites : Bool) : FunctionTask :=
  { object with overlapped := object.overlapped || otherWrites }

/-- What was read is written, less one. -/
def write (object : FunctionTask) (counter : Nat) : FunctionTask :=
  { object with
    counter := counter - 1
    deletions := object.deletions + if counter - 1 = 0 then 1 else 0 }

end FunctionTask

namespace Call

/-- `ExecuteInMainThread` may answer; with `AIMP_SERVICE_THREADS_FLAGS_WAITFOR` not before the
task has run. -/
def CanWake (c : Call σ R) : Prop := c.maker = .run → ¬ c.task.Pending

instance (c : Call σ R) : Decidable c.CanWake := inferInstanceAs (Decidable (_ → ¬ _))

def move (c : Call σ R) : Move → Option (Call σ R)
  | .acquire given =>
    match c.caller with
    | .acquires => some { c with caller := if given then .makes else .inPlace c.fn }
    | _ => none
  | .make =>
    match c.caller with
    | .makes =>
      some { c with caller := .executes, object := some (FunctionTask.addRef ⟨0, false, 0⟩) }
    | _ => none
  | .execute accepted =>
    match c.caller, c.object with
    | .executes, some object =>
      some (if accepted then
        { c with caller := .waits, task := .queued, object := some object.addRef }
      else { c with caller := .waits })
    | _, _ => none
  | .wake =>
    match c.caller with
    | .waits => if c.CanWake then some { c with caller := .releases } else none
    | _ => none
  | .read .caller =>
    match c.caller, c.object with
    | .releases, some object =>
      some { c with
        caller := .writes object.counter
        object := some (object.read c.task.isWriting) }
    | _, _ => none
  | .read .player =>
    match c.task, c.object with
    | .ran, some object =>
      some { c with
        task := .writes object.counter
        object := some (object.read c.caller.isWriting) }
    | _, _ => none
  | .write .caller =>
    match c.caller, c.object with
    | .writes counter, some object =>
      some { c with caller := .releasesService, object := some (object.write counter) }
    | _, _ => none
  | .write .player =>
    match c.task, c.object with
    | .writes counter, some object =>
      some { c with task := .released, object := some (object.write counter) }
    | _, _ => none

/-- The function has ended: only what was made of a task has a reference to give back. -/
def ended (c : Call σ R) (result : R) : Call σ R :=
  { c with result, task := if c.maker = .player then .released else .ran }

end Call

namespace Threads

def put (s : Threads σ R) (id : Nat) (c : Call σ R) : Threads σ R :=
  { s with calls := s.calls.set id c }

def push (s : Threads σ R) (c : Call σ R) : Threads σ R :=
  { s with calls := s.calls ++ [c], history := s.history ++ [.invoke s.calls.length c.fn] }

/-- The answer of a call is known: its caller has it, or nobody waits for it. -/
def answer (s : Threads σ R) (id : Nat) (result : R) (known : Bool) : Threads σ R :=
  { s with history := s.history ++ if known then [.respond id result] else [] }

def step (s : Threads σ R) : Action σ R → Option (Threads σ R)
  | .call posted fn initial =>
    some (s.push { maker := if posted then .post else .run, fn, initial, result := initial })
  | .work fn initial =>
    if s.main = none then
      some { s.push { maker := .player, fn, initial, result := initial, caller := .returned,
                      task := .running fn } with main := some s.calls.length }
    else none
  | .move id move => do
    let c ← s.calls[id]?
    let c ← c.move move
    pure (s.put id c)
  | .inPlace id => do
    let c ← s.calls[id]?
    match c.caller with
    | .inPlace (.done result) => some (s.put id { c with caller := .returned, result })
    | .inPlace (.step change next) =>
      some { s.put id { c with caller := .inPlace (next s.shared) } with shared := change s.shared }
    | _ => none
  | .take id => do
    let c ← s.calls[id]?
    match s.main, c.task with
    | none, .queued => some { s.put id { c with task := .running c.fn } with main := some id }
    | _, _ => none
  | .advance => do
    let id ← s.main
    let c ← s.calls[id]?
    match c.task with
    | .running (.done result) =>
      some ({ s.put id (c.ended result) with main := none }.answer id result
        (decide (c.maker ≠ Maker.run)))
    | .running (.step change next) =>
      some { s.put id { c with task := .running (next s.shared) } with shared := change s.shared }
    | _ => none
  | .leave id => do
    let c ← s.calls[id]?
    match c.caller with
    | .releasesService =>
      some ((s.put id { c with caller := .returned }).answer id c.result
        (decide (c.maker = Maker.run ∧ c.task.Ran)))
    | _ => none

end Threads

/-! ## The references to a task -/

namespace CallerStage

/-- The caller has not given the task away yet. -/
def Before : CallerStage σ R → Prop
  | .acquires | .inPlace _ | .makes | .executes => True
  | _ => False

/-- The caller still needs the task. -/
def Uses : CallerStage σ R → Prop
  | .executes | .waits | .releases | .writes _ => True
  | _ => False

def holding : CallerStage σ R → Nat
  | .executes | .waits | .releases => 1
  | _ => 0

def reading : CallerStage σ R → Multiset Nat
  | .writes counter => {counter}
  | _ => 0

end CallerStage

namespace TaskStage

/-- The player still needs the task. -/
def Uses : TaskStage σ R → Prop
  | .queued | .running _ | .ran | .writes _ => True
  | _ => False

def holding : TaskStage σ R → Nat
  | .queued | .running _ | .ran => 1
  | _ => 0

def reading : TaskStage σ R → Multiset Nat
  | .writes counter => {counter}
  | _ => 0

end TaskStage

instance (caller : CallerStage σ R) : Decidable caller.Uses := by
  cases caller <;> unfold CallerStage.Uses <;> infer_instance

instance (task : TaskStage σ R) : Decidable task.Uses := by
  cases task <;> unfold TaskStage.Uses <;> infer_instance

theorem CallerStage.isWriting_eq (caller : CallerStage σ R) :
    caller.isWriting = decide (0 < caller.reading.card) := by
  cases caller <;> rfl

theorem TaskStage.isWriting_eq (task : TaskStage σ R) :
    task.isWriting = decide (0 < task.reading.card) := by
  cases task <;> rfl

namespace Call

/-- Somebody still needs the task. -/
def InUse (c : Call σ R) : Prop := c.caller.Uses ∨ c.task.Uses

instance (c : Call σ R) : Decidable c.InUse := inferInstanceAs (Decidable (_ ∨ _))

/-- The two sides of a task, as threads that share a counter. -/
def count (c : Call σ R) (object : FunctionTask) : UnlockedCount.Count where
  counter := object.counter
  holding := c.caller.holding + c.task.holding
  read := c.caller.reading + c.task.reading
  overlapped := object.overlapped
  deletions := object.deletions

theorem users_pos_iff (c : Call σ R) (object : FunctionTask) :
    0 < (c.count object).users ↔ c.InUse := by
  have hcaller : 0 < c.caller.holding + c.caller.reading.card ↔ c.caller.Uses := by
    cases c.caller <;> simp [CallerStage.holding, CallerStage.reading, CallerStage.Uses]
  have htask : 0 < c.task.holding + c.task.reading.card ↔ c.task.Uses := by
    cases c.task <;> simp [TaskStage.holding, TaskStage.reading, TaskStage.Uses]
  rw [InUse, ← hcaller, ← htask]
  simp only [UnlockedCount.Count.users, count, Multiset.card_add]
  omega

structure Inv (c : Call σ R) : Prop where
  counted : ∀ object ∈ c.object, (c.count object).Inv
  before : c.caller.Before → c.task = .notGiven
  /-- The variables that a task refers to are there as long as it may run. -/
  waits : c.maker = .run → c.task.Pending → c.caller = .waits
  own : c.maker = .player → c.caller = .returned ∧ c.object = none

variable {c c' : Call σ R} {object : FunctionTask} {counter : Nat}

/-- The player's own work has no thread that waits for it. -/
theorem Inv.own_of_ne (h : c.Inv) (hcaller : c.caller ≠ .returned) {p : Prop}
    (hmaker : c.maker = .player) : p := absurd (h.own hmaker).1 hcaller

/-- A step of the caller that has nothing to do with its reference. -/
theorem Inv.next {caller : CallerStage σ R} (h : c.Inv)
    (hholding : caller.holding = c.caller.holding) (hreading : caller.reading = c.caller.reading)
    (hbefore : caller.Before → c.caller.Before)
    (hwaits : c.maker = .run → c.task.Pending → caller = .waits) (hown : c.caller ≠ .returned) :
    Inv { c with caller } where
  counted object hobject := by
    have hcount : Call.count { c with caller } object = c.count object := by
      simp only [count, hholding, hreading]
    rw [hcount]
    exact h.counted object hobject
  before hbefore' := h.before (hbefore hbefore')
  waits := hwaits
  own := h.own_of_ne hown

theorem Inv.make (h : c.Inv) (hcaller : c.caller = .makes) :
    Inv { c with caller := .executes, object := some (FunctionTask.addRef ⟨0, false, 0⟩) } where
  counted object hobject := by
    cases hobject
    have htask : c.task = .notGiven := h.before (by rw [hcaller]; trivial)
    have hcount : Call.count { c with caller := .executes } (FunctionTask.addRef ⟨0, false, 0⟩) =
        .first := by
      simp only [count, htask]
      rfl
    exact hcount ▸ UnlockedCount.Count.Inv.first
  before _ := h.before (by rw [hcaller]; trivial)
  waits _ hpending := by
    have htask : c.task = .notGiven := h.before (by rw [hcaller]; trivial)
    rw [htask] at hpending
    exact hpending.elim
  own := h.own_of_ne (hcaller ▸ nofun)

/-- The player takes its reference while it has the task from the caller alone. -/
theorem Inv.accept (h : c.Inv) (hcaller : c.caller = .executes) (hobject : c.object = some object) :
    Inv { c with caller := .waits, task := .queued, object := some object.addRef } where
  counted := by
    rintro _ ⟨⟩
    have htask : c.task = .notGiven := h.before (by rw [hcaller]; trivial)
    have hcount : Call.count { c with caller := .waits, task := .queued } object.addRef =
        (c.count object).share := by
      simp only [count, hcaller, htask]
      rfl
    refine hcount ▸ (h.counted object hobject).share ?_ ?_
    · simp only [count, hcaller, CallerStage.holding]
      omega
    · simp only [count, hcaller, htask]
      rfl
  before hbefore := hbefore.elim
  waits _ _ := rfl
  own := h.own_of_ne (hcaller ▸ nofun)

theorem Inv.callerReads (h : c.Inv) (hcaller : c.caller = .releases)
    (hobject : c.object = some object) :
    Inv { c with caller := .writes object.counter, object := some (object.read c.task.isWriting) }
    where
  counted := by
    rintro _ ⟨⟩
    have hcount : Call.count { c with caller := .writes object.counter }
        (object.read c.task.isWriting) = (c.count object).load := by
      simp [count, UnlockedCount.Count.load, FunctionTask.read, hcaller, CallerStage.holding,
        CallerStage.reading, TaskStage.isWriting_eq]
    refine hcount ▸ (h.counted object hobject).load ?_
    simp only [count, hcaller, CallerStage.holding]
    omega
  before hbefore := hbefore.elim
  waits hmaker hpending := nomatch hcaller.symm.trans (h.waits hmaker hpending)
  own := h.own_of_ne (hcaller ▸ nofun)

theorem Inv.playerReads (h : c.Inv) (htask : c.task = .ran) (hobject : c.object = some object) :
    Inv { c with task := .writes object.counter, object := some (object.read c.caller.isWriting) }
    where
  counted := by
    rintro _ ⟨⟩
    have hcount : Call.count { c with task := .writes object.counter }
        (object.read c.caller.isWriting) = (c.count object).load := by
      simp [count, UnlockedCount.Count.load, FunctionTask.read, htask, TaskStage.holding,
        TaskStage.reading, CallerStage.isWriting_eq, Multiset.add_comm _ {object.counter}]
    refine hcount ▸ (h.counted object hobject).load ?_
    simp only [count, htask, TaskStage.holding]
    omega
  before hbefore := nomatch htask.symm.trans (h.before hbefore)
  waits _ hpending := hpending.elim
  own hmaker := nomatch hobject.symm.trans (h.own hmaker).2

theorem Inv.callerWrites (h : c.Inv) (hcaller : c.caller = .writes counter)
    (hobject : c.object = some object) :
    Inv { c with caller := .releasesService, object := some (object.write counter) } where
  counted := by
    rintro _ ⟨⟩
    have hcount : Call.count { c with caller := .releasesService } (object.write counter) =
        (c.count object).store counter := by
      simp [count, UnlockedCount.Count.store, FunctionTask.write, hcaller, CallerStage.holding,
        CallerStage.reading]
    refine hcount ▸ (h.counted object hobject).store ?_
    simp [count, hcaller, CallerStage.reading]
  before hbefore := hbefore.elim
  waits hmaker hpending := nomatch hcaller.symm.trans (h.waits hmaker hpending)
  own := h.own_of_ne (hcaller ▸ nofun)

theorem Inv.playerWrites (h : c.Inv) (htask : c.task = .writes counter)
    (hobject : c.object = some object) :
    Inv { c with task := .released, object := some (object.write counter) } where
  counted := by
    rintro _ ⟨⟩
    have hcount : Call.count { c with task := .released } (object.write counter) =
        (c.count object).store counter := by
      simp [count, UnlockedCount.Count.store, FunctionTask.write, htask, TaskStage.holding,
        TaskStage.reading, Multiset.add_comm _ {counter}]
    refine hcount ▸ (h.counted object hobject).store ?_
    simp [count, htask, TaskStage.reading]
  before hbefore := nomatch htask.symm.trans (h.before hbefore)
  waits _ hpending := hpending.elim
  own hmaker := nomatch hobject.symm.trans (h.own hmaker).2

theorem Inv.move {m : Move} (h : c.Inv) (hmove : c.move m = some c') : c'.Inv := by
  cases m with
  | acquire given =>
    simp only [Call.move] at hmove
    split at hmove
    · next hcaller =>
      cases hmove
      have htask : c.task = .notGiven := h.before (by rw [hcaller]; trivial)
      have hpending : ¬ c.task.Pending := by
        rw [htask]
        exact id
      refine h.next ?_ ?_ (fun _ => by rw [hcaller]; trivial)
        (fun _ hp => absurd hp hpending) (hcaller ▸ nofun)
      · rw [hcaller]
        cases given <;> rfl
      · rw [hcaller]
        cases given <;> rfl
    · cases hmove
  | make =>
    simp only [Call.move] at hmove
    split at hmove
    · next hcaller =>
      cases hmove
      exact h.make hcaller
    · cases hmove
  | execute accepted =>
    simp only [Call.move] at hmove
    split at hmove
    · next object hcaller hobject =>
      cases hmove
      cases accepted with
      | true => exact h.accept hcaller hobject
      | false =>
        exact h.next (hcaller ▸ rfl) (hcaller ▸ rfl) False.elim (fun _ _ => rfl) (hcaller ▸ nofun)
    · cases hmove
  | wake =>
    simp only [Call.move] at hmove
    split at hmove
    · next hcaller =>
      split at hmove
      · next hcan =>
        cases hmove
        exact h.next (hcaller ▸ rfl) (hcaller ▸ rfl) False.elim
          (fun hmaker hpending => absurd hpending (hcan hmaker)) (hcaller ▸ nofun)
      · cases hmove
    · cases hmove
  | read holder =>
    cases holder with
    | caller =>
      simp only [Call.move] at hmove
      split at hmove
      · next object hcaller hobject =>
        cases hmove
        exact h.callerReads hcaller hobject
      · cases hmove
    | player =>
      simp only [Call.move] at hmove
      split at hmove
      · next object htask hobject =>
        cases hmove
        exact h.playerReads htask hobject
      · cases hmove
  | write holder =>
    cases holder with
    | caller =>
      simp only [Call.move] at hmove
      split at hmove
      · next counter object hcaller hobject =>
        cases hmove
        exact h.callerWrites hcaller hobject
      · cases hmove
    | player =>
      simp only [Call.move] at hmove
      split at hmove
      · next counter object htask hobject =>
        cases hmove
        exact h.playerWrites htask hobject
      · cases hmove

theorem Inv.result (h : c.Inv) (result : R) : Inv { c with result } :=
  ⟨h.counted, h.before, h.waits, h.own⟩

/-- A step of the main thread with the function of a call. -/
theorem Inv.runs {task : TaskStage σ R} (h : c.Inv) (hpending : c.task.Pending)
    (hnow : task.Pending) : Inv { c with task } where
  counted object hobject := by
    have hholding (task : TaskStage σ R) (hp : task.Pending) :
        task.holding = 1 ∧ task.reading = 0 := by
      cases task with
      | queued | running => exact ⟨rfl, rfl⟩
      | notGiven | ran | writes | released => exact hp.elim
    have hcount : Call.count { c with task } object = c.count object := by
      simp only [count, hholding _ hpending, hholding _ hnow]
    rw [hcount]
    exact h.counted object hobject
  before hbefore := by
    rw [h.before hbefore] at hpending
    exact hpending.elim
  waits hmaker _ := h.waits hmaker hpending
  own := h.own

theorem Inv.ended {result : R} {rest : Body σ R} (h : c.Inv) (htask : c.task = .running rest) :
    (c.ended result).Inv := by
  have hbefore : ¬ c.caller.Before := fun hbefore => nomatch htask.symm.trans (h.before hbefore)
  unfold Call.ended
  split
  · next hmaker =>
    have hobject := (h.own hmaker).2
    exact ⟨fun object hsome => (nomatch hobject.symm.trans hsome), fun hb => absurd hb hbefore,
      fun hrun => (nomatch hmaker.symm.trans hrun), h.own⟩
  · refine ⟨fun object hobject => ?_, fun hb => absurd hb hbefore, fun _ hp => hp.elim, h.own⟩
    have hcount : Call.count { c with result, task := .ran } object = c.count object := by
      simp only [count, htask]
      rfl
    rw [hcount]
    exact h.counted object hobject

end Call

namespace Threads

variable {s t : Threads σ R} {c c' : Call σ R} {id : Nat}

theorem work_step {fn : Body σ R} {initial : R} (h : s.step (.work fn initial) = some t) :
    s.main = none ∧
      t = { s.push { maker := .player, fn, initial, result := initial, caller := .returned,
                     task := .running fn } with main := some s.calls.length } := by
  simp only [Threads.step] at h
  split at h
  · next hidle =>
    cases h
    exact ⟨hidle, rfl⟩
  · cases h

theorem move_step {m : Move} (h : s.step (.move id m) = some t) :
    ∃ c c', s.calls[id]? = some c ∧ c.move m = some c' ∧ t = s.put id c' := by
  obtain ⟨c, hc, h⟩ := Option.bind_eq_some_iff.mp h
  obtain ⟨c', hmove, h⟩ := Option.bind_eq_some_iff.mp h
  cases h
  exact ⟨c, c', hc, hmove, rfl⟩

theorem inPlace_step (h : s.step (.inPlace id) = some t) :
    ∃ c, s.calls[id]? = some c ∧
      ((∃ result, c.caller = .inPlace (.done result) ∧
          t = s.put id { c with caller := .returned, result }) ∨
        ∃ change next, c.caller = .inPlace (.step change next) ∧
          t = { s.put id { c with caller := .inPlace (next s.shared) } with
            shared := change s.shared }) := by
  obtain ⟨c, hc, h⟩ := Option.bind_eq_some_iff.mp h
  refine ⟨c, hc, ?_⟩
  split at h
  · next result hcaller =>
    cases h
    exact .inl ⟨result, hcaller, rfl⟩
  · next change next hcaller =>
    cases h
    exact .inr ⟨change, next, hcaller, rfl⟩
  · cases h

theorem take_step (h : s.step (.take id) = some t) :
    ∃ c, s.calls[id]? = some c ∧ s.main = none ∧ c.task = .queued ∧
      t = { s.put id { c with task := .running c.fn } with main := some id } := by
  obtain ⟨c, hc, h⟩ := Option.bind_eq_some_iff.mp h
  split at h
  · next hidle htask =>
    cases h
    exact ⟨c, hc, hidle, htask, rfl⟩
  · cases h

theorem advance_step (h : s.step .advance = some t) :
    ∃ id c, s.main = some id ∧ s.calls[id]? = some c ∧
      ((∃ result, c.task = .running (.done result) ∧
          t = { s.put id (c.ended result) with main := none }.answer id result
            (decide (c.maker ≠ Maker.run))) ∨
        ∃ change next, c.task = .running (.step change next) ∧
          t = { s.put id { c with task := .running (next s.shared) } with
            shared := change s.shared }) := by
  obtain ⟨id, hmain, h⟩ := Option.bind_eq_some_iff.mp h
  obtain ⟨c, hc, h⟩ := Option.bind_eq_some_iff.mp h
  refine ⟨id, c, hmain, hc, ?_⟩
  split at h
  · next result htask =>
    cases h
    exact .inl ⟨result, htask, rfl⟩
  · next change next htask =>
    cases h
    exact .inr ⟨change, next, htask, rfl⟩
  · cases h

theorem leave_step (h : s.step (.leave id) = some t) :
    ∃ c, s.calls[id]? = some c ∧ c.caller = .releasesService ∧
      t = (s.put id { c with caller := .returned }).answer id c.result
        (decide (c.maker = Maker.run ∧ c.task.Ran)) := by
  obtain ⟨c, hc, h⟩ := Option.bind_eq_some_iff.mp h
  split at h
  · next hcaller =>
    cases h
    exact ⟨c, hc, hcaller, rfl⟩
  · cases h

section EveryCall

variable {P : Call σ R → Prop}

theorem forall_put (h : ∀ c ∈ s.calls, P c) (hc : P c) : ∀ c' ∈ (s.put id c).calls, P c' := by
  intro c' hc'
  rcases List.mem_or_eq_of_mem_set hc' with hc' | rfl
  · exact h c' hc'
  · exact hc

theorem forall_push (h : ∀ c ∈ s.calls, P c) (hc : P c) : ∀ c' ∈ (s.push c).calls, P c' := by
  intro c' hc'
  rcases List.mem_append.mp hc' with hc' | hc'
  · exact h c' hc'
  · cases List.mem_singleton.mp hc'
    exact hc

end EveryCall

def Inv (s : Threads σ R) : Prop := ∀ c ∈ s.calls, c.Inv

theorem Inv.step {action : Action σ R} (h : s.Inv) (hst : s.step action = some t) : t.Inv := by
  cases action with
  | call posted fn initial =>
    cases hst
    refine forall_push h
      { counted := nofun, before := fun _ => rfl, waits := fun _ hp => hp.elim, own := ?_ }
    intro hmaker
    cases posted <;> cases hmaker
  | work fn initial =>
    obtain ⟨-, rfl⟩ := work_step hst
    exact forall_push h ⟨nofun, False.elim, nofun, fun _ => ⟨rfl, rfl⟩⟩
  | move id move =>
    obtain ⟨c, c', hc, hmove, rfl⟩ := move_step hst
    exact forall_put h ((h c (List.mem_of_getElem? hc)).move hmove)
  | inPlace id =>
    obtain ⟨c, hc, ⟨result, hcaller, rfl⟩ | ⟨change, next, hcaller, rfl⟩⟩ := inPlace_step hst
    all_goals
      have hinv := h c (List.mem_of_getElem? hc)
      have hwaits (caller : CallerStage σ R) (hmaker : c.maker = .run) (hp : c.task.Pending) :
          caller = .waits := nomatch hcaller.symm.trans (hinv.waits hmaker hp)
    · have hnext : Call.Inv { c with caller := .returned } :=
        hinv.next (hcaller ▸ rfl) (hcaller ▸ rfl) False.elim (hwaits _) (hcaller ▸ nofun)
      exact forall_put h (hnext.result result)
    · exact forall_put h (hinv.next (hcaller ▸ rfl) (hcaller ▸ rfl)
        (fun _ => by rw [hcaller]; trivial) (hwaits _) (hcaller ▸ nofun))
  | take id =>
    obtain ⟨c, hc, hidle, htask, rfl⟩ := take_step hst
    exact forall_put h ((h c (List.mem_of_getElem? hc)).runs (htask ▸ trivial) trivial)
  | advance =>
    obtain ⟨id, c, hmain, hc, ⟨result, htask, rfl⟩ | ⟨change, next, htask, rfl⟩⟩ :=
      advance_step hst
    · exact forall_put h ((h c (List.mem_of_getElem? hc)).ended htask)
    · exact forall_put h ((h c (List.mem_of_getElem? hc)).runs (htask ▸ trivial) trivial)
  | leave id =>
    obtain ⟨c, hc, hcaller, rfl⟩ := leave_step hst
    have hinv := h c (List.mem_of_getElem? hc)
    refine forall_put h (hinv.next (hcaller ▸ rfl) (hcaller ▸ rfl) False.elim
      (fun hmaker hp => ?_) (hcaller ▸ nofun))
    exact nomatch hcaller.symm.trans (hinv.waits hmaker hp)

theorem Inv.of_reachable {shared : σ}
    (h : Reachable Threads.step ({ shared } : Threads σ R) s) : s.Inv :=
  h.invariant (I := Inv) (fun _ hc => nomatch hc) Inv.step

/-- In every interleaving, the player taking one reference in `ExecuteInMainThread`, giving it
back once after `Execute` and dropping no task it has queued: whoever still needs a task finds
it there, it is deleted at most once, and when nobody needs it any more it is deleted exactly
if its two `Release`s have not overlapped. -/
theorem tasks_freed_once {shared : σ} (h : Reachable Threads.step ({ shared } : Threads σ R) s)
    (hc : c ∈ s.calls) {object : FunctionTask} (hobject : c.object = some object) :
    (c.InUse → object.deletions = 0) ∧ object.deletions ≤ 1 ∧
      (¬ c.InUse → (object.deletions = 1 ↔ object.overlapped = false)) := by
  have hcount := (Inv.of_reachable h c hc).counted object hobject
  refine ⟨fun huse => hcount.there (c.users_pos_iff object |>.mpr huse),
    hcount.deletions_le_one, fun hnot => hcount.deleted_iff ?_⟩
  exact Nat.eq_zero_of_not_pos fun hpos => hnot (c.users_pos_iff object |>.mp hpos)

/-- The caller and the player read the counter before either of them has written it. -/
def sampleOverlap : List (Action Nat Nat) :=
  [.call false (.step (· + 1) fun n => .done n) 0, .move 0 (.acquire true), .move 0 .make,
    .move 0 (.execute true), .take 0, .advance, .advance, .move 0 .wake, .move 0 (.read .caller),
    .move 0 (.read .player), .move 0 (.write .player), .move 0 (.write .caller), .leave 0]

/-- The task is lost. -/
theorem tasks_freed_once_sample :
    ∃ s c object, run Threads.step ({ shared := 5 } : Threads Nat Nat) sampleOverlap = some s ∧
      s.calls[0]? = some c ∧ c.object = some object ∧ object.counter = 1 ∧
      object.deletions ≠ 1 := by
  obtain ⟨s, hs⟩ := Option.isSome_iff_exists.mp
    (show ((run Threads.step ({ shared := 5 } : Threads Nat Nat) sampleOverlap).filter fun s =>
      s.calls[0]?.any fun c => decide (¬ c.InUse) && c.object.any fun object =>
        decide (object.counter = 1 ∧ object.overlapped = true)).isSome = true by decide +kernel)
  obtain ⟨hrun, hsample⟩ := Option.filter_eq_some_iff.mp hs
  obtain ⟨c, hc, hsample⟩ := Option.any_eq_true _ _ |>.mp hsample
  obtain ⟨hnot, hsample⟩ := Bool.and_eq_true_iff.mp hsample
  obtain ⟨object, hobject, hsample⟩ := Option.any_eq_true _ _ |>.mp hsample
  obtain ⟨hcounter, hoverlapped⟩ := of_decide_eq_true hsample
  obtain ⟨-, -, hdeleted⟩ := tasks_freed_once ⟨_, hrun⟩ (List.mem_of_getElem? hc) hobject
  refine ⟨s, c, object, hrun, hc, hobject, hcounter, fun hone => ?_⟩
  exact nomatch hoverlapped.symm.trans ((hdeleted (of_decide_eq_true hnot)).mp hone)

end Threads

end RemoteControl.MainThreadRunner
