import RemoteControl.Aimp.Controls
import RemoteControl.Aimp.Find
import RemoteControl.Std.Json

/-!
# Running a task on the main thread

`RunOnMainThread` with what `ExecuteInMainThread` may do, and the calls a task makes
that change the player. A command's outcome is its reply together with these calls.
-/

namespace RemoteControl

variable {ι α : Type}

/-- The calls that change the player; a playlist is named by its id in the player. -/
inductive Operation (ι : Type)
  | setName (aimpPlaylistId : Bytes) (name : Bytes)
  | addList (aimpPlaylistId : Bytes) (files : List Bytes)
  | close (aimpPlaylistId : Bytes)
  | enqueue (item : ι) (atBeginning : Bool)
  | dequeue (item : ι)
  | delete (aimpPlaylistId : Bytes) (item : ι)
  /-- `Delete3` with `DeleteOnlyIndex` for this index. -/
  | delete3 (aimpPlaylistId : Bytes) (index : Int)
  | play2 (item : ι)
  | setMark (item : ι) (rating : Rat)
  | setPlayingSwitch (item : ι) (value : Int)
  /-- `AIMP_MSG_PROPVALUE_SET` through the dispatcher. -/
  | setProperty (property : DispatcherProperty) (hiWord : Nat) (value : Rat)
  | goToNext
  | goToPrev
  /-- `SetValueAsInt32(AIMP_PLAYLIST_PROPID_FOCUSINDEX, index)`. -/
  | setFocusIndex (aimpPlaylistId : Bytes) (index : Int)
deriving DecidableEq

structure Call (ι : Type) where
  operation : Operation ι
  answer : HRESULT
deriving DecidableEq

/-- What becomes of a task. -/
inductive Scheduling
  /-- There is no `IAIMPServiceThreads`: the function is called in place. -/
  | noService
  /-- `ExecuteInMainThread` has run the task when it answers. -/
  | executed (answer : HRESULT)
  /-- It answers without having run the task. -/
  | refused (answer : HRESULT)

/-- The task of a `RunOnMainThread` is run, there or in place. -/
def Scheduling.Runs : Scheduling → Prop
  | .noService | .executed _ => True
  | .refused _ => False

/-- The player and the ids as a task finds them, and what becomes of the task. -/
structure Moment (ι : Type) where
  core : Core ι
  idManager : RemoteControlIdManager
  scheduling : Scheduling

/-- The body of a task: its result and the calls it makes. -/
abbrev Task (ι α : Type) := Core ι → RemoteControlIdManager → α × List (Call ι)

structure TaskResult (ι α : Type) where
  value : α
  ran : Bool
  calls : List (Call ι)

/-- `RunOnMainThread`: `initial` is the value-initialised `R result{}`, and what
`ExecuteInMainThread` answers is not looked at. -/
def runOnMainThread (initial : α) (moment : Moment ι) (task : Task ι α) : TaskResult ι α :=
  match moment.scheduling with
  | .noService | .executed _ =>
    let (value, calls) := task moment.core moment.idManager
    ⟨value, true, calls⟩
  | .refused _ => ⟨initial, false, []⟩

/-! ## Replies -/

/-- What an RPC method throws: an `RpcError`, or an exception of the JSON library. -/
inductive Failure
  | rpcError (code : Int) (message : Bytes)
  | typeError
deriving DecidableEq

/-- The reply of a method, or the status of an upload. -/
inductive Reply
  | rpc (result : Except Failure Json)
  | http (status : Int)

def Reply.IsSuccess : Reply → Prop
  | .rpc (.ok _) => True
  | .rpc (.error _) => False
  | .http status => status = 200

/-- The reply, whether the task that does the work ran, and the calls it made. -/
structure Outcome (ι : Type) where
  reply : Reply
  ran : Bool := false
  calls : List (Call ι) := []

/-- Success is reported only for work that was done: the task ran, and the one call it
made was answered with success. -/
def Outcome.Honest (outcome : Outcome ι) : Prop :=
  outcome.reply.IsSuccess →
    outcome.ran = true ∧ ∃ call, outcome.calls = [call] ∧ succeeded call.answer = true

end RemoteControl
