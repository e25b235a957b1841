import RemoteControl.Commands.ControlPanel
import RemoteControl.Commands.Mutations
import RemoteControl.Settings.Config
import RemoteControl.Timer.SleepTimer

/-!
# Scheduler

The command behind the sleep timer: it looks at the permission, then at its parameters, calls
the timer and answers with the timer's state. The actions the system supports are a parameter.
-/

namespace RemoteControl.SchedulerCommand

/-- `IsTrue`. -/
def isTrue : Json → Bool
  | .bool b => b
  | .str s => s = ascii "true"
  | _ => false

/-- What a request asks of the timer. -/
inductive TimerCall
  | read
  | cancel
  | set (action : Bytes) (delay : Int)
deriving DecidableEq

def checkPermission (features : FeatureSettings) : Except Failure Unit :=
  if features.scheduler then .ok () else .error (rpcError (-1) "Scheduler service unavailable")

/-- A delay is rounded to seconds, which `std::chrono::seconds` holds in 64 bits. -/
def decode (supported : List Bytes) (params : Json) : Except Failure TimerCall :=
  if (params.member (ascii "cancel")).any isTrue then .ok .cancel
  else if (params.member (ascii "action")).isNone then .ok .read
  else
    let action := (params.string (ascii "action")).getD []
    if action ∉ supported then
      .error (.rpcError (-32602) (ascii "unsupported action: " ++ action))
    else
      match params.number (ascii "expiration_delay") with
      | none => .error (invalidParams "expiration_delay is required")
      | some seconds =>
        if seconds ≤ 0 then .error (invalidParams "expiration_delay must be positive")
        else .ok (.set action (castInt 64 (lround seconds)))

/-- The handler, up to its call of the timer. -/
def scheduler (supported : List Bytes) (features : FeatureSettings) (params : Json) :
    Except Failure TimerCall := do
  checkPermission features
  decode supported params

/-- The call itself. -/
def TimerCall.run (timer : SleepTimer.System) : TimerCall → Option SleepTimer.System
  | .read => some timer
  | .cancel => timer.step .cancel
  | .set action delay => timer.step (.set action delay)

/-- `ExpiresInSeconds` of an active timer: 64-bit nanoseconds, divided as a `double`. -/
def expiresInSeconds (timer : SleepTimer) (now : Int) : Int :=
  let nanoseconds := (timer.deadline - now).bmod (2 ^ 64)
  let left := Binary64.round (Binary64.round nanoseconds / 10 ^ 9)
  castInt 32 (max 0 (lround left))

/-- The reply, from the timer's state after the call. -/
def reply (supported : List Bytes) (timer : SleepTimer) (now : Int) : Json :=
  .obj ((ascii "supported_actions", .arr (supported.map Json.str)) ::
    if timer.active then
      [(ascii "current_timer", .obj [(ascii "actions", .arr [.str timer.action]),
        (ascii "expires_in", .int (expiresInSeconds timer now))])]
    else [])

end RemoteControl.SchedulerCommand
