import RemoteControl.Commands.Scheduler
import RemoteControl.Timer.Safety

/-!
# Delays of the sleep timer

A delay goes from the request through a `double` and `llround` to whole seconds, is added to
the clock in 64-bit nanoseconds, and what is left is read back as a `double` of seconds. Nothing
bounds it from above.

* `deadlineAfter_exact_iff`: the deadline is exact while it fits in 64 bits.
* `lround_round_div`: the nanoseconds a `double` holds give the same whole seconds.
* `delay_honoured_iff`: a delay is honoured exactly when its nanoseconds fit in the 53 bits of a
  `double` and its deadline in 64.
-/

namespace RemoteControl.TimerDelays

open Transition SchedulerCommand SleepTimer

/-! ## The accepted delays -/

/-- An accepted delay given as an integer is positive, and set as it is if a `double` holds it. -/
theorem delay_of_accepted {supported : List Bytes} {features : FeatureSettings} {params : Json}
    {action : Bytes} {delay n : Int}
    (hparams : params.member (ascii "expiration_delay") = some (.int n))
    (haccepts : scheduler supported features params = .ok (.set action delay)) :
    0 < n ∧ delay = castInt 64 (lround (Binary64.round n)) := by
  have hnumber : params.number (ascii "expiration_delay") = some (Binary64.round n) := by
    rw [Json.number, hparams]
  unfold scheduler checkPermission at haccepts
  split at haccepts
  · change decode supported params = _ at haccepts
    unfold decode at haccepts
    rw [hnumber] at haccepts
    split at haccepts
    · cases haccepts
    · split at haccepts
      · cases haccepts
      · dsimp only at haccepts
        split at haccepts
        · cases haccepts
        · split at haccepts
          · cases haccepts
          · next hpositive =>
            cases haccepts
            refine ⟨?_, rfl⟩
            by_contra hn
            exact hpositive (Binary64.round_nonpos (Int.cast_nonpos.2 (not_lt.1 hn)))
  · cases haccepts

theorem castInt_lround_round {n : Int} (hpositive : 0 < n) (hn : n < 2 ^ 53) :
    castInt 64 (lround (Binary64.round n)) = n := by
  rw [Binary64.round_intCast (abs_lt.2 ⟨by omega, hn⟩), lround_intCast]
  exact castInt_of_lt hpositive.le (by omega)

/-! ## The deadline -/

theorem deadlineAfter_exact_iff {now delay : Int} (hnow : -2 ^ 63 ≤ now) (hdelay : 0 < delay) :
    deadlineAfter now delay = now + delay * 10 ^ 9 ↔ now + delay * 10 ^ 9 < 2 ^ 63 := by
  constructor
  · intro h
    have hlt : deadlineAfter now delay < 2 ^ 63 := Int.bmod_lt (by decide)
    rwa [h] at hlt
  · intro h
    refine Int.bmod_eq_of_le ?_ h
    show -2 ^ 63 ≤ now + delay * 10 ^ 9
    omega

/-! ## The seconds left -/

/-- The remaining time, rounded to whole seconds. -/
def secondsLeft (deadline moment : Int) : Int := lround (((deadline - moment : Int) : Rat) / 10 ^ 9)

/-- No time of that many nanoseconds is nearer than one to a half second, but the half itself. -/
theorem lround_round_div {r : Int} (hr : 0 ≤ r) (hsmall : r < 2 ^ 53) :
    lround (Binary64.round (r / 10 ^ 9)) = lround ((r : Rat) / 10 ^ 9) := by
  have hx : 0 ≤ (r : Rat) / 10 ^ 9 := div_nonneg (Int.cast_nonneg hr) (by norm_num)
  obtain hzero | hne := eq_or_ne ((r : Rat) / 10 ^ 9) 0
  · rw [hzero, Binary64.round_zero]
  · have hbound : |(r : Rat) / 10 ^ 9| < 2 ^ (24 : Int) := by
      have hcast : (r : Rat) < 2 ^ 53 := by exact_mod_cast hsmall
      rw [abs_of_nonneg hx, div_lt_iff₀ (by norm_num)]
      exact hcast.trans (by norm_num)
    have hulp : Binary64.ulp ((r : Rat) / 10 ^ 9) ≤ 2 ^ (-29 : Int) :=
      (Binary64.ulp_le hne hbound).trans_eq (by norm_num)
    -- the error is less than a nanosecond
    have herror : |Binary64.round ((r : Rat) / 10 ^ 9) - r / 10 ^ 9| < 1 / 10 ^ 9 := by
      refine (Binary64.abs_round_sub_le _).trans_lt ?_
      have hlt : (2 : Rat) ^ (-29 : Int) / 2 < 1 / 10 ^ 9 := by norm_num
      linarith
    obtain ⟨k, hk⟩ : ∃ k, lround ((r : Rat) / 10 ^ 9) = k := ⟨_, rfl⟩
    rw [hk]
    rw [lround_eq_floor hx, Int.floor_eq_iff] at hk
    rw [lround_eq_floor (Binary64.round_nonneg hx), Int.floor_eq_iff]
    obtain ⟨hlow, hhigh⟩ := abs_lt.1 herror
    have hscaled : (r : Rat) / 10 ^ 9 * 10 ^ 9 = r := div_mul_cancel₀ _ (by norm_num)
    have habove : r + 1 ≤ (2 * k + 1) * 500000000 := by
      have hlt : (r : Rat) < (2 * k + 1) * 500000000 := by linarith [hk.2]
      exact_mod_cast hlt
    have habove' : (r : Rat) + 1 ≤ (2 * k + 1) * 500000000 := by exact_mod_cast habove
    refine ⟨?_, by linarith⟩
    have hbelow : (2 * k - 1) * 500000000 ≤ r := by
      have hle : (2 * k - 1 : Rat) * 500000000 ≤ r := by linarith [hk.1]
      exact_mod_cast hle
    obtain hhalf | hbelow := hbelow.eq_or_lt
    · -- a half second is a double
      have hdyadic : (r : Rat) / 10 ^ 9 = ((2 * k - 1 : Int) : Rat) * 2 ^ (-1 : Int) := by
        rw [← hhalf]
        push_cast
        norm_num
        ring
      rw [hdyadic, Binary64.round_dyadic _ (abs_lt.2 ⟨by omega, by omega⟩), ← hdyadic]
      exact hk.1
    · have hbelow' : (2 * k - 1 : Rat) * 500000000 + 1 ≤ r := by exact_mod_cast hbelow
      linarith

/-- `expires_in` is the seconds left, while a `double` holds their nanoseconds. -/
theorem expiresInSeconds_eq {timer : SleepTimer} {moment : Int}
    (hafter : moment ≤ timer.deadline) (hsmall : timer.deadline - moment < 2 ^ 53) :
    expiresInSeconds timer moment = secondsLeft timer.deadline moment := by
  have hnonneg : 0 ≤ timer.deadline - moment := by omega
  have hquotient : (0 : Rat) ≤ ((timer.deadline - moment : Int) : Rat) / 10 ^ 9 :=
    div_nonneg (Int.cast_nonneg hnonneg) (by norm_num)
  have hseconds : secondsLeft timer.deadline moment ≤ 2 ^ 24 := by
    refine lround_le hquotient ?_
    have hcast : ((timer.deadline - moment : Int) : Rat) < 2 ^ 53 := by exact_mod_cast hsmall
    rw [div_le_iff₀ (by norm_num)]
    exact hcast.le.trans (by norm_num)
  have hpositive : 0 ≤ secondsLeft timer.deadline moment := lround_nonneg hquotient
  unfold expiresInSeconds
  rw [Int.bmod_eq_of_le (by omega) (by omega)]
  dsimp only
  rw [Binary64.round_intCast (abs_lt.2 ⟨by omega, hsmall⟩), lround_round_div hnonneg hsmall]
  show castInt 32 (max 0 (secondsLeft timer.deadline moment)) = _
  rw [max_eq_right hpositive]
  exact castInt_of_lt hpositive (by omega)

/-- 104 days less one nanosecond are read as one second more. -/
theorem expiresInSeconds_late {timer : SleepTimer} {moment : Int}
    (hmoment : moment = timer.deadline - 9007199499999999) :
    expiresInSeconds timer moment ≠ secondsLeft timer.deadline moment := by
  have hleft : timer.deadline - moment = 9007199499999999 := by omega
  unfold expiresInSeconds secondsLeft
  rw [hleft]
  decide +kernel

/-! ## Commits -/

/-- Below its notifications, a log has one latest `Set`. -/
theorem latest_unique {action action' : Bytes} {deadline deadline' : Int} {id : Nat}
    {between older : List Event} (hbetween : ∀ e ∈ between, e.IsNotified)
    (h : Latest action' deadline' (between ++ .set id action deadline :: older)) :
    deadline' = deadline := by
  obtain ⟨notes, id', older', heq, hnotes⟩ := h
  induction between generalizing notes with
  | nil =>
    cases notes with
    | nil =>
      cases heq
      rfl
    | cons e notes =>
      obtain ⟨rfl, -⟩ := List.cons_eq_cons.1 heq
      exact (hnotes _ List.mem_cons_self).elim
  | cons e between ih =>
    cases notes with
    | nil =>
      obtain ⟨rfl, -⟩ := List.cons_eq_cons.1 heq
      exact (hbetween _ List.mem_cons_self).elim
    | cons e' notes =>
      obtain ⟨-, htail⟩ := List.cons_eq_cons.1 heq
      exact ih (fun e he => hbetween e (List.mem_cons_of_mem _ he)) notes htail
        fun e he => hnotes e (List.mem_cons_of_mem _ he)

/-- The worker has committed at `time` to the `Set` that is the newest event of `log`. -/
def CommitsTo (log : List Event) (s : SleepTimer.System) (time : Int) : Prop :=
  ∃ later id action between, s.log = later ++ .commit id action time :: (between ++ log) ∧
    ∀ e ∈ between, e.IsNotified

/-- From whatever state it is called in, a `Set` is committed to at its deadline or later. -/
theorem commitsTo_due {start : Int} {action : Bytes} {delay time : Int}
    {s s' t : SleepTimer.System} (hreach : Reachable SleepTimer.System.step { now := start } s)
    (hset : s.step (.set action delay) = some s')
    (hlater : Reachable SleepTimer.System.step s' t) (hcommit : CommitsTo s'.log t time) :
    deadlineAfter s.now delay ≤ time := by
  have hjustified : Justified t := by
    have hstart : Justified { now := start } :=
      ⟨fun hactive => (by cases hactive), init_justified.commits⟩
    have hs' : Justified s' := (hreach.tail hset).invariant hstart step_justified
    exact hlater.invariant hs' step_justified
  obtain ⟨later, id, action', between, hlog, hbetween⟩ := hcommit
  obtain ⟨deadline, hdue, hlatest⟩ := hjustified.commits later id action' time _ hlog
  cases hset
  exact latest_unique hbetween hlatest ▸ hdue

/-! ## Honoured delays -/

/-- What a `Set` from `s` to `s'` owes its caller. -/
structure Honoured (s s' : SleepTimer.System) (delay : Int) : Prop where
  deadline : s'.timer.deadline = s.now + delay * 10 ^ 9
  commits : ∀ t time, Reachable SleepTimer.System.step s' t → CommitsTo s'.log t time →
    s.now + delay * 10 ^ 9 ≤ time
  expiresIn : ∀ moment, s.now ≤ moment → moment < s.now + delay * 10 ^ 9 →
    expiresInSeconds s'.timer moment = secondsLeft (s.now + delay * 10 ^ 9) moment

/-- **A delay is honoured when its nanoseconds fit in 53 bits and its deadline in 64, and only
then.** -/
theorem delay_honoured_iff {supported : List Bytes} {features : FeatureSettings} {params : Json}
    {action : Bytes} {delay n start : Int} {s s' : SleepTimer.System}
    (hparams : params.member (ascii "expiration_delay") = some (.int n))
    (haccepts : scheduler supported features params = .ok (.set action delay))
    (hreach : Reachable SleepTimer.System.step { now := start } s) (hclock : -2 ^ 63 ≤ s.now)
    (hset : (TimerCall.set action delay).run s = some s') :
    Honoured s s' n ↔ n * 10 ^ 9 < 2 ^ 53 ∧ s.now + n * 10 ^ 9 < 2 ^ 63 := by
  obtain ⟨hpositive, hdelay⟩ := delay_of_accepted hparams haccepts
  have hstored : s'.timer.deadline = deadlineAfter s.now delay := by
    cases hset
    rfl
  constructor
  · intro h
    refine ⟨?_, ?_⟩
    · by_contra hlarge
      have hlate := h.expiresIn (s.now + n * 10 ^ 9 - 9007199499999999) (by omega) (by omega)
      rw [← h.deadline] at hlate
      exact expiresInSeconds_late rfl hlate
    · rw [← h.deadline, hstored]
      exact Int.bmod_lt (by decide)
  · intro ⟨hsmall, hfits⟩
    obtain rfl : delay = n := hdelay.trans (castInt_lround_round hpositive (by omega))
    have hexact := (deadlineAfter_exact_iff hclock hpositive).2 hfits
    have hdeadline := hstored.trans hexact
    refine ⟨hdeadline, fun t time hlater hcommit => ?_, fun moment hafter hbefore => ?_⟩
    · exact hexact ▸ commitsTo_due hreach hset hlater hcommit
    · rw [← hdeadline]
      exact expiresInSeconds_eq (by omega) (by omega)

/-- A request for a shutdown. -/
def shutdownIn (seconds : Int) : Json :=
  .obj [(ascii "action", .str (ascii "machine_shutdown")), (ascii "expiration_delay", .int seconds)]

/-- Asked to shut the machine down in 292 years, the worker does it now. -/
theorem shutdown_in_292_years :
    scheduler [ascii "machine_shutdown"] { scheduler := true } (shutdownIn 9223372037) =
        .ok (.set (ascii "machine_shutdown") 9223372037) ∧
      ∃ s s' t, run SleepTimer.System.step { now := 0 } [.acquire] = some s ∧
        (TimerCall.set (ascii "machine_shutdown") 9223372037).run s = some s' ∧
        run SleepTimer.System.step s' [.wake, .timeout] = some t ∧ CommitsTo s'.log t 0 ∧
        ¬Honoured s s' 9223372037 := by
  refine ⟨by decide +kernel, _, _, _, rfl, rfl, rfl,
    ⟨[], 1, ascii "machine_shutdown", [], rfl, fun e he => by cases he⟩, fun h => ?_⟩
  have hlate := h.commits _ 0 ⟨[.wake, .timeout], rfl⟩
    ⟨[], 1, ascii "machine_shutdown", [], rfl, fun e he => by cases he⟩
  exact absurd hlate (by decide)

theorem shutdown_in_a_minute :
    ∃ s', (TimerCall.set (ascii "machine_shutdown") 60).run { now := -5 } = some s' ∧
      Honoured { now := -5 } s' 60 :=
  ⟨_, rfl, (delay_honoured_iff
    (show (shutdownIn 60).member (ascii "expiration_delay") = some (.int 60) from rfl)
    (show scheduler [ascii "machine_shutdown"] { scheduler := true } (shutdownIn 60) = _ by
      decide +kernel)
    Reachable.refl (by decide) rfl).2 ⟨by decide, by decide⟩⟩

end RemoteControl.TimerDelays
