import RemoteControl.Timer.SleepTimer

/-!
# Initialize and Finalize, again and again

One `AIMPPlugin` object through any number of cycles, with the requests and the
watcher's passes in between. The members live as long as the object and keep what
their `Stop` does not reset: the network watcher its handlers, which belong to the
servers of the cycle they were subscribed in, and the sleep timer a setting made after
its `Stop` by a request that was still running.

The timer is fresh in every cycle that finds none left over. The handlers are never
cleared: from the second cycle on, the watcher's first call is to a server that was
destroyed (`cycles_fresh`). `second_cycle_stale` is a run with both defects.
-/

namespace RemoteControl.Cycles

open Transition

/-- A subscriber of the network watcher; it captures the server object of its cycle. -/
inductive Handler
  | discovery (cycle : Nat)
  | server (cycle : Nat)
deriving DecidableEq

def Handler.cycle : Handler → Nat
  | discovery cycle | server cycle => cycle

/-- A call of the watcher. -/
structure Invocation where
  handler : Handler
  /-- The cycle it is made in. -/
  cycle : Nat
  /-- Whether the handler's object exists. -/
  alive : Bool
deriving DecidableEq

/-- The watcher thread. -/
inductive Watcher
  | exited
  | waiting (retry : Bool)
  /-- In a pass, with the handlers still to be called. -/
  | calling (todo : List Handler) (retry : Bool)
deriving DecidableEq

def Watcher.todo : Watcher → List Handler
  | .calling todo _ => todo
  | .exited | .waiting _ => []

/-- The main thread, by what it does next. -/
inductive Main
  | stopped
  -- in `Initialize`
  | startingTimer
  | startingDiscovery
  | creatingServer
  | startingWatcher
  | running
  -- in `Finalize`
  | joiningWatcher
  | stoppingTimer
  | joiningTimer
  | stoppingServer
  | stoppingDiscovery
deriving DecidableEq

structure System where
  main : Main := .stopped
  /-- The number of `Initialize` calls that got past their checks. -/
  cycle : Nat := 0
  /-- `FHandlers`. -/
  handlers : List Handler := []
  watcher : Watcher := .exited
  watcherStopping : Bool := false
  refreshRequested : Bool := false
  /-- The cycles whose server objects exist. -/
  discovery : Option Nat := none
  server : Option Nat := none
  timer : SleepTimer.System := { worker := .exited, timer := { events := false } }
  /-- The cycle of the last `Set`. -/
  setIn : Nat := 0
  /-- The request handlers of the server that have not returned. -/
  requests : Nat := 0
  /-- The handlers the watcher invoked. -/
  invoked : List Invocation := []
  /-- The cycles in which an executed action was set and executed. -/
  executed : List (Nat × Nat) := []

inductive Action
  /-- `Initialize`; the services may be missing, or the options frame refused. -/
  | enterInitialize (accepted : Bool)
  | enterFinalize
  /-- The main thread's next step in either. -/
  | advance
  | refresh
  | beginPass
  /-- The watcher calls its next handler. -/
  | invoke (answer : Bool)
  | endPass
  | watcherExit
  | request
  | respond
  /-- `Set` or `Cancel` by a running request, the clock, or the timer's thread. -/
  | timer (action : SleepTimer.Action)

namespace System

def alive (s : System) : Handler → Bool
  | .discovery cycle => s.discovery = some cycle
  | .server cycle => s.server = some cycle

/-- `SleepTimer::Start`. -/
def startTimer (timer : SleepTimer.System) : SleepTimer.System :=
  { timer with
    timer.stopped := false
    timer.events := true
    worker := .acquiring }

def advance (s : System) : Option System :=
  match s.main with
  | .stopped | .running => none
  | .startingTimer => some { s with main := .startingDiscovery, timer := startTimer s.timer }
  | .startingDiscovery => some { s with
      main := .creatingServer
      discovery := some s.cycle
      handlers := s.handlers ++ [.discovery s.cycle] }
  | .creatingServer => some { s with
      main := .startingWatcher
      server := some s.cycle
      handlers := s.handlers ++ [.server s.cycle] }
  | .startingWatcher => some { s with
      main := .running
      watcher := .waiting false
      watcherStopping := false
      refreshRequested := true }
  | .joiningWatcher =>
    match s.watcher with
    | .exited => some { s with main := .stoppingTimer }
    | _ => none
  | .stoppingTimer => (s.timer.step .stop).map fun timer => { s with main := .joiningTimer, timer }
  | .joiningTimer =>
    (s.timer.step .stopJoined).map fun timer => { s with main := .stoppingServer, timer }
  | .stoppingServer =>
    -- the server's `Stop` joins the threads of its requests
    if s.requests = 0 then some { s with main := .stoppingDiscovery, server := none } else none
  | .stoppingDiscovery => some { s with main := .stopped, discovery := none }

/-- A step of the timer, with the cycles of its `Set` and of the action it commits to. -/
def stepTimer (s : System) (action : SleepTimer.Action) : Option System :=
  (s.timer.step action).map fun timer =>
    match action with
    | .set _ _ => { s with timer, setIn := s.cycle }
    | .timeout => { s with
        timer
        executed :=
          if s.timer.log.length < timer.log.length then (s.setIn, s.cycle) :: s.executed
          else s.executed }
    | _ => { s with timer }

def step (s : System) : Action → Option System
  | .enterInitialize accepted =>
    match s.main with
    | .stopped =>
      some (if accepted then { s with main := .startingTimer, cycle := s.cycle + 1 } else s)
    | _ => none
  | .enterFinalize =>
    match s.main with
    | .running => some { s with main := .joiningWatcher, watcherStopping := true }
    | _ => none
  | .advance => s.advance
  | .refresh => some { s with refreshRequested := true }
  | .beginPass =>
    match s.watcher with
    | .waiting retry =>
      if s.watcherStopping = false ∧ (s.refreshRequested ∨ retry) then some { s with
        watcher := .calling s.handlers false
        refreshRequested := false }
      else none
    | _ => none
  | .invoke answer =>
    match s.watcher with
    | .calling (handler :: todo) retry => some { s with
        watcher := .calling todo (retry || !answer)
        invoked := ⟨handler, s.cycle, s.alive handler⟩ :: s.invoked }
    | _ => none
  | .endPass =>
    match s.watcher with
    | .calling [] retry => some { s with watcher := .waiting retry }
    | _ => none
  | .watcherExit =>
    match s.watcher with
    | .waiting _ => if s.watcherStopping then some { s with watcher := .exited } else none
    | _ => none
  | .request => if s.server.isSome then some { s with requests := s.requests + 1 } else none
  | .respond => if 0 < s.requests then some { s with requests := s.requests - 1 } else none
  | .timer action =>
    match action with
    | .set _ _ | .cancel => if 0 < s.requests then s.stepTimer action else none
    -- these are the main thread's, in `Finalize`
    | .stop | .stopJoined => none
    | _ => s.stepTimer action

/-- A set timer was set in the present cycle, and so was every action when it was
executed. -/
structure TimerFresh (s : System) : Prop where
  active : s.timer.timer.active = true → s.setIn = s.cycle
  executed : ∀ entry ∈ s.executed, entry.1 = entry.2

/-- Every handler the watcher invoked belonged to a live server. -/
def CallsTheLiving (s : System) : Prop := ∀ call ∈ s.invoked, call.alive = true

/-- `Initialize` finds no timer left over. -/
def FindsNoTimer (s : System) : Action → Prop
  | .enterInitialize true => s.timer.timer.active = false
  | _ => True

instance decidableFindsNoTimer (s : System) (a : Action) : Decidable (s.FindsNoTimer a) := by
  unfold FindsNoTimer
  split <;> infer_instance

end System

/-! ## The timer -/

section Timer

variable {timer timer' : SleepTimer.System}

/-- Only `Set` makes the timer active. -/
theorem active_of_step {action : SleepTimer.Action} (hst : timer.step action = some timer')
    (hactive : timer'.timer.active = true) :
    (∃ name delay, action = .set name delay) ∨ timer.timer.active = true := by
  cases action with
  | set name delay => exact .inl ⟨name, delay, rfl⟩
  | cancel =>
    cases hst
    cases hactive
  | callerNotify id =>
    simp only [SleepTimer.System.step] at hst
    split at hst <;> cases hst
    exact .inr hactive
  | stop =>
    simp only [SleepTimer.System.step] at hst
    split at hst <;> cases hst
    cases hactive
  | tick =>
    cases hst
    exact .inr hactive
  | wake =>
    simp only [SleepTimer.System.step] at hst
    split at hst
    · split at hst
      · cases hst
        exact .inr hactive
      · cases hst
        exact .inr hactive
    · split at hst
      · cases hst
        exact .inr hactive
      · cases hst
        exact .inr hactive
    · cases hst
  | timeout =>
    simp only [SleepTimer.System.step] at hst
    split at hst
    · split at hst <;> cases hst
      · exact .inr hactive
      · unfold SleepTimer.System.expire at hactive
        split at hactive
        · exact .inr hactive
        · cases hactive
    · cases hst
  | stopJoined | acquire | executeDone | workerNotify =>
    simp only [SleepTimer.System.step] at hst
    split at hst <;> cases hst
    exact .inr hactive

/-- The timer's thread commits to an action only while the timer is active. -/
theorem active_of_commit (hst : timer.step .timeout = some timer')
    (hcommit : timer.log.length < timer'.log.length) : timer.timer.active = true := by
  simp only [SleepTimer.System.step] at hst
  split at hst
  · split at hst <;> cases hst
    · exact absurd hcommit (Nat.lt_irrefl _)
    · next hpredicate =>
      rw [SleepTimer.deadlinePredicate, Bool.not_eq_true, Bool.or_eq_false_iff,
        Bool.or_eq_false_iff, Bool.not_eq_false'] at hpredicate
      exact hpredicate.1.2
  · cases hst

end Timer

section TimerSteps

variable {s t : System}

theorem System.TimerFresh.stepTimer {action : SleepTimer.Action} (h : s.TimerFresh)
    (hst : s.stepTimer action = some t) : t.TimerFresh := by
  obtain ⟨timer, htimer, ht⟩ := Option.map_eq_some_iff.mp hst
  have hactive : timer.timer.active = true →
      (∃ name delay, action = .set name delay) ∨ s.setIn = s.cycle :=
    fun ha => (active_of_step htimer ha).imp_right h.active
  cases action with
  | set name delay =>
    subst ht
    exact ⟨fun _ => rfl, h.executed⟩
  | timeout =>
    subst ht
    refine ⟨fun ha => ?_, fun entry hentry => ?_⟩
    · rcases hactive ha with ⟨name, delay, hset⟩ | hcycle
      · cases hset
      · exact hcycle
    · dsimp only at hentry
      split at hentry
      · next hcommit =>
        rcases List.mem_cons.mp hentry with rfl | hentry
        · exact h.active (active_of_commit htimer hcommit)
        · exact h.executed entry hentry
      · exact h.executed entry hentry
  | cancel | callerNotify | stop | stopJoined | tick | acquire | wake | executeDone
    | workerNotify =>
    subst ht
    refine ⟨fun ha => ?_, h.executed⟩
    rcases hactive ha with ⟨name, delay, hset⟩ | hcycle
    · cases hset
    · exact hcycle

/-- The main thread starts and stops the timer, and never sets it. -/
theorem System.TimerFresh.advance (h : s.TimerFresh) (hst : s.advance = some t) :
    t.TimerFresh := by
  unfold System.advance at hst
  cases hmain : s.main with
  | stopped | running =>
    rw [hmain] at hst
    cases hst
  | startingTimer | startingDiscovery | creatingServer | startingWatcher | stoppingDiscovery =>
    rw [hmain] at hst
    cases hst
    exact ⟨h.active, h.executed⟩
  | joiningWatcher | stoppingServer =>
    rw [hmain] at hst
    dsimp only at hst
    split at hst <;> cases hst
    exact ⟨h.active, h.executed⟩
  | stoppingTimer | joiningTimer =>
    rw [hmain] at hst
    obtain ⟨timer, htimer, rfl⟩ := Option.map_eq_some_iff.mp hst
    refine ⟨fun ha => ?_, h.executed⟩
    rcases active_of_step htimer ha with ⟨name, delay, hset⟩ | hactive
    · cases hset
    · exact h.active hactive

theorem timerFresh_step {a : Action} (h : s.TimerFresh) (hok : s.FindsNoTimer a)
    (hst : s.step a = some t) : t.TimerFresh := by
  cases a with
  | enterInitialize accepted =>
    simp only [System.step] at hst
    split at hst <;> cases hst
    cases accepted with
    | false => exact h
    | true => exact ⟨fun ha => absurd (hok.symm.trans ha) (by decide), h.executed⟩
  | advance => exact h.advance hst
  | timer action =>
    cases action with
    | set | cancel =>
      simp only [System.step] at hst
      split at hst
      · exact h.stepTimer hst
      · cases hst
    | stop | stopJoined => cases hst
    | callerNotify | tick | acquire | wake | timeout | executeDone | workerNotify =>
      simp only [System.step] at hst
      exact h.stepTimer hst
  | refresh =>
    cases hst
    exact ⟨h.active, h.executed⟩
  | enterFinalize | invoke | endPass | request | respond =>
    simp only [System.step] at hst
    split at hst <;> cases hst
    exact ⟨h.active, h.executed⟩
  | beginPass | watcherExit =>
    simp only [System.step] at hst
    split at hst
    · split at hst <;> cases hst
      exact ⟨h.active, h.executed⟩
    · cases hst

end TimerSteps

/-! ## The handlers -/

/-- The handlers that so many cycles leave, in the order of `FHandlers`. -/
def subscribed : Nat → List Handler
  | 0 => []
  | before + 1 => subscribed before ++ [.discovery (before + 1), .server (before + 1)]

/-- The handlers are those of all cycles, and the servers those of the present one. -/
def Wired (s : System) : Prop :=
  0 < s.cycle ∧ s.handlers = subscribed s.cycle ∧ s.discovery = some s.cycle ∧
    s.server = some s.cycle

/-- How far the cycle has got with its handlers. -/
def Wiring (s : System) : Prop :=
  match s.main with
  | .stopped | .stoppingTimer | .joiningTimer | .stoppingServer | .stoppingDiscovery =>
    s.watcher = .exited ∧ s.handlers = subscribed s.cycle
  | .startingTimer | .startingDiscovery =>
    s.watcher = .exited ∧ ∃ before, s.cycle = before + 1 ∧ s.handlers = subscribed before
  | .creatingServer =>
    s.watcher = .exited ∧ s.discovery = some s.cycle ∧
      ∃ before, s.cycle = before + 1 ∧ s.handlers = subscribed before ++ [.discovery s.cycle]
  | .startingWatcher => s.watcher = .exited ∧ Wired s
  | .running | .joiningWatcher => Wired s

/-- The handlers of a pass that are not still to be called have been called. -/
def InPass (s : System) : Prop :=
  ∀ todo retry, s.watcher = .calling todo retry → ∃ called, s.handlers = called ++ todo ∧
    ∀ handler ∈ called, ∃ call ∈ s.invoked, call.handler = handler ∧ call.cycle = s.cycle

/-- What a call tells of the cycle it is made in. -/
structure Told (s : System) (call : Invocation) : Prop where
  subscribed : call.handler ∈ subscribed call.cycle
  /-- The servers of earlier cycles are gone. -/
  alive : call.alive = decide (call.handler.cycle = call.cycle)
  /-- The first handler that the watcher has is the oldest. -/
  opened : ∃ first ∈ s.invoked, first.cycle = call.cycle ∧ first.handler = .discovery 1

structure Inv (s : System) : Prop where
  wiring : Wiring s
  inPass : InPass s
  told : ∀ call ∈ s.invoked, Told s call

theorem subscribed_head {n : Nat} (h : 0 < n) :
    (subscribed n).head? = some (.discovery 1) := by
  induction n with
  | zero => exact absurd h (Nat.lt_irrefl 0)
  | succ before ih =>
    rw [subscribed]
    cases before with
    | zero => rfl
    | succ earlier => rw [List.head?_append, ih (Nat.succ_pos _), Option.some_or]

section HandlerSteps

variable {s t : System}

theorem inPass_of_exited (h : s.watcher = .exited) : InPass s := by
  intro todo retry hcalling
  rw [h] at hcalling
  cases hcalling

theorem inPass_of_waiting {retry : Bool} (h : s.watcher = .waiting retry) : InPass s := by
  intro todo retry' hcalling
  rw [h] at hcalling
  cases hcalling

/-- While the watcher's thread is there, the cycle is wired. -/
theorem Wiring.wired (h : Wiring s) (hwatcher : s.watcher ≠ .exited) :
    (s.main = .running ∨ s.main = .joiningWatcher) ∧ Wired s := by
  unfold Wiring at h
  cases hmain : s.main with
  | running =>
    rw [hmain] at h
    exact ⟨.inl rfl, h⟩
  | joiningWatcher =>
    rw [hmain] at h
    exact ⟨.inr rfl, h⟩
  | stopped | stoppingTimer | joiningTimer | stoppingServer | stoppingDiscovery
  | startingTimer | startingDiscovery | creatingServer | startingWatcher =>
    rw [hmain] at h
    exact absurd h.1 hwatcher

theorem wiring_of_wired (hmain : s.main = .running ∨ s.main = .joiningWatcher) (h : Wired s) :
    Wiring s := by
  unfold Wiring
  rcases hmain with hmain | hmain
  · rw [hmain]
    exact h
  · rw [hmain]
    exact h

/-- A step that leaves the servers and the calls as they are. -/
theorem Inv.of_same (h : Inv s) (hwiring : Wiring t) (hinPass : InPass t)
    (hinvoked : t.invoked = s.invoked) : Inv t := by
  refine ⟨hwiring, hinPass, fun call hcall => ?_⟩
  rw [hinvoked] at hcall
  obtain ⟨hsubscribed, halive, hopened⟩ := h.told call hcall
  rw [← hinvoked] at hopened
  exact ⟨hsubscribed, halive, hopened⟩

theorem Wired.alive (h : Wired s) (handler : Handler) :
    s.alive handler = decide (handler.cycle = s.cycle) := by
  obtain ⟨-, -, hdiscovery, hserver⟩ := h
  cases handler with
  | discovery cycle =>
    rw [System.alive, hdiscovery, Handler.cycle]
    exact decide_eq_decide.mpr (by rw [Option.some.injEq, eq_comm])
  | server cycle =>
    rw [System.alive, hserver, Handler.cycle]
    exact decide_eq_decide.mpr (by rw [Option.some.injEq, eq_comm])

/-- The main thread's own steps add the servers of the cycle to the handlers, and never
take one away. -/
theorem Inv.advance (h : Inv s) (hst : s.advance = some t) : Inv t := by
  have hw := h.wiring
  unfold System.advance at hst
  unfold Wiring at hw
  cases hmain : s.main with
  | stopped | running =>
    rw [hmain] at hst
    cases hst
  | startingTimer =>
    rw [hmain] at hst hw
    cases hst
    exact h.of_same hw (inPass_of_exited hw.1) rfl
  | startingDiscovery =>
    rw [hmain] at hst hw
    cases hst
    obtain ⟨hexited, before, hcycle, hhandlers⟩ := hw
    refine h.of_same ⟨hexited, rfl, before, hcycle, ?_⟩ (inPass_of_exited hexited) rfl
    dsimp only
    rw [hhandlers]
  | creatingServer =>
    rw [hmain] at hst hw
    cases hst
    obtain ⟨hexited, hdiscovery, before, hcycle, hhandlers⟩ := hw
    refine h.of_same ⟨hexited, hcycle ▸ Nat.succ_pos before, ?_, hdiscovery, rfl⟩
      (inPass_of_exited hexited) rfl
    dsimp only
    rw [hhandlers, hcycle, subscribed, List.append_assoc]
    rfl
  | startingWatcher =>
    rw [hmain] at hst hw
    cases hst
    exact h.of_same hw.2 (inPass_of_waiting rfl) rfl
  | joiningWatcher =>
    rw [hmain] at hst hw
    dsimp only at hst
    split at hst <;> cases hst
    next hexited => exact h.of_same ⟨hexited, hw.2.1⟩ (inPass_of_exited hexited) rfl
  | stoppingTimer | joiningTimer =>
    rw [hmain] at hst hw
    obtain ⟨timer, -, rfl⟩ := Option.map_eq_some_iff.mp hst
    exact h.of_same hw (inPass_of_exited hw.1) rfl
  | stoppingServer =>
    rw [hmain] at hst hw
    dsimp only at hst
    split at hst <;> cases hst
    exact h.of_same hw (inPass_of_exited hw.1) rfl
  | stoppingDiscovery =>
    rw [hmain] at hst hw
    cases hst
    exact h.of_same hw (inPass_of_exited hw.1) rfl

theorem Inv.beginPass (h : Inv s) (hst : s.step .beginPass = some t) : Inv t := by
  simp only [System.step] at hst
  split at hst
  · next hwatcher =>
    split at hst <;> cases hst
    obtain ⟨hmain, hwired⟩ := h.wiring.wired (by rw [hwatcher]; exact Watcher.noConfusion)
    refine h.of_same (wiring_of_wired hmain hwired) ?_ rfl
    rintro todo retry hcalling
    cases hcalling
    exact ⟨[], rfl, fun handler hmem => absurd hmem List.not_mem_nil⟩
  · cases hst

/-- The watcher calls the next of its handlers: its first, if it has called none yet. -/
theorem Inv.invoke {answer : Bool} (h : Inv s) (hst : s.step (.invoke answer) = some t) :
    Inv t := by
  simp only [System.step] at hst
  split at hst <;> cases hst
  next handler todo retry hwatcher =>
    obtain ⟨hmain, hwired⟩ := h.wiring.wired (by rw [hwatcher]; exact Watcher.noConfusion)
    obtain ⟨called, hhandlers, hcalled⟩ := h.inPass _ _ hwatcher
    have hmem : handler ∈ subscribed s.cycle := by
      rw [← hwired.2.1, hhandlers]
      exact List.mem_append_right called List.mem_cons_self
    have hhead : (called ++ handler :: todo).head? = some (.discovery 1) := by
      rw [← hhandlers, hwired.2.1]
      exact subscribed_head hwired.1
    refine ⟨wiring_of_wired hmain hwired, ?_,
      List.forall_mem_cons.mpr ⟨⟨hmem, hwired.alive handler, ?_⟩, ?_⟩⟩
    · rintro todo' retry' hcalling
      cases hcalling
      refine ⟨called ++ [handler], by rw [List.append_assoc]; exact hhandlers, ?_⟩
      intro other hother
      rcases List.mem_append.mp hother with hother | hother
      · obtain ⟨call, hcall, heq⟩ := hcalled other hother
        exact ⟨call, List.mem_cons_of_mem _ hcall, heq⟩
      · cases List.mem_singleton.mp hother
        exact ⟨_, List.mem_cons_self, rfl, rfl⟩
    · cases called with
      | nil => exact ⟨_, List.mem_cons_self, rfl, Option.some.inj hhead⟩
      | cons oldest rest =>
        obtain ⟨call, hcall, holdest, hcycle⟩ := hcalled oldest List.mem_cons_self
        exact ⟨call, List.mem_cons_of_mem _ hcall, hcycle, holdest.trans (Option.some.inj hhead)⟩
    · intro call hcall
      obtain ⟨hsubscribed, halive, first, hfirst, heq⟩ := h.told call hcall
      exact ⟨hsubscribed, halive, first, List.mem_cons_of_mem _ hfirst, heq⟩

theorem step_inv {a : Action} (h : Inv s) (hst : s.step a = some t) : Inv t := by
  cases a with
  | enterInitialize accepted =>
    simp only [System.step] at hst
    split at hst <;> cases hst
    next hmain =>
      have hw := h.wiring
      unfold Wiring at hw
      rw [hmain] at hw
      cases accepted with
      | false => exact h
      | true => exact h.of_same ⟨hw.1, s.cycle, rfl, hw.2⟩ (inPass_of_exited hw.1) rfl
  | enterFinalize =>
    simp only [System.step] at hst
    split at hst <;> cases hst
    next hmain =>
      have hw := h.wiring
      unfold Wiring at hw
      rw [hmain] at hw
      exact h.of_same hw h.inPass rfl
  | advance => exact h.advance hst
  | refresh =>
    cases hst
    exact h.of_same h.wiring h.inPass rfl
  | beginPass => exact h.beginPass hst
  | invoke answer => exact h.invoke hst
  | endPass =>
    simp only [System.step] at hst
    split at hst <;> cases hst
    next retry hwatcher =>
      obtain ⟨hmain, hwired⟩ := h.wiring.wired (by rw [hwatcher]; exact Watcher.noConfusion)
      exact h.of_same (wiring_of_wired hmain hwired) (inPass_of_waiting rfl) rfl
  | watcherExit =>
    simp only [System.step] at hst
    split at hst
    · next hwatcher =>
      split at hst <;> cases hst
      obtain ⟨hmain, hwired⟩ := h.wiring.wired (by rw [hwatcher]; exact Watcher.noConfusion)
      exact h.of_same (wiring_of_wired hmain hwired) (inPass_of_exited rfl) rfl
    · cases hst
  | request | respond =>
    simp only [System.step] at hst
    split at hst <;> cases hst
    exact h.of_same h.wiring h.inPass rfl
  | timer action =>
    have hsame : ∀ {action}, s.stepTimer action = some t → Inv t := by
      intro action hst
      obtain ⟨timer, -, ht⟩ := Option.map_eq_some_iff.mp hst
      split at ht
      all_goals
        subst ht
        exact h.of_same h.wiring h.inPass rfl
    cases action with
    | set | cancel =>
      simp only [System.step] at hst
      split at hst
      · exact hsame hst
      · cases hst
    | stop | stopJoined => cases hst
    | callerNotify | tick | acquire | wake | timeout | executeDone | workerNotify =>
      simp only [System.step] at hst
      exact hsame hst

/-- Only the first cycle has no handler of an earlier one. -/
theorem Inv.callsTheLiving_iff (h : Inv s) :
    s.CallsTheLiving ↔ ∀ call ∈ s.invoked, call.cycle = 1 := by
  constructor
  · intro hliving call hcall
    obtain ⟨-, -, first, hfirst, hcycle, hhandler⟩ := h.told call hcall
    have halive := (h.told first hfirst).alive
    rw [hliving first hfirst, hhandler, hcycle] at halive
    exact (of_decide_eq_true halive.symm).symm
  · intro hcycles call hcall
    obtain ⟨hmem, halive, -⟩ := h.told call hcall
    rw [hcycles call hcall] at hmem halive
    rw [halive]
    rcases List.mem_pair.mp hmem with hhandler | hhandler <;> rw [hhandler] <;> rfl

end HandlerSteps

/-! ## Fresh cycles -/

/-- **Finalize followed by Initialize gives a fresh timer** in every run whose
`Initialize` calls find none left over; but the handlers it calls are all alive only as
long as it calls none after the first cycle. -/
theorem cycles_fresh {s : System} :
    (ReachableBy System.step System.FindsNoTimer {} s → s.TimerFresh) ∧
      (Reachable System.step {} s →
        (s.CallsTheLiving ↔ ∀ call ∈ s.invoked, call.cycle = 1)) := by
  constructor
  · intro h
    exact h.invariant ⟨fun ha => absurd ha (by decide), List.forall_mem_nil _⟩ timerFresh_step
  · intro h
    have hinit : Inv {} := ⟨⟨rfl, rfl⟩, inPass_of_exited rfl, List.forall_mem_nil _⟩
    exact (h.invariant hinit step_inv).callsTheLiving_iff

/-- `Initialize` up to its end. -/
def initializeActions : List Action := .enterInitialize true :: List.replicate 4 .advance

/-- The watcher's first pass of a cycle. -/
def passActions : List Action := [.beginPass, .invoke true, .invoke true, .endPass]

/-- `Finalize`, with a request that sets the timer after the timer's `Stop`. -/
def finalizeActions : List Action :=
  [.enterFinalize, .watcherExit, .advance, .advance, .timer .wake, .advance,
    .timer (.set (ascii "pause_playback") 60), .respond, .advance, .advance]

/-- `Finalize` of a plugin whose requests have returned. -/
def quietFinalizeActions : List Action :=
  [.enterFinalize, .watcherExit, .advance, .advance, .timer .wake, .advance, .advance, .advance]

/-- In a second cycle a timer is set and fires, before the watcher's first pass. -/
theorem cycles_fresh_second_cycle :
    ∃ s, ReachableBy System.step System.FindsNoTimer {} s ∧ s.cycle = 2 ∧ s.invoked.length = 2 ∧
      s.executed = [(2, 2)] ∧ s.TimerFresh ∧ s.CallsTheLiving := by
  obtain ⟨s, hrun, hs⟩ := (Option.any_eq_true _ _).mp
    (show (run (guarded System.step System.FindsNoTimer) {}
      (initializeActions ++ [.timer .acquire] ++ passActions ++ quietFinalizeActions ++
        initializeActions ++ [.timer .acquire, .request,
          .timer (.set (ascii "pause_playback") 60), .respond, .timer .wake,
          .timer (.tick 60000000000), .timer .timeout])).any (fun s =>
        decide (s.cycle = 2 ∧ s.invoked.length = 2 ∧ s.executed = [(2, 2)] ∧
          ∀ call ∈ s.invoked, call.cycle = 1)) = true by decide +kernel)
  obtain ⟨hcycle, hlength, hexecuted, hfirst⟩ := of_decide_eq_true hs
  have hreach : ReachableBy System.step System.FindsNoTimer {} s := .of_guarded ⟨_, hrun⟩
  exact ⟨s, hreach, hcycle, hlength, hexecuted, cycles_fresh.1 hreach,
    (cycles_fresh.2 hreach.reachable).2 hfirst⟩

/-- In a second cycle the watcher calls into the server that the first one destroyed,
and the timer of the first one fires. -/
theorem second_cycle_stale :
    ∃ s, run System.step {}
        (initializeActions ++ [.timer .acquire] ++ passActions ++ [.request] ++ finalizeActions ++
          initializeActions ++ [.timer .acquire, .beginPass, .invoke true,
            .timer (.tick 60000000000), .timer .timeout]) = some s ∧
      ⟨.discovery 1, 2, false⟩ ∈ s.invoked ∧ (1, 2) ∈ s.executed ∧
      ¬s.CallsTheLiving ∧ ¬s.TimerFresh := by
  obtain ⟨s, hrun, hs⟩ := (Option.any_eq_true _ _).mp
    (show (run System.step {}
      (initializeActions ++ [.timer .acquire] ++ passActions ++ [.request] ++ finalizeActions ++
        initializeActions ++ [.timer .acquire, .beginPass, .invoke true,
          .timer (.tick 60000000000), .timer .timeout])).any (fun s =>
        decide (⟨.discovery 1, 2, false⟩ ∈ s.invoked ∧ (1, 2) ∈ s.executed)) = true by
          decide +kernel)
  obtain ⟨hinvoked, hexecuted⟩ := of_decide_eq_true hs
  exact ⟨s, hrun, hinvoked, hexecuted, fun h => absurd (h _ hinvoked) Bool.false_ne_true,
    fun h => absurd (h.executed _ hexecuted) (by decide)⟩

end RemoteControl.Cycles
