import RemoteControl.Events.StateUpdateEvents
import RemoteControl.Lib.Transition
import Mathlib.Logic.Function.Basic

/-!
# Long polling

Clients that keep one `SubscribeOnAIMPStateUpdateEvent` request pending for each
kind of event and send the next one right after each response, under any
interleaving with the player's changes and their `Notify` calls.

A request names no version: `Wait` starts from the version current when it enters.
A `Notify` between the building of one snapshot and the next `Wait` is therefore
not waited for (`update_lost`), and these are the only ones a client misses
(`blocked_poll_misses_only_the_gap`).
-/

namespace RemoteControl.LongPoll

open Transition

/-! ## The system -/

/-- One client's subscription to one kind of event. -/
structure Subscription where
  client : Nat
  kind : EventKind
deriving DecidableEq

/-- A reply's payload: which content of the player it shows, and how many `Notify`
calls of the kind there had been when it was built. -/
structure Snapshot where
  content : Nat
  builtAt : Nat
deriving DecidableEq

/-- Where a subscription's current request is. -/
inductive Poll
  /-- On its way to the server. -/
  | requesting
  /-- In `Wait`, entered after `enteredAt` calls of `Notify`. -/
  | waiting (seen : BitVec 64) (enteredAt : Nat)
  /-- `Wait` returned. -/
  | returned (result : Bool)
  /-- About to build the snapshot. -/
  | building
  /-- The reply is on its way to the client. -/
  | replying (snapshot : Snapshot)
  /-- The error reply "server is stopping" is. -/
  | failing
deriving DecidableEq

structure System where
  events : StateUpdateEvents := {}
  /-- The content of the player that a kind of event is about. -/
  content : EventKind → Nat := fun _ => 0
  /-- Whether the content changed after the last `Notify`. -/
  unannounced : EventKind → Bool := fun _ => false
  /-- The number of `Notify` calls. -/
  notified : EventKind → Nat := fun _ => 0
  poll : Subscription → Poll := fun _ => .requesting
  /-- What the client got last. -/
  delivered : Subscription → Option Snapshot := fun _ => none

inductive Action
  | change (kind : EventKind)
  | notify (kind : EventKind)
  | stop
  | enter (sub : Subscription)
  /-- The waiter gets the lock, notified or not, and looks at the predicate. -/
  | wake (sub : Subscription)
  | timeout (sub : Subscription)
  /-- The test of `IsStopped` after a `Wait` that returned false. -/
  | check (sub : Subscription)
  | build (sub : Subscription)
  /-- The reply arrives, and the client asks again. -/
  | deliver (sub : Subscription)

namespace System

def setPoll (s : System) (sub : Subscription) (poll : Poll) : System :=
  { s with poll := fun other => if other = sub then poll else s.poll other }

@[simp] theorem setPoll_poll (s : System) (sub other : Subscription) (poll : Poll) :
    (s.setPoll sub poll).poll other = if other = sub then poll else s.poll other := rfl

def step (s : System) : Action → Option System
  | .change kind => some { s with
      content := fun k => if k = kind then s.content kind + 1 else s.content k
      unannounced := fun k => if k = kind then true else s.unannounced k }
  | .notify kind => some { s with
      events := s.events.notify kind
      notified := fun k => if k = kind then s.notified kind + 1 else s.notified k
      unannounced := fun k => if k = kind then false else s.unannounced k }
  | .stop => some { s with events := s.events.stop }
  | .enter sub =>
    match s.poll sub with
    | .requesting => some (s.setPoll sub (.waiting (s.events.enter sub.kind) (s.notified sub.kind)))
    | _ => none
  | .wake sub =>
    match s.poll sub with
    | .waiting seen _ =>
      if s.events.predicate sub.kind seen then
        some (s.setPoll sub (.returned (s.events.waitResult sub.kind seen)))
      else some s
    | _ => none
  | .timeout sub =>
    match s.poll sub with
    | .waiting seen _ => some (s.setPoll sub (.returned (s.events.waitResult sub.kind seen)))
    | _ => none
  | .check sub =>
    match s.poll sub with
    | .returned result =>
      some (s.setPoll sub (if !result && s.events.stopped then .failing else .building))
    | _ => none
  | .build sub =>
    match s.poll sub with
    | .building => some (s.setPoll sub (.replying ⟨s.content sub.kind, s.notified sub.kind⟩))
    | _ => none
  | .deliver sub =>
    match s.poll sub with
    | .replying snapshot => some { s.setPoll sub .requesting with
        delivered := fun other => if other = sub then some snapshot else s.delivered other }
    | .failing => some (s.setPoll sub .requesting)
    | _ => none

end System

/-! ## The invariant -/

/-- A snapshot is no newer than the present, and it shows the present content unless
a change is still unannounced or a `Notify` came after it was built. -/
structure Snapshot.Fits (snapshot : Snapshot) (content : Nat) (unannounced : Bool)
    (notified : Nat) : Prop where
  builtAt_le : snapshot.builtAt ≤ notified
  content : snapshot.content = content ∨ unannounced = true ∨ snapshot.builtAt < notified

structure Consistent (s : System) : Prop where
  versions : ∀ kind, s.events.versions kind = BitVec.ofNat 64 (s.notified kind)
  waiting : ∀ sub seen enteredAt, s.poll sub = .waiting seen enteredAt →
    seen = BitVec.ofNat 64 enteredAt ∧ enteredAt ≤ s.notified sub.kind ∧
      ∀ snapshot, s.delivered sub = some snapshot → snapshot.builtAt ≤ enteredAt
  replying : ∀ sub snapshot, s.poll sub = .replying snapshot →
    snapshot.Fits (s.content sub.kind) (s.unannounced sub.kind) (s.notified sub.kind)
  delivered : ∀ sub snapshot, s.delivered sub = some snapshot →
    snapshot.Fits (s.content sub.kind) (s.unannounced sub.kind) (s.notified sub.kind)

theorem init_consistent : Consistent {} where
  versions _ := rfl
  waiting _ _ _ h := by cases h
  replying _ _ h := by cases h
  delivered _ _ h := by cases h

/-- A poll that moves without starting to wait or to reply keeps the invariant. -/
theorem Consistent.setPoll {s : System} (h : Consistent s) {sub : Subscription} {poll : Poll}
    (hwaiting : ∀ seen enteredAt, poll = .waiting seen enteredAt →
      seen = BitVec.ofNat 64 enteredAt ∧ enteredAt ≤ s.notified sub.kind ∧
        ∀ snapshot, s.delivered sub = some snapshot → snapshot.builtAt ≤ enteredAt)
    (hreplying : ∀ snapshot, poll = .replying snapshot →
      snapshot.Fits (s.content sub.kind) (s.unannounced sub.kind) (s.notified sub.kind)) :
    Consistent (s.setPoll sub poll) where
  versions := h.versions
  waiting other seen enteredAt hpoll := by
    rw [System.setPoll_poll] at hpoll
    split at hpoll
    · next heq => exact heq ▸ hwaiting seen enteredAt hpoll
    · exact h.waiting other seen enteredAt hpoll
  replying other snapshot hpoll := by
    rw [System.setPoll_poll] at hpoll
    split at hpoll
    · next heq => exact heq ▸ hreplying snapshot hpoll
    · exact h.replying other snapshot hpoll
  delivered := h.delivered

section Steps

variable {s t : System} {kind : EventKind} {sub : Subscription}

theorem Snapshot.Fits.change {snapshot : Snapshot}
    (h : snapshot.Fits (s.content kind) (s.unannounced kind) (s.notified kind)) :
    snapshot.Fits (s.content kind + 1) true (s.notified kind) :=
  ⟨h.builtAt_le, .inr (.inl rfl)⟩

theorem Snapshot.Fits.notify {snapshot : Snapshot} {content : Nat} {unannounced : Bool}
    {notified : Nat} (h : snapshot.Fits content unannounced notified) :
    snapshot.Fits content false (notified + 1) :=
  ⟨Nat.le_succ_of_le h.builtAt_le, .inr (.inr (Nat.lt_succ_of_le h.builtAt_le))⟩

theorem Consistent.change (h : Consistent s) (hst : s.step (.change kind) = some t) :
    Consistent t := by
  cases hst
  have hfits : ∀ (other : EventKind) (snapshot : Snapshot),
      snapshot.Fits (s.content other) (s.unannounced other) (s.notified other) →
        snapshot.Fits (if other = kind then s.content kind + 1 else s.content other)
          (if other = kind then true else s.unannounced other) (s.notified other) := by
    intro other snapshot hs
    split
    · next heq =>
      subst heq
      exact hs.change
    · exact hs
  exact ⟨h.versions, h.waiting, fun sub snapshot hpoll => hfits _ _ (h.replying sub snapshot hpoll),
    fun sub snapshot hsub => hfits _ _ (h.delivered sub snapshot hsub)⟩

theorem Consistent.notify (h : Consistent s) (hst : s.step (.notify kind) = some t) :
    Consistent t := by
  cases hst
  have hfits : ∀ (other : EventKind) (snapshot : Snapshot),
      snapshot.Fits (s.content other) (s.unannounced other) (s.notified other) →
        snapshot.Fits (s.content other) (if other = kind then false else s.unannounced other)
          (if other = kind then s.notified kind + 1 else s.notified other) := by
    intro other snapshot hs
    split
    · next heq =>
      subst heq
      exact hs.notify
    · exact hs
  refine ⟨fun other => ?_, fun sub seen enteredAt hpoll => ?_,
    fun sub snapshot hpoll => hfits _ _ (h.replying sub snapshot hpoll),
    fun sub snapshot hsub => hfits _ _ (h.delivered sub snapshot hsub)⟩
  · simp only [StateUpdateEvents.notify]
    split
    · rw [h.versions kind, BitVec.ofNat_add]
      rfl
    · exact h.versions other
  · have ⟨hseen, hle, hdelivered⟩ := h.waiting sub seen enteredAt hpoll
    refine ⟨hseen, ?_, hdelivered⟩
    dsimp only
    split
    · next heq => rw [heq] at hle; omega
    · exact hle

theorem Consistent.enter (h : Consistent s) (hst : s.step (.enter sub) = some t) :
    Consistent t := by
  simp only [System.step] at hst
  split at hst
  · cases hst
    refine h.setPoll (fun seen enteredAt hpoll => ?_) (fun snapshot hpoll => by cases hpoll)
    cases hpoll
    exact ⟨h.versions sub.kind, le_refl _,
      fun snapshot hsnap => (h.delivered sub snapshot hsnap).builtAt_le⟩
  · cases hst

theorem Consistent.build (h : Consistent s) (hst : s.step (.build sub) = some t) :
    Consistent t := by
  simp only [System.step] at hst
  split at hst
  · cases hst
    refine h.setPoll (fun seen enteredAt hpoll => by cases hpoll) fun snapshot hpoll => ?_
    cases hpoll
    exact ⟨le_refl _, .inl rfl⟩
  · cases hst

theorem Consistent.deliver (h : Consistent s) (hst : s.step (.deliver sub) = some t) :
    Consistent t := by
  simp only [System.step] at hst
  split at hst
  · next snapshot hpoll =>
    cases hst
    have hidle : Consistent (s.setPoll sub .requesting) :=
      h.setPoll (fun _ _ hp => by cases hp) (fun _ hp => by cases hp)
    refine ⟨hidle.versions, fun other seen enteredAt hp => ?_, hidle.replying,
      fun other snapshot' hsnap => ?_⟩
    · have ⟨hseen, hle, hdelivered⟩ := hidle.waiting other seen enteredAt hp
      refine ⟨hseen, hle, ?_⟩
      intro snapshot' hsnap
      dsimp only at hsnap hp
      split at hsnap
      · next heq =>
        rw [System.setPoll_poll, if_pos heq] at hp
        cases hp
      · exact hdelivered snapshot' hsnap
    · dsimp only at hsnap
      split at hsnap
      · next heq =>
        cases hsnap
        exact heq ▸ h.replying sub snapshot hpoll
      · exact h.delivered other snapshot' hsnap
  · cases hst
    exact h.setPoll (fun _ _ hp => by cases hp) (fun _ hp => by cases hp)
  · cases hst

end Steps

theorem step_consistent {s t : System} {a : Action} (h : Consistent s) (hst : s.step a = some t) :
    Consistent t := by
  -- a poll that goes on to return, to check or to build neither waits nor replies
  have hmove : ∀ sub poll, (∀ seen enteredAt, poll ≠ .waiting seen enteredAt) →
      (∀ snapshot, poll ≠ .replying snapshot) → Consistent (s.setPoll sub poll) :=
    fun sub poll hwaiting hreplying => h.setPoll
      (fun seen enteredAt hpoll => absurd hpoll (hwaiting seen enteredAt))
      (fun snapshot hpoll => absurd hpoll (hreplying snapshot))
  cases a with
  | change kind => exact h.change hst
  | notify kind => exact h.notify hst
  | stop =>
    cases hst
    exact ⟨h.versions, h.waiting, h.replying, h.delivered⟩
  | enter sub => exact h.enter hst
  | wake sub =>
    simp only [System.step] at hst
    split at hst
    · split at hst
      · cases hst
        exact hmove sub _ (fun _ _ hp => by cases hp) (fun _ hp => by cases hp)
      · cases hst
        exact h
    · cases hst
  | timeout sub =>
    simp only [System.step] at hst
    split at hst
    · cases hst
      exact hmove sub _ (fun _ _ hp => by cases hp) (fun _ hp => by cases hp)
    · cases hst
  | check sub =>
    simp only [System.step] at hst
    split at hst
    · cases hst
      split
      · exact hmove sub _ (fun _ _ hp => by cases hp) (fun _ hp => by cases hp)
      · exact hmove sub _ (fun _ _ hp => by cases hp) (fun _ hp => by cases hp)
    · cases hst
  | build sub => exact h.build hst
  | deliver sub => exact h.deliver hst

/-! ## What a blocked poll has missed -/

/-- **A blocked poll has missed no `Notify` since it entered `Wait`.** So the last
snapshot the client got lacks exactly the `Notify` calls between its building and
that entry: with none in this gap it was built after the most recent `Notify`, and
it shows the present content once every change is announced. -/
theorem blocked_poll_misses_only_the_gap {s : System} (h : Reachable System.step {} s)
    {sub : Subscription} {seen : BitVec 64} {enteredAt : Nat} {snapshot : Snapshot}
    (hpoll : s.poll sub = .waiting seen enteredAt)
    (hblocked : s.events.predicate sub.kind seen = false)
    (hfew : s.notified sub.kind < enteredAt + 2 ^ 64)
    (hlast : s.delivered sub = some snapshot) :
    s.notified sub.kind = enteredAt ∧ snapshot.builtAt ≤ enteredAt ∧
      (snapshot.builtAt = enteredAt → s.unannounced sub.kind = false →
        snapshot.content = s.content sub.kind) := by
  have hc : Consistent s := h.invariant init_consistent step_consistent
  have ⟨hseen, hle, hdelivered⟩ := hc.waiting sub seen enteredAt hpoll
  have hversion := (StateUpdateEvents.predicate_eq_false.mp hblocked).2
  have hnow : s.notified sub.kind = enteredAt := by
    rw [hc.versions, hseen] at hversion
    have hmod := congrArg BitVec.toNat hversion
    rw [BitVec.toNat_ofNat, BitVec.toNat_ofNat] at hmod
    omega
  refine ⟨hnow, hdelivered snapshot hlast, ?_⟩
  intro hbuilt hannounced
  rcases (hc.delivered sub snapshot hlast).content with hcontent | hun | hlt
  · exact hcontent
  · rw [hun] at hannounced
    cases hannounced
  · omega

/-- One client follows the queue; the player changes once while it waits, and again
while the first snapshot travels to it. -/
def sampleSubscription : Subscription := ⟨0, .queue⟩

def sampleRun : List Action :=
  [.enter sampleSubscription, .change .queue, .notify .queue, .wake sampleSubscription,
    .check sampleSubscription, .build sampleSubscription, .change .queue, .notify .queue,
    .deliver sampleSubscription, .enter sampleSubscription]

/-- The client waits for the next event and shows an outdated state, although every
change was announced. -/
theorem update_lost :
    ∃ s, run System.step {} sampleRun = some s ∧
      (s.poll sampleSubscription = .waiting 2 2 ∧ s.events.predicate .queue 2 = false ∧
        s.delivered sampleSubscription = some ⟨1, 1⟩ ∧ s.notified .queue = 2 ∧
        s.content .queue = 2 ∧ s.unannounced .queue = false) :=
  ⟨_, rfl, rfl, rfl, rfl, rfl, rfl, rfl⟩

/-- A client that asks again before the next change shows the present state. -/
theorem blocked_poll_misses_only_the_gap_sample :
    ∃ s, run System.step {} (sampleRun.take 6 ++ sampleRun.drop 8) = some s ∧
      s.poll sampleSubscription = .waiting 1 1 ∧ s.delivered sampleSubscription = some ⟨1, 1⟩ ∧
        (⟨1, 1⟩ : Snapshot).content = s.content .queue := by
  obtain ⟨s, hrun, hs⟩ := (Option.any_eq_true _ _).mp
    (show (run System.step {} (sampleRun.take 6 ++ sampleRun.drop 8)).any (fun s =>
      decide (s.poll sampleSubscription = .waiting 1 1 ∧ s.events.predicate .queue 1 = false ∧
        s.notified .queue < 1 + 2 ^ 64 ∧ s.delivered sampleSubscription = some ⟨1, 1⟩ ∧
        s.unannounced .queue = false)) = true by decide)
  obtain ⟨hpoll, hblocked, hfew, hlast, hannounced⟩ := of_decide_eq_true hs
  exact ⟨s, hrun, hpoll, hlast,
    (blocked_poll_misses_only_the_gap ⟨_, hrun⟩ hpoll hblocked hfew hlast).2.2 rfl hannounced⟩

end RemoteControl.LongPoll
