import RemoteControl.Events.StateUpdateEvents
import RemoteControl.Lib.Transition
import Mathlib.Data.List.Perm.Basic
import Mathlib.Data.List.Perm.Subperm
import Mathlib.Data.List.ProdSigma

/-!
# The workers of a listener

A listener serves its requests with `httplib::ThreadPool(32)`, and a poll keeps its
worker while it is inside `Wait`. Nothing tells the server that the client of a
waiting poll has gone, so the polls of an ended connection keep their workers until
an event, the timeout or `Stop`: clients that come back often enough take all of
them (`reconnects_block_the_pool`). A worker stays free when a client connects only
while few polls are left behind (`worker_stays_free`).
-/

namespace RemoteControl.WorkerPool

open Transition

/-! ## The system -/

/-- `new httplib::ThreadPool(32)`. -/
def poolSize : Nat := 32

/-- The clients that are connected at the same time. -/
def maxClients : Nat := 7

def kinds : List EventKind := [.controlPanel, .playlists, .queue, .timer]

inductive Work
  | poll (kind : EventKind)
  | normal
deriving DecidableEq

inductive Stage
  /-- In the task queue, without a worker. -/
  | queued
  | serving
  /-- Blocked in `Wait`, with the version it compares with. -/
  | waiting (seen : BitVec 64)
  /-- After `Wait`. -/
  | answering
deriving DecidableEq

/-- A request the listener has accepted; its client may have gone since. -/
structure Request where
  client : Option Nat
  work : Work
  stage : Stage := .queued
deriving DecidableEq

namespace Request

def Busy (r : Request) : Prop := r.stage ≠ .queued

def Blocked (r : Request) : Prop :=
  match r.work, r.stage with
  | .poll _, .waiting _ => True
  | _, _ => False

/-- A poll that is blocked or still on its way there. -/
def MayBlock (r : Request) : Prop :=
  match r.work with
  | .poll _ => r.stage ≠ .answering
  | .normal => False

def LeftBehind (r : Request) : Prop := r.client = none ∧ r.MayBlock

/-- Whose poll it is, and for which kind. -/
def key (r : Request) : Option (Nat × EventKind) :=
  match r.client, r.work with
  | some c, .poll kind => some (c, kind)
  | _, _ => none

/-- The connection has ended. -/
def drop (c : Nat) (r : Request) : Request :=
  if r.client = some c then { r with client := none } else r

instance decidableBusy : DecidablePred Busy := fun r => inferInstanceAs (Decidable (r.stage ≠ _))

instance decidableBlocked : DecidablePred Blocked := fun r => by
  unfold Blocked
  split <;> infer_instance

instance decidableMayBlock : DecidablePred MayBlock := fun r => by
  unfold MayBlock
  split <;> infer_instance

instance decidableLeftBehind : DecidablePred LeftBehind := fun r =>
  inferInstanceAs (Decidable (r.client = none ∧ r.MayBlock))

end Request

structure System where
  events : StateUpdateEvents := {}
  connected : List Nat := []
  requests : List Request := []

inductive Action
  | connect (c : Nat)
  | disconnect (c : Nat)
  | send (c : Nat) (work : Work)
  /-- A worker takes the request from the queue. -/
  | pick (r : Request)
  | enter (r : Request)
  | wake (r : Request)
  | timeout (r : Request)
  /-- The reply is sent, or the client is found to be gone: the worker is free. -/
  | finish (r : Request)
  | notify (kind : EventKind)
  | stop

namespace System

def busy (s : System) : Nat := s.requests.countP (·.Busy)

def blocked (s : System) : Nat := s.requests.countP (·.Blocked)

/-- The polls of ended connections that are blocked or will be. -/
def leftBehind (s : System) : Nat := s.requests.countP (·.LeftBehind)

def replace (s : System) (r r' : Request) : System :=
  { s with requests := r' :: s.requests.erase r }

def step (s : System) : Action → Option System
  | .connect c =>
    if c ∉ s.connected ∧ s.connected.length < maxClients then
      some { s with connected := c :: s.connected }
    else none
  | .disconnect c =>
    if c ∈ s.connected then some { s with
      connected := s.connected.erase c
      requests := s.requests.map (·.drop c) }
    else none
  | .send c work =>
    -- a client keeps one poll pending for each kind
    if c ∈ s.connected ∧ ∀ r ∈ s.requests, r.client = some c → r.work = work → work = .normal then
      some { s with requests := ⟨some c, work, .queued⟩ :: s.requests }
    else none
  | .pick r =>
    if r ∈ s.requests ∧ r.stage = .queued ∧ s.busy < poolSize then
      some (s.replace r { r with stage := .serving })
    else none
  | .enter r =>
    match r.work, r.stage with
    | .poll kind, .serving =>
      if r ∈ s.requests then
        some (s.replace r { r with
          stage := if s.events.stopped then .answering else .waiting (s.events.enter kind) })
      else none
    | _, _ => none
  | .wake r =>
    match r.work, r.stage with
    | .poll kind, .waiting seen =>
      if r ∈ s.requests ∧ s.events.predicate kind seen = true then
        some (s.replace r { r with stage := .answering })
      else none
    | _, _ => none
  | .timeout r =>
    match r.stage with
    | .waiting _ =>
      if r ∈ s.requests then some (s.replace r { r with stage := .answering }) else none
    | _ => none
  | .finish r =>
    if r ∈ s.requests ∧ (r.stage = .answering ∨ r.work = .normal ∧ r.stage = .serving) then
      some { s with requests := s.requests.erase r }
    else none
  | .notify kind => some { s with events := s.events.notify kind }
  | .stop => some { s with events := s.events.stop }

/-- Some worker of the listener is not blocked in `Wait`. -/
def WorkerFree (s : System) : Prop := s.blocked < poolSize

/-- A client connects only while few polls are left behind: the clients that are
connected then, with four polls each, leave a worker over. -/
def RoomToConnect (s : System) : Action → Prop
  | .connect _ => s.leftBehind + kinds.length * (s.connected.length + 1) < poolSize
  | _ => True

instance decidableRoomToConnect (s : System) (a : Action) : Decidable (s.RoomToConnect a) := by
  unfold RoomToConnect
  split <;> infer_instance

end System

/-! ## Counting the polls -/

section Counting

variable {requests : List Request} {r : Request} {c : Nat}

def keys (requests : List Request) : List (Nat × EventKind) := requests.filterMap Request.key

theorem mem_keys {p : Nat × EventKind} :
    p ∈ keys requests ↔ ∃ r ∈ requests, r.client = some p.1 ∧ r.work = .poll p.2 := by
  unfold keys
  rw [List.mem_filterMap]
  refine exists_congr fun r => and_congr_right fun _ => ?_
  obtain ⟨client, work, stage⟩ := r
  cases client <;> cases work <;> simp [Request.key, Prod.ext_iff]

theorem countP_le_add {α : Type*} {p q r : α → Bool} (h : ∀ x, p x = true → q x = true ∨ r x = true)
    (xs : List α) : xs.countP p ≤ xs.countP q + xs.countP r := by
  induction xs with
  | nil => exact Nat.zero_le _
  | cons x xs ih =>
    have hx := h x
    simp only [List.countP_cons]
    cases hp : p x with
    | false => simp only [Bool.false_eq_true, if_false]; omega
    | true =>
      rcases hx hp with hq | hr
      · simp only [hq, if_true]; omega
      · simp only [hr, if_true]; omega

theorem Request.Blocked.leftBehind_or_key (h : r.Blocked) :
    r.LeftBehind ∨ r.key.isSome = true := by
  obtain ⟨client, work, stage⟩ := r
  cases work with
  | normal => exact h.elim
  | poll kind =>
    cases client with
    | some c' => exact .inr rfl
    | none =>
      refine .inl ⟨rfl, fun hanswering => ?_⟩
      dsimp only at hanswering
      subst hanswering
      exact h

theorem Request.LeftBehind.of_stage {stage : Stage} (h : ({ r with stage } : Request).LeftBehind)
    (hr : r.stage ≠ .answering) : r.LeftBehind := by
  obtain ⟨client, work, stage'⟩ := r
  cases work with
  | poll kind => exact ⟨h.1, hr⟩
  | normal => exact h.2.elim

theorem Request.LeftBehind.of_drop (h : (r.drop c).LeftBehind) :
    r.LeftBehind ∨ ∃ kind, r.key = some (c, kind) := by
  obtain ⟨client, work, stage⟩ := r
  unfold Request.drop at h
  split at h
  · next heq =>
    dsimp only at heq
    subst heq
    cases work with
    | poll kind => exact .inr ⟨kind, rfl⟩
    | normal => exact h.2.elim
  · exact .inl h

theorem Request.key_drop (c : Nat) (r : Request) :
    (r.drop c).key = r.key.filter (·.1 ≠ c) := by
  obtain ⟨client, work, stage⟩ := r
  unfold Request.drop
  cases client with
  | none => cases work <;> rfl
  | some c' =>
    by_cases heq : c' = c
    · subst heq
      cases work <;> simp [Request.key, Option.filter]
    · cases work <;> simp [Request.key, Option.filter, heq]

/-- A blocked poll has been left behind, or it is the poll of a client for a kind. -/
theorem blocked_le (requests : List Request) :
    requests.countP (·.Blocked) ≤ requests.countP (·.LeftBehind) + (keys requests).length := by
  unfold keys
  rw [List.length_filterMap_eq_countP]
  refine countP_le_add (fun r hr => ?_) requests
  exact (of_decide_eq_true hr).leftBehind_or_key.imp_left decide_eq_true

theorem length_kinds_of_client (hnodup : (keys requests).Nodup) :
    ((keys requests).filter (·.1 = c)).length ≤ kinds.length := by
  have hlength : (kinds.map (Prod.mk c)).length = kinds.length := List.length_map _
  rw [← hlength]
  refine (List.subperm_of_subset (hnodup.filter _) fun p hp => ?_).length_le
  obtain ⟨-, hc⟩ := List.mem_filter.mp hp
  obtain rfl : p.1 = c := of_decide_eq_true hc
  exact List.mem_map.mpr ⟨p.2, by cases p.2 <;> decide, rfl⟩

theorem length_keys_le {connected : List Nat} (hnodup : (keys requests).Nodup)
    (hclients : ∀ p ∈ keys requests, p.1 ∈ connected) :
    (keys requests).length ≤ kinds.length * connected.length := by
  rw [Nat.mul_comm, ← List.length_product]
  refine (List.subperm_of_subset hnodup fun p hp => ?_).length_le
  exact List.mem_product.mpr ⟨hclients p hp, by cases p.2 <;> decide⟩

theorem keys_drop (c : Nat) (requests : List Request) :
    keys (requests.map (·.drop c)) = (keys requests).filter (·.1 ≠ c) := by
  unfold keys
  rw [List.filterMap_map, List.filter_filterMap]
  exact congrArg (fun f => requests.filterMap f) (funext (Request.key_drop c))

theorem leftBehind_drop (c : Nat) (requests : List Request) :
    (requests.map (·.drop c)).countP (·.LeftBehind) ≤
      requests.countP (·.LeftBehind) + ((keys requests).filter (·.1 = c)).length := by
  unfold keys
  rw [List.countP_map, ← List.countP_eq_length_filter, List.countP_filterMap]
  refine countP_le_add (fun r hr => ?_) requests
  rcases (of_decide_eq_true hr : (r.drop c).LeftBehind).of_drop with h | ⟨kind, hkey⟩
  · exact .inl (decide_eq_true h)
  · rw [hkey]
    exact .inr (decide_eq_true rfl)

end Counting

/-! ## The invariant -/

structure WithinLimits (s : System) : Prop where
  nodup : (keys s.requests).Nodup
  clients : ∀ p ∈ keys s.requests, p.1 ∈ s.connected
  room : s.leftBehind + kinds.length * s.connected.length < poolSize

theorem WithinLimits.workerFree {s : System} (h : WithinLimits s) : s.WorkerFree := by
  have hblocked : s.blocked ≤ s.leftBehind + (keys s.requests).length := blocked_le s.requests
  have hkeys := length_keys_le h.nodup h.clients
  have hroom := h.room
  unfold System.WorkerFree
  omega

section Steps

variable {s t : System} {c : Nat} {r r' : Request}

/-- A request that moves on stays whose it is and is not left behind by that. -/
theorem WithinLimits.replace (h : WithinLimits s) (hr : r ∈ s.requests) (hkey : r'.key = r.key)
    (hleft : r'.LeftBehind → r.LeftBehind) : WithinLimits (s.replace r r') := by
  have hperm : (r :: s.requests.erase r).Perm s.requests := (List.perm_cons_erase hr).symm
  have hkeys : (keys (r' :: s.requests.erase r)).Perm (keys s.requests) := by
    have hsame : keys (r' :: s.requests.erase r) = keys (r :: s.requests.erase r) := by
      simp only [keys, List.filterMap_cons, hkey]
    rw [hsame]
    exact hperm.filterMap _
  have hcount : (s.replace r r').leftBehind ≤ s.leftBehind := by
    unfold System.leftBehind System.replace
    rw [← hperm.countP_eq, List.countP_cons, List.countP_cons]
    by_cases hl : r'.LeftBehind
    · simp [hl, hleft hl]
    · simp [hl]
  exact ⟨hkeys.nodup_iff.mpr h.nodup, fun p hp => h.clients p (hkeys.mem_iff.mp hp),
    lt_of_le_of_lt (Nat.add_le_add_right hcount _) h.room⟩

theorem WithinLimits.finish (h : WithinLimits s) (r : Request) :
    WithinLimits { s with requests := s.requests.erase r } := by
  have hsub : (s.requests.erase r).Sublist s.requests := List.erase_sublist
  have hkeys : (keys (s.requests.erase r)).Sublist (keys s.requests) := hsub.filterMap _
  have hcount : (s.requests.erase r).countP (·.LeftBehind) ≤ s.leftBehind := hsub.countP_le
  exact ⟨h.nodup.sublist hkeys, fun p hp => h.clients p (hkeys.subset hp),
    lt_of_le_of_lt (Nat.add_le_add_right hcount _) h.room⟩

/-- The polls of a client that goes are left behind: at most one for each kind. -/
theorem WithinLimits.disconnect (h : WithinLimits s) (hc : c ∈ s.connected) :
    WithinLimits { s with
      connected := s.connected.erase c
      requests := s.requests.map (·.drop c) } := by
  refine ⟨?_, fun p hp => ?_, ?_⟩
  · dsimp only
    rw [keys_drop]
    exact h.nodup.filter _
  · dsimp only at hp ⊢
    rw [keys_drop, List.mem_filter] at hp
    exact (List.mem_erase_of_ne (of_decide_eq_true hp.2)).mpr (h.clients p hp.1)
  · have hleft := leftBehind_drop c s.requests
    have hkinds := length_kinds_of_client (c := c) h.nodup
    have hlength := List.length_erase_add_one hc
    have hroom := h.room
    unfold System.leftBehind at hroom ⊢
    dsimp only
    rw [show kinds.length = 4 from rfl] at *
    omega

theorem WithinLimits.connect (h : WithinLimits s)
    (hroom : s.leftBehind + kinds.length * (s.connected.length + 1) < poolSize) :
    WithinLimits { s with connected := c :: s.connected } where
  nodup := h.nodup
  clients p hp := List.mem_cons_of_mem c (h.clients p hp)
  room := hroom

theorem WithinLimits.send {work : Work} (h : WithinLimits s) (hc : c ∈ s.connected)
    (hnone : ∀ r ∈ s.requests, r.client = some c → r.work = work → work = .normal) :
    WithinLimits { s with requests := ⟨some c, work, .queued⟩ :: s.requests } := by
  have hroom : s.leftBehind + kinds.length * s.connected.length < poolSize := h.room
  cases work with
  | normal =>
    exact ⟨h.nodup, h.clients, by
      simpa [System.leftBehind, List.countP_cons, Request.LeftBehind] using hroom⟩
  | poll kind =>
    refine ⟨List.nodup_cons.mpr ⟨fun hmem => ?_, h.nodup⟩, fun p hp => ?_, ?_⟩
    · obtain ⟨r, hr, hclient, hwork⟩ := mem_keys.mp hmem
      cases hnone r hr hclient hwork
    · rcases List.mem_cons.mp hp with rfl | hp
      · exact hc
      · exact h.clients p hp
    · simpa [System.leftBehind, List.countP_cons, Request.LeftBehind] using hroom

end Steps

theorem step_withinLimits {s t : System} {a : Action} (h : WithinLimits s) (hok : s.RoomToConnect a)
    (hst : s.step a = some t) : WithinLimits t := by
  cases a with
  | connect c =>
    simp only [System.step] at hst
    split at hst <;> cases hst
    exact h.connect hok
  | disconnect c =>
    simp only [System.step] at hst
    split at hst <;> cases hst
    next hc => exact h.disconnect hc
  | send c work =>
    simp only [System.step] at hst
    split at hst <;> cases hst
    next hguard => exact h.send hguard.1 hguard.2
  | pick r =>
    simp only [System.step] at hst
    split at hst <;> cases hst
    next hguard =>
      exact h.replace hguard.1 rfl fun hl => hl.of_stage (by rw [hguard.2.1]; nofun)
  | enter r =>
    simp only [System.step] at hst
    split at hst
    · next hstage =>
      split at hst <;> cases hst
      next hr => exact h.replace hr rfl fun hl => hl.of_stage (by rw [hstage]; nofun)
    · cases hst
  | wake r =>
    simp only [System.step] at hst
    split at hst
    · next hstage =>
      split at hst <;> cases hst
      next hguard => exact h.replace hguard.1 rfl fun hl => hl.of_stage (by rw [hstage]; nofun)
    · cases hst
  | timeout r =>
    simp only [System.step] at hst
    split at hst
    · next hstage =>
      split at hst <;> cases hst
      next hr => exact h.replace hr rfl fun hl => hl.of_stage (by rw [hstage]; nofun)
    · cases hst
  | finish r =>
    simp only [System.step] at hst
    split at hst <;> cases hst
    exact h.finish r
  | notify kind =>
    cases hst
    exact ⟨h.nodup, h.clients, h.room⟩
  | stop =>
    cases hst
    exact ⟨h.nodup, h.clients, h.room⟩

/-! ## Long polls and normal requests -/

/-- **Long polls leave a worker of the listener free** in every run in which a client
connects only while few polls are left behind. -/
theorem worker_stays_free {s : System} (h : ReachableBy System.step System.RoomToConnect {} s) :
    s.WorkerFree := by
  have hinit : WithinLimits {} := ⟨List.nodup_nil, nofun, by decide⟩
  exact (h.invariant hinit step_withinLimits).workerFree

/-- A client connects, and its four polls come to block. -/
def follow (c : Nat) : List Action :=
  .connect c :: kinds.flatMap fun kind =>
    [.send c (.poll kind), .pick ⟨some c, .poll kind, .queued⟩,
      .enter ⟨some c, .poll kind, .serving⟩]

theorem worker_stays_free_follow :
    ∃ s, Reachable (guarded System.step System.RoomToConnect) {} s ∧ s.blocked = 8 ∧
      s.WorkerFree := by
  obtain ⟨s, hrun, hs⟩ := (Option.any_eq_true _ _).mp
    (show (run (guarded System.step System.RoomToConnect) {}
      (follow 0 ++ follow 1)).any (fun s => decide (s.blocked = 8)) = true by decide +kernel)
  exact ⟨s, ⟨_, hrun⟩, of_decide_eq_true hs, worker_stays_free (.of_guarded ⟨_, hrun⟩)⟩

/-- One client comes back seven times within the timeout of its first polls: all 32
workers are blocked, and a normal request stays in the queue. -/
theorem reconnects_block_the_pool :
    ∃ s, run System.step {} ((List.replicate 7 (follow 0 ++ [.disconnect 0])).flatten ++ follow 0 ++
        [.send 0 .normal]) = some s ∧
      s.connected = [0] ∧ ¬ s.WorkerFree ∧ s.step (.pick ⟨some 0, .normal, .queued⟩) = none := by
  obtain ⟨s, hrun, hs⟩ := (Option.any_eq_true _ _).mp
    (show (run System.step {} ((List.replicate 7 (follow 0 ++ [.disconnect 0])).flatten ++
      follow 0 ++ [.send 0 .normal])).any (fun s => decide (s.connected = [0] ∧ ¬ s.blocked < poolSize ∧
        (s.step (.pick ⟨some 0, .normal, .queued⟩)).isNone)) = true by decide +kernel)
  obtain ⟨hconnected, hblocked, hpick⟩ := of_decide_eq_true hs
  exact ⟨s, hrun, hconnected, hblocked, Option.isNone_iff_eq_none.mp hpick⟩

end RemoteControl.WorkerPool
