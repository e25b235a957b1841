import RemoteControl.Network.NetworkWatcher

/-!
# The listening addresses converge

* `PassTimes`: what the last pass read is not older than it says, and with no refresh
  requested it was read after the last request.
* `Serving`: a pass that is over without `retry` has left exactly the allowed listeners.
* `listeners_converge`: both, wherever the watcher thread is blocked in the untimed wait.
-/

namespace RemoteControl.NetworkWatcher

open Transition RemoteControlServer

variable {s t : System}

/-! ## When the last pass read -/

/-- What holds of the last pass while no refresh is requested. -/
def Current (requests : Nat) (lastPass : Pass) : Worker → Prop
  | .acquiring => False
  | .waiting _ | .handling .. =>
    lastPass.excludedAt = requests ∧ lastPass.addressesAt = requests
  | .readingExcluded _ => True
  | .readingAddresses _ _ => lastPass.excludedAt = requests
  | .exited => True

structure PassTimes (s : System) : Prop where
  excluded_le : s.lastPass.excludedAt ≤ s.requests
  addresses_le : s.lastPass.addressesAt ≤ s.requests
  excluded_eq : s.excludedWrittenAt < s.lastPass.excludedAt → s.lastPass.excluded = s.excludedIds
  addresses_eq : s.osChangedAt < s.lastPass.addressesAt → s.lastPass.addresses = s.osAddresses
  current : s.refreshRequested = false → Current s.requests s.lastPass s.worker

theorem initialized_passTimes (excludedIds : List Bytes) (osAddresses : List NetworkAddress) :
    PassTimes (initialized excludedIds osAddresses) where
  excluded_le := Nat.zero_le _
  addresses_le := Nat.zero_le _
  excluded_eq h := absurd h (Nat.not_lt_zero _)
  addresses_eq h := absurd h (Nat.not_lt_zero _)
  current h := by cases h

theorem PassTimes.withWorker (h : PassTimes s) {requested : Bool} {worker : Worker}
    (hcurrent : requested = false → Current s.requests s.lastPass worker) :
    PassTimes { s with refreshRequested := requested, worker := worker } :=
  ⟨h.excluded_le, h.addresses_le, h.excluded_eq, h.addresses_eq, hcurrent⟩

theorem PassTimes.beginPass (h : PassTimes s) : PassTimes s.beginPass :=
  h.withWorker fun _ => trivial

theorem PassTimes.loopHead (h : PassTimes s) {retry : Bool}
    (hcurrent : s.refreshRequested = false → Current s.requests s.lastPass (.waiting retry)) :
    PassTimes (s.loopHead retry) := by
  unfold System.loopHead
  split
  · exact h.withWorker fun _ => trivial
  · split
    · exact h.beginPass
    · exact h.withWorker hcurrent

theorem step_passTimes {a : Action} (h : PassTimes s) (hst : s.step a = some t) :
    PassTimes t := by
  have hcurrent := h.current
  cases a with
  | setExcludedInterfaces interfaceIds =>
    cases hst
    refine ⟨h.excluded_le, h.addresses_le, fun hlt => ?_, h.addresses_eq, h.current⟩
    exact absurd hlt (Nat.not_lt.mpr h.excluded_le)
  | osChange addresses =>
    cases hst
    refine ⟨h.excluded_le, h.addresses_le, h.excluded_eq, fun hlt => ?_, h.current⟩
    exact absurd hlt (Nat.not_lt.mpr h.addresses_le)
  | refresh =>
    cases hst
    exact ⟨Nat.le_succ_of_le h.excluded_le, Nat.le_succ_of_le h.addresses_le, h.excluded_eq,
      h.addresses_eq, (fun hfalse => by cases hfalse)⟩
  | subscribe handler | stop =>
    cases hst
    exact ⟨h.excluded_le, h.addresses_le, h.excluded_eq, h.addresses_eq, h.current⟩
  | acquire =>
    simp only [System.step] at hst
    split at hst <;> cases hst
    next hworker =>
      rw [hworker] at hcurrent
      exact h.loopHead fun hreq => (hcurrent hreq).elim
  | wake =>
    simp only [System.step] at hst
    split at hst <;> cases hst
    next hworker =>
      rw [hworker] at hcurrent
      exact h.loopHead hcurrent
  | timeout =>
    simp only [System.step] at hst
    split at hst <;> cases hst
    split
    · exact h.withWorker fun _ => trivial
    · exact h.beginPass
  | readExcluded =>
    simp only [System.step] at hst
    split at hst <;> cases hst
    exact ⟨Nat.le_refl _, h.addresses_le, fun _ => rfl, h.addresses_eq, fun _ => rfl⟩
  | readAddresses =>
    simp only [System.step] at hst
    split at hst <;> cases hst
    next hworker =>
      rw [hworker] at hcurrent
      exact ⟨h.excluded_le, Nat.le_refl _, h.excluded_eq, fun _ => rfl,
        fun hreq => ⟨hcurrent hreq, rfl⟩⟩
  | handler answer bind =>
    simp only [System.step] at hst
    split at hst <;> cases hst
    all_goals
      next hworker =>
        rw [hworker] at hcurrent
        exact ⟨h.excluded_le, h.addresses_le, h.excluded_eq, h.addresses_eq, hcurrent⟩
  | relock =>
    simp only [System.step] at hst
    split at hst <;> cases hst
    next hworker =>
      rw [hworker] at hcurrent
      exact h.loopHead hcurrent
  | serverStop =>
    simp only [System.step] at hst
    split at hst <;> cases hst
    exact ⟨h.excluded_le, h.addresses_le, h.excluded_eq, h.addresses_eq, h.current⟩

/-! ## What the passes leave on the server -/

/-- How far the worker's pass has brought the server. -/
def Progress (requested : Bool) (server : RemoteControlServer) (lastPass : Pass) :
    Worker → Prop
  | .acquiring => requested = true
  | .waiting retry => retry = true ∨ Synced server lastPass.allowed
  | .readingExcluded handlers => .http ∈ handlers
  | .readingAddresses handlers excluded => .http ∈ handlers ∧ excluded = lastPass.excluded
  | .handling allowed todo retry => allowed = lastPass.allowed ∧
      (.http ∈ todo ∨ retry = true ∨ Synced server lastPass.allowed)
  | .exited => True

structure Serving (s : System) : Prop where
  running : s.worker = .exited ∨ s.server.running = true
  nodup : s.server.listeners.Nodup
  subscribed : .http ∈ s.handlers
  progress : Progress s.refreshRequested s.server s.lastPass s.worker

theorem initialized_serving (excludedIds : List Bytes) (osAddresses : List NetworkAddress) :
    Serving (initialized excludedIds osAddresses) where
  running := Or.inr rfl
  nodup := List.nodup_nil
  subscribed := List.mem_cons_of_mem _ List.mem_cons_self
  progress := rfl

theorem Serving.running_of (h : Serving s) (hworker : s.worker ≠ .exited) :
    s.server.running = true :=
  h.running.resolve_left hworker

theorem Serving.exit (h : Serving s) : Serving { s with worker := .exited } :=
  ⟨Or.inl rfl, h.nodup, h.subscribed, trivial⟩

theorem Serving.beginPass (h : Serving s) (hworker : s.worker ≠ .exited) :
    Serving s.beginPass :=
  ⟨Or.inr (h.running_of hworker), h.nodup, h.subscribed, h.subscribed⟩

theorem Serving.loopHead (h : Serving s) (hworker : s.worker ≠ .exited) {retry : Bool}
    (hdone : s.refreshRequested = true ∨ retry = true ∨ Synced s.server s.lastPass.allowed) :
    Serving (s.loopHead retry) := by
  unfold System.loopHead
  split
  · exact h.exit
  · split
    · exact h.beginPass hworker
    · next hreq =>
      exact ⟨Or.inr (h.running_of hworker), h.nodup, h.subscribed, hdone.resolve_left hreq⟩

theorem Serving.reconcile (h : Serving s) (hworker : s.worker ≠ .exited)
    (bind : Nat → Bytes → Bool) {todo : List Handler} {retry : Bool} :
    Serving { s with
      server := (s.server.reconcile bind s.lastPass.allowed).2
      worker := .handling s.lastPass.allowed todo
        (retry || !(s.server.reconcile bind s.lastPass.allowed).1) } := by
  have hrunning := h.running_of hworker
  refine ⟨Or.inr (reconcile_running.trans hrunning), reconcile_nodup h.nodup, h.subscribed,
    rfl, Or.inr ?_⟩
  cases hanswer : (s.server.reconcile bind s.lastPass.allowed).1 with
  | true => exact Or.inr (reconcile_synced hrunning h.nodup hanswer)
  | false => exact Or.inl (by simp)

theorem step_serving {a : Action} (h : Serving s) (hst : s.step a = some t) : Serving t := by
  have hprogress := h.progress
  cases a with
  | setExcludedInterfaces interfaceIds | osChange addresses | stop =>
    cases hst
    exact ⟨h.running, h.nodup, h.subscribed, h.progress⟩
  | refresh =>
    cases hst
    refine ⟨h.running, h.nodup, h.subscribed, ?_⟩
    cases hworker : s.worker with
    | acquiring => rfl
    | _ =>
      rw [hworker] at hprogress
      exact hprogress
  | subscribe handler =>
    cases hst
    exact ⟨h.running, h.nodup, List.mem_append_left _ h.subscribed, h.progress⟩
  | acquire =>
    simp only [System.step] at hst
    split at hst <;> cases hst
    next hworker =>
      rw [hworker] at hprogress
      exact h.loopHead (by simp [hworker]) (Or.inl hprogress)
  | wake =>
    simp only [System.step] at hst
    split at hst <;> cases hst
    next hworker =>
      rw [hworker] at hprogress
      exact h.loopHead (by simp [hworker]) (Or.inr hprogress)
  | timeout =>
    simp only [System.step] at hst
    split at hst <;> cases hst
    next hworker =>
      split
      · exact h.exit
      · exact h.beginPass (by simp [hworker])
  | readExcluded =>
    simp only [System.step] at hst
    split at hst <;> cases hst
    next hworker =>
      rw [hworker] at hprogress
      exact ⟨Or.inr (h.running_of (by simp [hworker])), h.nodup, h.subscribed, hprogress, rfl⟩
  | readAddresses =>
    simp only [System.step] at hst
    split at hst <;> cases hst
    next hworker =>
      rw [hworker] at hprogress
      obtain ⟨hhttp, rfl⟩ := hprogress
      exact ⟨Or.inr (h.running_of (by simp [hworker])), h.nodup, h.subscribed, rfl, Or.inl hhttp⟩
  | handler answer bind =>
    simp only [System.step] at hst
    split at hst <;> cases hst
    · next hworker =>
      rw [hworker] at hprogress
      obtain ⟨hallowed, hdone⟩ := hprogress
      refine ⟨Or.inr (h.running_of (by simp [hworker])), h.nodup, h.subscribed, hallowed, ?_⟩
      rcases hdone with hhttp | hretry | hsynced
      · exact Or.inl (by simpa using hhttp)
      · exact Or.inr (Or.inl (by simp [hretry]))
      · exact Or.inr (Or.inr hsynced)
    · next hworker =>
      rw [hworker] at hprogress
      obtain ⟨rfl, -⟩ := hprogress
      exact h.reconcile (by simp [hworker]) bind
  | relock =>
    simp only [System.step] at hst
    split at hst <;> cases hst
    next hworker =>
      rw [hworker] at hprogress
      exact h.loopHead (by simp [hworker]) (Or.inr (hprogress.2.resolve_left (by simp)))
  | serverStop =>
    simp only [System.step] at hst
    split at hst <;> cases hst
    next hworker =>
      refine ⟨Or.inl hworker, List.nodup_nil, h.subscribed, ?_⟩
      rw [hworker]
      trivial

/-! ## Convergence -/

/-- Wherever the watcher thread is blocked in the untimed wait with no refresh
requested, its last pass read both lists after the last request, and the HTTP server
has exactly one listener for every address this pass allowed and none for any other.
What was written before the last request is what the pass read. -/
theorem listeners_converge {excludedIds : List Bytes} {osAddresses : List NetworkAddress}
    (h : Reachable System.step (initialized excludedIds osAddresses) s)
    (hworker : s.worker = .waiting false) (hreq : s.refreshRequested = false) :
    s.lastPass.excludedAt = s.requests ∧ s.lastPass.addressesAt = s.requests ∧
    (s.excludedWrittenAt < s.requests → s.lastPass.excluded = s.excludedIds) ∧
    (s.osChangedAt < s.requests → s.lastPass.addresses = s.osAddresses) ∧
    s.server.listeners.Nodup ∧
    ∀ address, address ∈ s.server.listeners ↔
      ∃ a ∈ allowedAddresses s.lastPass.excluded s.lastPass.addresses, a.address = address := by
  have htimes := h.invariant (initialized_passTimes excludedIds osAddresses) step_passTimes
  have hserving := h.invariant (initialized_serving excludedIds osAddresses) step_serving
  have hcurrent := htimes.current hreq
  have hprogress := hserving.progress
  rw [hworker] at hcurrent hprogress
  obtain ⟨hexcluded, haddresses⟩ := hcurrent
  have hsynced := hprogress.resolve_left (by simp)
  refine ⟨hexcluded, haddresses, fun hlt => ?_, fun hlt => ?_, hsynced.nodup, fun address => ?_⟩
  · exact htimes.excluded_eq (by omega)
  · exact htimes.addresses_eq (by omega)
  · exact (hsynced.mem_iff address).trans wanted_eq_true

/-- Two addresses of one interface and one of an excluded interface. -/
def sampleAddresses : List NetworkAddress :=
  [⟨ascii "lo", ascii "lo", ascii "127.0.0.1", true⟩,
    ⟨ascii "eth0", ascii "eth0", ascii "10.0.0.2", false⟩,
    ⟨ascii "lo", ascii "lo", ascii "127.0.0.1", true⟩]

/-- A first pass whose binds fail, a change of the exclusion list while it runs, and a
second pass that succeeds. -/
def sampleRun : List Action :=
  [.acquire, .readExcluded, .setExcludedInterfaces [ascii "eth0"], .readAddresses,
    .handler true fun _ _ => false, .handler true fun _ _ => false, .refresh, .relock,
    .readExcluded, .readAddresses, .handler true fun _ _ => true,
    .handler true fun _ _ => true, .relock]

theorem listeners_converge_sample :
    ∃ s, run System.step (initialized [] sampleAddresses) sampleRun = some s ∧
      s.worker = .waiting false ∧ s.refreshRequested = false ∧
      s.lastPass.excluded = s.excludedIds ∧
      ∀ address, address ∈ s.server.listeners ↔
        ∃ a ∈ allowedAddresses s.lastPass.excluded s.lastPass.addresses, a.address = address := by
  obtain ⟨s, hrun, hs⟩ := (Option.any_eq_true _ _).mp
    (show (run System.step (initialized [] sampleAddresses) sampleRun).any (fun s =>
      s.worker = .waiting false ∧ s.refreshRequested = false ∧ s.excludedWrittenAt < s.requests) =
        true by decide +kernel)
  obtain ⟨hworker, hreq, hwritten⟩ := of_decide_eq_true hs
  obtain ⟨-, -, hexcluded, -, -, hmem⟩ := listeners_converge ⟨_, hrun⟩ hworker hreq
  exact ⟨s, hrun, hworker, hreq, hexcluded hwritten, hmem⟩

end RemoteControl.NetworkWatcher
