import RemoteControl.Lib.Streaks
import RemoteControl.Network.RemoteControlServer

/-!
# Bind failures are reported once in a row

The calls of `Reconcile` of a server that runs and has its `BindFailure` handler, where a
bind answers the same for one address throughout a call.

* `reconcile_call`: what one call leaves, whatever the list and the binds.
* `bind_failures_once_per_streak`: over any sequence of calls the handler is called once in
  every maximal streak in which an address is allowed and ends up unbound.
-/

namespace RemoteControl.RemoteControlServer

open Streaks

variable {server : RemoteControlServer} {allowed : List NetworkAddress} {address x : Bytes}
  {binds : Bytes → Bool}

/-- How often the handler was called for an address. -/
def callsFor (server : RemoteControlServer) (address : Bytes) : Nat :=
  server.bindFailures.countP fun call => call.1 = address

/-! ## What the second loop does -/

/-- What the loop leaves once it has been through the addresses that meet `w`. -/
structure Tried (binds : Bytes → Bool) (server server' : RemoteControlServer) (w : Bytes → Prop)
    (complete : Bool) : Prop where
  bindFailure : server'.bindFailure = true
  listeners : ∀ x, x ∈ server'.listeners ↔ x ∈ server.listeners ∨ w x ∧ binds x = true
  reported : ∀ x, w x → (x ∈ server'.reportedBindFailures ↔ x ∉ server'.listeners)
  reported_rest : ∀ x, ¬w x →
    (x ∈ server'.reportedBindFailures ↔ x ∈ server.reportedBindFailures)
  calls_first : ∀ x, w x → x ∉ server'.listeners → x ∉ server.reportedBindFailures →
    server'.callsFor x = server.callsFor x + 1
  calls_rest : ∀ x, ¬(w x ∧ x ∉ server'.listeners ∧ x ∉ server.reportedBindFailures) →
    server'.callsFor x = server.callsFor x
  complete : complete = true ↔ ∀ x, w x → x ∈ server'.listeners

theorem Tried.none (h : server.bindFailure = true) :
    Tried binds server server (fun _ => False) true where
  bindFailure := h
  listeners x := by simp
  reported x hx := hx.elim
  reported_rest x _ := Iff.rfl
  calls_first x hx := hx.elim
  calls_rest x _ := rfl
  complete := by simp

theorem Tried.congr {server' : RemoteControlServer} {w v : Bytes → Prop} {complete : Bool}
    (h : Tried binds server server' w complete) (hiff : ∀ x, w x ↔ v x) :
    Tried binds server server' v complete := by
  have heq : w = v := funext fun x => propext (hiff x)
  exact heq ▸ h

/-- An address that is tried twice is bound, or reported, the first time. -/
theorem Tried.append {t u : RemoteControlServer} {w v : Bytes → Prop} {b c : Bool}
    (h : Tried binds server t w b) (h' : Tried binds t u v c) :
    Tried binds server u (fun x => w x ∨ v x) (b && c) := by
  have hlisteners : ∀ x, x ∈ u.listeners ↔ x ∈ server.listeners ∨ (w x ∨ v x) ∧ binds x = true := by
    intro x
    rw [h'.listeners, h.listeners]
    tauto
  have hsettled : ∀ x, w x → (x ∈ u.listeners ↔ x ∈ t.listeners) := by
    intro x hx
    rw [hlisteners, h.listeners]
    tauto
  have hreported : ∀ x, w x → (x ∈ u.reportedBindFailures ↔ x ∉ u.listeners) := by
    intro x hx
    by_cases hv : v x
    · exact h'.reported x hv
    · rw [h'.reported_rest x hv, h.reported x hx, hsettled x hx]
  refine ⟨h'.bindFailure, hlisteners, fun x hx => ?_, fun x hx => ?_, fun x hx hout hnew => ?_,
    fun x hx => ?_, ?_⟩
  · rcases hx with hw | hv
    · exact hreported x hw
    · exact h'.reported x hv
  · have ⟨hw, hv⟩ := not_or.mp hx
    rw [h'.reported_rest x hv, h.reported_rest x hw]
  · by_cases hw : w x
    · have hout' : x ∉ t.listeners := fun hin => hout ((hsettled x hw).mpr hin)
      have hold : x ∈ t.reportedBindFailures := (h.reported x hw).mpr hout'
      rw [h'.calls_rest x fun hx => hx.2.2 hold, h.calls_first x hw hout' hnew]
    · have hnew' : x ∉ t.reportedBindFailures := fun hin => hnew ((h.reported_rest x hw).mp hin)
      rw [h'.calls_first x (hx.resolve_left hw) hout hnew', h.calls_rest x fun hx => hw hx.1]
  · by_cases hw : w x
    · have hrest : ¬(x ∉ u.listeners ∧ x ∉ server.reportedBindFailures) :=
        fun hout => hx ⟨Or.inl hw, hout⟩
      rw [hsettled x hw] at hrest
      rw [h'.calls_rest x, h.calls_rest x fun hx => hrest hx.2]
      rintro ⟨-, hout, hnew⟩
      rw [hsettled x hw] at hout
      exact hnew ((h.reported x hw).mpr hout)
    · rw [h'.calls_rest x, h.calls_rest x fun hx => hw hx.1]
      rintro ⟨hv, hout, hnew⟩
      exact hx ⟨Or.inr hv, hout, fun hin => hnew ((h.reported_rest x hw).mpr hin)⟩
  · rw [Bool.and_eq_true, h.complete, h'.complete]
    constructor
    · rintro ⟨hwall, hvall⟩ x (hw | hv)
      · exact (hsettled x hw).mpr (hwall x hw)
      · exact hvall x hv
    · intro hall
      exact ⟨fun x hw => (hsettled x hw).mp (hall x (Or.inl hw)), fun x hv => hall x (Or.inr hv)⟩

/-! ## One entry of the list -/

theorem openEntry_of_bound (h : address ∈ server.listeners) (binds : Bool) :
    server.openEntry binds address = (true, { server with
      reportedBindFailures := server.reportedBindFailures.filter (· != address) }) := by
  unfold openEntry tryOpen
  rw [if_pos h]
  rfl

theorem openEntry_of_binds (h : address ∉ server.listeners) :
    server.openEntry true address = (true, { server with
      listeners := server.listeners ++ [address]
      reportedBindFailures := server.reportedBindFailures.filter (· != address) }) := by
  unfold openEntry tryOpen
  rw [if_neg h]
  rfl

theorem openEntry_of_fails (h : address ∉ server.listeners) :
    server.openEntry false address = (false, server.reportBindFailure address) := by
  unfold openEntry tryOpen
  rw [if_neg h]
  rfl

theorem reportBindFailure_first (h : server.bindFailure = true)
    (hnew : address ∉ server.reportedBindFailures) :
    server.reportBindFailure address = { server with
      reportedBindFailures := address :: server.reportedBindFailures
      bindFailures := (address, server.port) :: server.bindFailures } :=
  if_pos ⟨h, hnew⟩

theorem reportBindFailure_again (h : address ∈ server.reportedBindFailures) :
    server.reportBindFailure address = server :=
  if_neg fun hnew => hnew.2 h

theorem openEntry_tried (h : server.bindFailure = true) :
    Tried binds server (server.openEntry (binds address) address).2 (fun x => x = address)
      (server.openEntry (binds address) address).1 := by
  by_cases hbound : address ∈ server.listeners
  · rw [openEntry_of_bound hbound]
    refine ⟨h, fun x => ?_, ?_, fun x hx => ?_, ?_, fun x _ => rfl, ?_⟩
    · constructor
      · exact Or.inl
      · rintro (hx | ⟨rfl, -⟩)
        · exact hx
        · exact hbound
    · rintro x rfl
      simp [hbound]
    · simp [hx]
    · rintro x rfl hout
      exact absurd hbound hout
    · simp [hbound]
  · cases hbinds : binds address with
    | true =>
      rw [openEntry_of_binds hbound]
      refine ⟨h, fun x => ?_, ?_, fun x hx => ?_, ?_, fun x _ => rfl, ?_⟩
      · by_cases hx : x = address
        · simp [hx, hbinds]
        · simp [hx]
      · rintro x rfl
        simp
      · simp [hx]
      · rintro x rfl hout
        simp at hout
      · simp
    | false =>
      rw [openEntry_of_fails hbound]
      have hlisteners : ∀ x, x ∈ server.listeners ↔
          x ∈ server.listeners ∨ x = address ∧ binds x = true := by
        intro x
        by_cases hx : x = address
        · simp [hx, hbinds]
        · simp [hx]
      by_cases hreported : address ∈ server.reportedBindFailures
      · rw [reportBindFailure_again hreported]
        refine ⟨h, hlisteners, ?_, fun x _ => Iff.rfl, ?_, fun x _ => rfl, ?_⟩
        · rintro x rfl
          exact iff_of_true hreported hbound
        · rintro x rfl - hnew
          exact absurd hreported hnew
        · simp [hbound]
      · rw [reportBindFailure_first h hreported]
        refine ⟨h, hlisteners, ?_, fun x hx => ?_, ?_, fun x hx => ?_, ?_⟩
        · rintro x rfl
          simp [hbound]
        · simp [hx]
        · rintro x rfl - -
          simp [callsFor]
        · have hne : address ≠ x := fun heq => hx (heq ▸ ⟨rfl, hbound, hreported⟩)
          simp [callsFor, hne]
        · simp [hbound]

/-- The second loop. -/
theorem openAllowed_tried (h : server.bindFailure = true) (i : Nat) :
    Tried binds server (openAllowed (fun _ => binds) server i allowed).2
      (fun x => wanted allowed x = true) (openAllowed (fun _ => binds) server i allowed).1 := by
  induction allowed generalizing server i with
  | nil => exact (Tried.none h).congr fun x => by simp [wanted]
  | cons a allowed ih =>
    have hentry : Tried binds server (server.openEntry (binds a.address) a.address).2 _ _ :=
      openEntry_tried h
    refine (hentry.append (ih hentry.bindFailure (i + 1))).congr ?_
    intro x
    simp only [wanted, List.any_cons, Bool.or_eq_true, beq_iff_eq]
    exact or_congr_left eq_comm

/-! ## A call -/

/-- A running server with a handler; its listeners are at different addresses. -/
structure Armed (server : RemoteControlServer) : Prop where
  running : server.running = true
  bindFailure : server.bindFailure = true
  nodup : server.listeners.Nodup

/-- The list a call is made with, and what the binds answer. -/
structure Pass where
  allowed : List NetworkAddress
  binds : Bytes → Bool

def call (server : RemoteControlServer) (pass : Pass) : Bool × RemoteControlServer :=
  server.reconcile (fun _ => pass.binds) pass.allowed

/-- What a call leaves. -/
structure Settled (server : RemoteControlServer) (allowed : List NetworkAddress)
    (complete : Bool) : Prop where
  nodup : server.listeners.Nodup
  only : ∀ x ∈ server.listeners, wanted allowed x = true
  /-- `ReportedBindFailures` holds the allowed addresses without a listener. -/
  reported : ∀ x, x ∈ server.reportedBindFailures ↔
    wanted allowed x = true ∧ x ∉ server.listeners
  complete : complete = true ↔ server.reportedBindFailures = []

/-- The address is allowed and ends up unbound. -/
def Fails (server : RemoteControlServer) (pass : Pass) (address : Bytes) : Prop :=
  wanted pass.allowed address = true ∧ address ∉ (server.call pass).2.listeners

theorem call_tried (h : server.Armed) (pass : Pass) :
    Tried pass.binds (server.closeUnwanted pass.allowed) (server.call pass).2
      (fun x => wanted pass.allowed x = true) (server.call pass).1 := by
  unfold call reconcile
  rw [if_pos h.running]
  have hclosed : (server.closeUnwanted pass.allowed).bindFailure = true := h.bindFailure
  exact openAllowed_tried hclosed 0

theorem call_armed (h : server.Armed) (pass : Pass) : (server.call pass).2.Armed where
  running := reconcile_running.trans h.running
  bindFailure := (call_tried h pass).bindFailure
  nodup := reconcile_nodup h.nodup

theorem call_settled (h : server.Armed) (pass : Pass) :
    (server.call pass).2.Settled pass.allowed (server.call pass).1 := by
  have htried := call_tried h pass
  have hallowed : ∀ x ∈ (server.call pass).2.listeners, wanted pass.allowed x = true :=
    reconcile_only_wanted h.running
  have hreported : ∀ x, x ∈ (server.call pass).2.reportedBindFailures ↔
      wanted pass.allowed x = true ∧ x ∉ (server.call pass).2.listeners := by
    intro x
    by_cases hx : wanted pass.allowed x = true
    · rw [htried.reported x hx]
      exact (and_iff_right hx).symm
    · rw [htried.reported_rest x hx]
      simp [closeUnwanted, hx]
  refine ⟨(call_armed h pass).nodup, hallowed, hreported, ?_⟩
  rw [htried.complete, List.eq_nil_iff_forall_not_mem]
  constructor
  · intro hall x hx
    have ⟨hwanted, hout⟩ := (hreported x).mp hx
    exact hout (hall x hwanted)
  · intro hnone x hx
    by_contra hout
    exact hnone x ((hreported x).mpr ⟨hx, hout⟩)

/-- The handler is called for the failures that are not reported yet. -/
theorem call_callsFor (h : server.Armed) (pass : Pass) (address : Bytes) :
    (server.Fails pass address → address ∉ server.reportedBindFailures →
      (server.call pass).2.callsFor address = server.callsFor address + 1) ∧
    (¬(server.Fails pass address ∧ address ∉ server.reportedBindFailures) →
      (server.call pass).2.callsFor address = server.callsFor address) := by
  have htried := call_tried h pass
  constructor
  · rintro ⟨hwanted, hout⟩ hnew
    refine htried.calls_first address hwanted hout fun hmem => hnew ?_
    exact (List.mem_filter.mp hmem).1
  · intro hnot
    refine htried.calls_rest address ?_
    rintro ⟨hwanted, hout, hnew⟩
    refine hnot ⟨⟨hwanted, hout⟩, fun hmem => hnew ?_⟩
    exact List.mem_filter.mpr ⟨hmem, hwanted⟩

/-! ## Runs -/

/-- The server after some calls. -/
def after (server : RemoteControlServer) (passes : List Pass) : RemoteControlServer :=
  passes.foldl (fun server pass => (server.call pass).2) server

theorem after_concat (server : RemoteControlServer) (passes : List Pass) (pass : Pass) :
    server.after (passes ++ [pass]) = ((server.after passes).call pass).2 := by
  unfold after
  rw [List.foldl_append]
  rfl

theorem after_armed (h : server.Armed) (passes : List Pass) : (server.after passes).Armed := by
  induction passes generalizing server with
  | nil => exact h
  | cons pass passes ih => exact ih (call_armed h pass)

/-- The call `k` of the run is made with the address allowed and leaves it unbound. -/
def FailsAt (server : RemoteControlServer) (passes : List Pass) (address : Bytes) (k : Nat) :
    Prop :=
  ∃ pass, passes[k]? = some pass ∧ (server.after (passes.take k)).Fails pass address

theorem after_take_succ {passes : List Pass} {pass : Pass} {k : Nat}
    (hpass : passes[k]? = some pass) :
    server.after (passes.take (k + 1)) = ((server.after (passes.take k)).call pass).2 := by
  rw [List.take_add_one, hpass, Option.toList_some, after_concat]

/-- An address is reported before a call when the call before it failed. -/
theorem mem_reported_iff (h : server.Armed) (hnew : address ∉ server.reportedBindFailures)
    {passes : List Pass} {k : Nat} (hk : k ≤ passes.length) :
    address ∈ (server.after (passes.take k)).reportedBindFailures ↔
      ∃ m, m + 1 = k ∧ FailsAt server passes address m := by
  cases k with
  | zero => exact iff_of_false hnew fun ⟨m, hm, _⟩ => by omega
  | succ m =>
    have hpass := List.getElem?_eq_getElem hk
    have hsettled := call_settled (after_armed h (passes.take m)) passes[m]
    rw [after_take_succ hpass, hsettled.reported]
    constructor
    · intro hfails
      exact ⟨m, rfl, passes[m], hpass, hfails⟩
    · rintro ⟨m', hm', pass, hpass', hfails⟩
      cases hm'
      cases hpass.symm.trans hpass'
      exact hfails

theorem callsFor_countsStarts (h : server.Armed) (hnew : address ∉ server.reportedBindFailures)
    (passes : List Pass) :
    CountsStarts (FailsAt server passes address) passes.length
      fun k => (server.after (passes.take k)).callsFor address := by
  have hstep : ∀ k (hk : k < passes.length),
      (Starts (FailsAt server passes address) k ↔
        (server.after (passes.take k)).Fails passes[k] address ∧
          address ∉ (server.after (passes.take k)).reportedBindFailures) := by
    intro k hk
    have hpass := List.getElem?_eq_getElem hk
    rw [mem_reported_iff h hnew hk.le]
    constructor
    · rintro ⟨⟨pass, hpass', hfails⟩, hbefore⟩
      cases hpass.symm.trans hpass'
      exact ⟨hfails, fun ⟨m, hm, hfails⟩ => hbefore m hm hfails⟩
    · rintro ⟨hfails, hbefore⟩
      exact ⟨⟨passes[k], hpass, hfails⟩, fun m hm hfails => hbefore ⟨m, hm, hfails⟩⟩
  constructor
  · intro k hk hstarts
    have ⟨hfails, hnew⟩ := (hstep k hk).mp hstarts
    rw [after_take_succ (List.getElem?_eq_getElem hk)]
    exact (call_callsFor (after_armed h _) _ address).1 hfails hnew
  · intro k hk hnot
    rw [hstep k hk] at hnot
    rw [after_take_succ (List.getElem?_eq_getElem hk)]
    exact (call_callsFor (after_armed h _) _ address).2 hnot

/-- **A bind failure is reported once in every streak of failing calls**, and every call
settles the listeners and the reported failures. -/
theorem bind_failures_once_per_streak (h : server.Armed) (passes : List Pass) :
    (∀ pass, ((server.after passes).call pass).2.Settled pass.allowed
      ((server.after passes).call pass).1) ∧
    ∀ address, address ∉ server.reportedBindFailures →
      (∀ i j, Maximal (FailsAt server passes address) passes.length i j →
        (server.after (passes.take j)).callsFor address =
          (server.after (passes.take i)).callsFor address + 1) ∧
      (∀ k < passes.length, ¬FailsAt server passes address k →
        (server.after (passes.take (k + 1))).callsFor address =
          (server.after (passes.take k)).callsFor address) ∧
      (server.after passes).callsFor address = server.callsFor address +
        {streak : Nat × Nat |
          Maximal (FailsAt server passes address) passes.length streak.1 streak.2}.ncard := by
  refine ⟨fun pass => call_settled (after_armed h passes) pass, fun address hnew => ?_⟩
  have hcounts := callsFor_countsStarts h hnew passes
  have htotal := hcounts.total
  rw [List.take_length] at htotal
  exact ⟨fun i j hmax => hcounts.once hmax, fun k hk hnot => hcounts.outside hk hnot, htotal⟩

/-! An address fails twice, the second time listed twice, is bound, is not allowed, and
fails again. -/

def armedServer : RemoteControlServer := ({} : RemoteControlServer).onBindFailure.start 3333

def flakyAddress : NetworkAddress where
  interfaceId := ascii "eth0"
  interfaceName := ascii "Ethernet"
  address := ascii "10.0.0.1"

def flakyPasses : List Pass := [
  ⟨[flakyAddress], fun _ => false⟩,
  ⟨[flakyAddress, flakyAddress], fun _ => false⟩,
  ⟨[flakyAddress], fun _ => true⟩,
  ⟨[], fun _ => true⟩,
  ⟨[flakyAddress], fun _ => false⟩]

theorem bind_failures_of_two_streaks :
    armedServer.Armed ∧ (armedServer.after flakyPasses).callsFor flakyAddress.address = 2 ∧
      {streak : Nat × Nat | Maximal (FailsAt armedServer flakyPasses flakyAddress.address) 5
        streak.1 streak.2}.ncard = 2 := by
  have harmed : armedServer.Armed := ⟨rfl, rfl, List.nodup_nil⟩
  have htwo : (armedServer.after flakyPasses).callsFor flakyAddress.address = 2 := by
    decide +kernel
  have htotal := ((bind_failures_once_per_streak harmed flakyPasses).2 flakyAddress.address
    List.not_mem_nil).2.2
  have hnone : armedServer.callsFor flakyAddress.address = 0 := rfl
  rw [htwo, hnone, Nat.zero_add] at htotal
  exact ⟨harmed, htwo, htotal.symm⟩

end RemoteControl.RemoteControlServer
