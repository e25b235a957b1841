import RemoteControl.Events.Subscription

/-!
# Subscribed, and not any more

* `objects_there_while_held`: over any number of cycles, as long as the player gives up the
  managers' listener when asked to, and whatever its other calls answer, an object is there
  exactly as long as someone holds it, and no call reaches one that has deleted itself.
* `refused_unregister_uses_deleted`: where it keeps that listener, it calls one that has.
* `changes_notify_once`: while subscribed, each change notifies what its callbacks raise,
  once.
* `stopped_leaves_playlists`: after `Stop`, all that is left are listeners of playlists that
  are not loaded any more.
-/

namespace RemoteControl

open RefCounts Transition

namespace Subscription

namespace System

variable {s t : System} {answers : Answers} {hook : Nat} {extension : ManagerListener}

/-! ## Callbacks -/

theorem notifyAll_notifyAll (s : System) (kinds more : List EventKind) :
    (s.notifyAll kinds).notifyAll more = s.notifyAll (kinds ++ more) := by
  unfold notifyAll
  rw [List.foldl_append]

theorem callEach_spec {callback : Callback} {objects : List Nat}
    (h : Counts s.heap s.holders) (hmem : ∀ o ∈ objects, o ∈ s.holders) :
    Succeeds (s.callEach callback objects) fun t =>
      t = s.notifyAll (objects.flatMap fun _ => callback.raises.toList) := by
  induction objects generalizing s with
  | nil => exact Succeeds.pure rfl
  | cons o objects ih =>
    unfold callEach
    refine Succeeds.bind (h.used (hmem o List.mem_cons_self)) fun _ _ => ?_
    have hrest : ∀ o ∈ objects, o ∈ (s.raise callback).holders :=
      fun o ho => hmem o (List.mem_cons_of_mem _ ho)
    refine Succeeds.weaken (ih h hrest) ?_
    rintro t rfl
    exact notifyAll_notifyAll _ _ _

theorem listeners_concat (front : List PlaylistObject) (playlist : PlaylistObject) (o : Nat) :
    ((front ++ [{ playlist with listeners := playlist.listeners ++ [o] }]).flatMap
      PlaylistObject.listeners).Perm
      (o :: (front ++ [playlist]).flatMap PlaylistObject.listeners) := by
  simp only [List.flatMap_append, List.flatMap_singleton, ← List.append_assoc]
  exact List.perm_append_singleton _ _

/-- The listeners that a new playlist takes. -/
def taken (accepts : Bool) (extensions : List ManagerListener) : List Nat :=
  if accepts then extensions.map ManagerListener.listener else []

theorem taken_cons (accepts : Bool) (e : ManagerListener) (extensions : List ManagerListener) :
    taken accepts (e :: extensions) =
      (if accepts then [e.listener] else []) ++ taken accepts extensions := by
  cases accepts <;> rfl

theorem taken_nil (accepts : Bool) : taken accepts [] = [] := by
  cases accepts <;> rfl

variable {accepts : Bool} {front : List PlaylistObject} {playlist : PlaylistObject}

theorem listenAdded_spec {listener : Nat} (h : Counts s.heap s.holders)
    (hplaylists : s.player.playlists = front ++ [playlist])
    (hmem : listener ∈ s.members.pointers) :
    Succeeds (s.listenAdded accepts listener) fun t =>
      Counts t.heap t.holders ∧ t.members = s.members ∧ t.player = { s.player with
        playlists := front ++ [{ playlist with
          listeners := playlist.listeners ++ if accepts then [listener] else [] }] } := by
  unfold listenAdded
  cases accepts with
  | false =>
    refine Succeeds.pure ⟨h, rfl, ?_⟩
    simp only [Bool.false_eq_true, if_false, List.append_nil, ← hplaylists]
  | true =>
    refine Succeeds.weaken (keep_spec _ h (Multiset.mem_add.mpr (Or.inl hmem)) ?_) ?_
    · rw [hplaylists, List.modifyLast_concat]
      unfold Player.pointers
      rw [hplaylists]
      have hperm := listeners_concat front playlist listener
      refine ((hperm.append_left _).append_left _).trans ?_
      exact (List.perm_middle.append_left _).trans List.perm_middle
    · rintro t ⟨hcounts, hplayer, hmembers⟩
      refine ⟨hcounts, hmembers, ?_⟩
      rw [hplayer, hplaylists, List.modifyLast_concat]
      rfl

theorem addedEach_spec {extensions : List ManagerListener} (h : Counts s.heap s.holders)
    (hplaylists : s.player.playlists = front ++ [playlist])
    (hmem : ∀ e ∈ extensions, e.object ∈ s.members.pointers ∧ e.listener ∈ s.members.pointers) :
    Succeeds (s.addedEach accepts extensions) fun t => Counts t.heap t.holders ∧ ∃ heap,
      t = { (s.withPlaylists (front ++
          [{ playlist with listeners := playlist.listeners ++ taken accepts extensions }])).notifyAll
            (extensions.map fun _ => .playlists) with heap } := by
  induction extensions generalizing s playlist with
  | nil =>
    refine Succeeds.pure ⟨h, s.heap, ?_⟩
    rw [taken_nil, List.append_nil, ← hplaylists]
    rfl
  | cons e extensions ih =>
    obtain ⟨hobject, hlistener⟩ := hmem e List.mem_cons_self
    unfold addedEach
    refine Succeeds.bind (h.used (Multiset.mem_add.mpr (Or.inl hobject))) fun _ _ => ?_
    refine Succeeds.bind (listenAdded_spec h hplaylists hlistener) ?_
    rintro ⟨heap₁, player₁, members₁⟩ ⟨hcounts₁, hmembers₁, hplayer₁⟩
    simp only at hmembers₁ hplayer₁
    subst hmembers₁ hplayer₁
    refine Succeeds.weaken (ih hcounts₁ rfl fun e' he' => hmem e' (List.mem_cons_of_mem _ he')) ?_
    rintro t ⟨hcounts, heap, rfl⟩
    refine ⟨hcounts, heap, ?_⟩
    rw [taken_cons, ← List.append_assoc]
    rfl

theorem mem_holders {o : Nat} (h : o ∈ s.player.pointers) : o ∈ s.holders :=
  Multiset.mem_add.mpr (Or.inr h)

theorem hook_mem_holders {o : Nat} (h : o ∈ s.player.hooks) : o ∈ s.holders :=
  mem_holders (List.mem_append_left _ h)

theorem extension_mem_holders {o : Nat} (h : o ∈ s.extensionObjects) : o ∈ s.holders :=
  mem_holders (List.mem_append_right _ (List.mem_append_left _ h))

theorem listener_mem_holders {o : Nat} (hplaylist : playlist ∈ s.player.playlists)
    (h : o ∈ playlist.listeners) : o ∈ s.holders :=
  mem_holders (List.mem_append_right _ (List.mem_append_right _
    (List.mem_flatMap.mpr ⟨playlist, hplaylist, h⟩)))

/-- The playlists after an event. -/
def playlistsAfter (s : System) : PlayerEvent → List PlaylistObject
  | .message _ | .changed .. | .activated _ => s.player.playlists
  | .added accepts => s.player.playlists ++ [⟨true, taken accepts s.player.extensions⟩]
  | .removed i => s.player.playlists.modify i fun playlist => { playlist with loaded := false }
  | .freed i => s.player.playlists.eraseIdx i

/-- What the objects notify of an event. -/
def raised (s : System) : PlayerEvent → List EventKind
  | .message message =>
    s.player.hooks.flatMap fun _ => (Callback.coreMessage message).raises.toList
  | .changed i flags =>
    (s.player.playlists[i]?.toList.flatMap PlaylistObject.listeners).flatMap fun _ =>
      (Callback.changed flags).raises.toList
  | .activated _ | .freed _ => []
  | .added _ => s.player.extensions.map fun _ => .playlists
  | .removed i =>
    (s.extensionObjects.flatMap fun _ => Callback.playlistRemoved.raises.toList) ++
      (s.player.playlists[i]?.toList.flatMap PlaylistObject.listeners).flatMap fun _ =>
        Callback.removed.raises.toList

theorem holders_withPlaylists {playlists : List PlaylistObject}
    (h : (playlists.flatMap PlaylistObject.listeners).Perm
      (s.player.playlists.flatMap PlaylistObject.listeners)) :
    (s.withPlaylists playlists).holders = s.holders := by
  rw [holders_others, holders_others]
  exact congrArg (· + s.others) (Multiset.coe_eq_coe.mpr h)

theorem listeners_set {playlists : List PlaylistObject} {i : Nat} {after : PlaylistObject}
    (h : playlists[i]? = some playlist) (hsame : after.listeners = playlist.listeners) :
    (playlists.set i after).flatMap PlaylistObject.listeners =
      playlists.flatMap PlaylistObject.listeners := by
  induction playlists generalizing i with
  | nil => rfl
  | cons first playlists ih =>
    cases i with
    | zero =>
      cases h
      rw [List.set_cons_zero, List.flatMap_cons, List.flatMap_cons, hsame]
    | succ i => rw [List.set_cons_succ, List.flatMap_cons, List.flatMap_cons, ih h]

theorem listeners_eraseIdx {playlists : List PlaylistObject} {i : Nat}
    (h : playlists[i]? = some playlist) :
    (playlists.flatMap PlaylistObject.listeners).Perm
      (playlist.listeners ++ (playlists.eraseIdx i).flatMap PlaylistObject.listeners) := by
  obtain ⟨hlt, hget⟩ := List.getElem?_eq_some_iff.mp h
  have hperm := (List.getElem_cons_eraseIdx_perm hlt).symm.flatMap_right PlaylistObject.listeners
  rwa [hget, List.flatMap_cons] at hperm

theorem removed_spec {i : Nat} (h : Counts s.heap s.holders)
    (hi : s.player.playlists[i]? = some playlist) :
    Succeeds (do
      let s := s.withPlaylists (s.player.playlists.set i { playlist with loaded := false })
      let s ← s.callEach .playlistRemoved s.extensionObjects
      s.callEach .removed playlist.listeners) fun t =>
        Counts t.heap t.holders ∧
          t = (s.withPlaylists (s.playlistsAfter (.removed i))).notifyAll (s.raised (.removed i)) := by
  have hset : s.playlistsAfter (.removed i) =
      s.player.playlists.set i { playlist with loaded := false } := by
    rw [playlistsAfter, List.modify_eq_set_getElem?, hi]
    rfl
  have hraised : s.raised (.removed i) =
      (s.extensionObjects.flatMap fun _ => Callback.playlistRemoved.raises.toList) ++
        playlist.listeners.flatMap fun _ => Callback.removed.raises.toList := by
    rw [raised, hi, Option.toList_some, List.flatMap_singleton]
  rw [hset, hraised]
  have hlisteners :
      (s.player.playlists.set i { playlist with loaded := false }).flatMap
        PlaylistObject.listeners = s.player.playlists.flatMap PlaylistObject.listeners :=
    listeners_set hi rfl
  have hholders := holders_withPlaylists (s := s) (.of_eq hlisteners)
  have hcounts : Counts s.heap (s.withPlaylists _).holders := hholders ▸ h
  refine Succeeds.bind (callEach_spec hcounts fun o ho => extension_mem_holders ho) ?_
  rintro s₁ rfl
  refine Succeeds.weaken (callEach_spec (s := notifyAll _ _) hcounts fun o ho => ?_) ?_
  · show o ∈ (s.withPlaylists _).holders
    rw [hholders]
    exact listener_mem_holders (List.mem_of_getElem? hi) ho
  · rintro t rfl
    exact ⟨hcounts, notifyAll_notifyAll _ _ _⟩

theorem happen_spec {event : PlayerEvent} {r : Except Nat System} (h : Counts s.heap s.holders)
    (hfits : s.Fits)
    (hextensions : ∀ e ∈ s.player.extensions,
      e.object ∈ s.members.pointers ∧ e.listener ∈ s.members.pointers)
    (hr : s.happen event = some r) :
    Succeeds r fun t => Counts t.heap t.holders ∧ ∃ heap,
      t = { (s.withPlaylists (s.playlistsAfter event)).notifyAll (s.raised event) with heap } := by
  cases event with
  | message message =>
    cases hr
    refine Succeeds.weaken (callEach_spec h fun o ho => hook_mem_holders ho) ?_
    rintro t rfl
    exact ⟨h, s.heap, rfl⟩
  | changed i flags =>
    obtain ⟨playlist, hi, rfl⟩ := Option.map_eq_some_iff.mp hr
    refine Succeeds.weaken (callEach_spec h fun o ho =>
      listener_mem_holders (List.mem_of_getElem? hi) ho) ?_
    rintro t rfl
    refine ⟨h, s.heap, ?_⟩
    rw [raised, hi, Option.toList_some, List.flatMap_singleton]
    rfl
  | activated i =>
    obtain ⟨playlist, hfilter, rfl⟩ := Option.map_eq_some_iff.mp hr
    obtain ⟨hi, -⟩ := Option.filter_eq_some_iff.mp hfilter
    refine Succeeds.bind (callEach_spec h fun o ho => extension_mem_holders ho) ?_
    rintro s₁ rfl
    refine Succeeds.weaken (callEach_spec (s := s.notifyAll _) h fun o ho =>
      listener_mem_holders (s := s.notifyAll _) (List.mem_of_getElem? hi) ho) ?_
    rintro t rfl
    have hnone (objects : List Nat) : (objects.flatMap fun _ => ([] : List EventKind)) = [] :=
      List.flatMap_eq_nil_iff.mpr fun _ _ => rfl
    refine ⟨h, s.heap, ?_⟩
    simp only [notifyAll_notifyAll, Callback.raises, Option.toList_none, hnone, raised]
    rfl
  | added accepts =>
    cases hr
    generalize hadded : s.withPlaylists (s.player.playlists ++ [⟨true, []⟩]) = added
    have hholders : added.holders = s.holders := by
      rw [← hadded]
      refine holders_withPlaylists ?_
      rw [List.flatMap_append, List.flatMap_singleton, List.append_nil]
    have hcounts : Counts added.heap added.holders := by
      rw [hholders, ← hadded]
      exact h
    have hplaylists : added.player.playlists = s.player.playlists ++ [⟨true, []⟩] := by
      rw [← hadded]
      rfl
    refine Succeeds.weaken (addedEach_spec hcounts hplaylists ?_) ?_
    · rw [← hadded]
      exact hextensions
    · rintro t ⟨hcounts, heap, rfl⟩
      exact ⟨hcounts, heap, by rw [← hadded]; rfl⟩
  | removed i =>
    obtain ⟨playlist, hfilter, rfl⟩ := Option.map_eq_some_iff.mp hr
    obtain ⟨hi, -⟩ := Option.filter_eq_some_iff.mp hfilter
    refine Succeeds.weaken (removed_spec h hi) ?_
    rintro t ⟨hcounts, rfl⟩
    exact ⟨hcounts, s.heap, rfl⟩
  | freed i =>
    obtain ⟨playlist, hfilter, rfl⟩ := Option.map_eq_some_iff.mp hr
    obtain ⟨hi, -⟩ := Option.filter_eq_some_iff.mp hfilter
    have hholders : s.holders = Multiset.ofList playlist.listeners +
        (s.withPlaylists (s.player.playlists.eraseIdx i)).holders := by
      rw [holders_others, holders_others, Multiset.coe_eq_coe.mpr (listeners_eraseIdx hi),
        ← Multiset.coe_add, Multiset.add_assoc]
      rfl
    rw [hholders] at h
    rw [Fits, hholders] at hfits
    refine Succeeds.bind (h.releaseAll hfits) fun heap hheap => Succeeds.pure ⟨hheap, heap, rfl⟩

/-! ## The objects -/

structure Inv (s : System) : Prop where
  counts : Counts s.heap s.holders
  idle : s.members.core = false → s.Idle
  active : s.members.core = true → ∃ hook extension, s.Active hook extension

theorem Active.extension_pointers (h : s.Active hook extension) :
    ∀ e ∈ s.player.extensions, e.object ∈ s.members.pointers ∧ e.listener ∈ s.members.pointers := by
  intro e he
  have hone := h.extensions.resolve_left (List.ne_nil_of_mem he)
  cases List.mem_singleton.mp (hone ▸ he)
  unfold Members.pointers
  rw [h.playlistListener, h.managerListener]
  exact ⟨List.mem_append_right _ (List.mem_append_right _ List.mem_cons_self),
    List.mem_append_right _ (List.mem_append_left _ List.mem_cons_self)⟩

theorem Inv.extension_pointers (h : s.Inv) :
    ∀ e ∈ s.player.extensions, e.object ∈ s.members.pointers ∧ e.listener ∈ s.members.pointers := by
  cases hcore : s.members.core with
  | false =>
    rw [(h.idle hcore).extensions]
    exact fun e he => absurd he List.not_mem_nil
  | true =>
    obtain ⟨hook, extension, hactive⟩ := h.active hcore
    exact hactive.extension_pointers

/-- `UnregisterExtension`, whose answer `Stop` ignores, does not refuse. -/
def Unregisters (s : System) : Action → Prop
  | .stop answers => s.player.extensions = [] ∨ answers.register = true
  | .start _ | .player _ => True

instance (s : System) (action : Action) : Decidable (s.Unregisters action) := by
  unfold Unregisters
  split <;> infer_instance

theorem outcome_inv {action : Action} {r : Except Nat System} (hinv : s.Inv) (hfits : s.Fits)
    (h : s.outcome action = some r) : Succeeds r fun t => s.Unregisters action → t.Inv := by
  cases action with
  | start answers =>
    rw [outcome] at h
    split at h
    · cases h
    · next hcore =>
      cases h
      have hidle := hinv.idle (Bool.eq_false_iff.mpr hcore)
      refine Succeeds.weaken (start_spec hinv.counts hidle) ?_
      rintro t ⟨hcounts, hcore, hook, extension, hactive, -⟩
      exact fun _ => ⟨hcounts, fun hfalse => absurd (hfalse.symm.trans hcore) nofun,
        fun _ => ⟨hook, extension, hactive⟩⟩
  | stop answers =>
    cases h
    cases hcore : s.members.core with
    | false =>
      unfold stop
      rw [if_neg (by rw [hcore]; exact Bool.false_ne_true)]
      obtain ⟨hhook, hlistener, hmanager, hextensions⟩ := hinv.idle hcore
      exact Succeeds.pure fun _ => ⟨hinv.counts, fun _ => ⟨hhook, hlistener, hmanager, hextensions⟩,
        fun htrue => absurd (hcore.symm.trans htrue) nofun⟩
    | true =>
      obtain ⟨hook, extension, hactive⟩ := hinv.active hcore
      refine Succeeds.weaken (stop_of_core hinv.counts hfits hcore hactive) ?_
      rintro t ⟨hcounts, hstopped, hidle, -⟩
      exact fun hgiven => ⟨hcounts, fun _ => hidle hgiven,
        fun htrue => absurd (hstopped.symm.trans htrue) nofun⟩
  | player event =>
    refine Succeeds.weaken (happen_spec hinv.counts hfits hinv.extension_pointers h) ?_
    rintro _ ⟨hcounts, heap, rfl⟩
    refine fun _ => ⟨hcounts, fun hcore => ?_, fun hcore => ?_⟩
    · obtain ⟨hhook, hlistener, hmanager, hextensions⟩ := hinv.idle hcore
      exact ⟨hhook, hlistener, hmanager, hextensions⟩
    · obtain ⟨hook, extension, hhook, hlistener, hmanager, hextensions⟩ := hinv.active hcore
      exact ⟨hook, extension, hhook, hlistener, hmanager, hextensions⟩

theorem init_inv : Inv {} := ⟨Counts.empty, fun _ => ⟨rfl, rfl, rfl, rfl⟩, nofun⟩

theorem step_eq_some {action : Action} (h : s.step action = some t) :
    s.outcome action = some (.ok t) := by
  unfold step at h
  split at h
  · next houtcome =>
    cases h
    exact houtcome
  · cases h

theorem step_inv {action : Action} (hinv : s.Inv) (hfits : s.Fits) (hgiven : s.Unregisters action)
    (h : s.step action = some t) : t.Inv := by
  obtain ⟨_, ⟨⟩, ht⟩ := outcome_inv hinv hfits (step_eq_some h)
  exact ht hgiven

/-- In every state that any number of `Start`s and `Stop`s reach, the player giving up the
managers' listener whenever it is asked to and whatever its other calls answer, an object is
there exactly as long as someone holds it; and nothing that can happen next calls one that is
not there, or gives it back. -/
theorem objects_there_while_held
    (h : ReachableBy step (fun s action => s.Fits ∧ s.Unregisters action) {} s) (hfits : s.Fits) :
    (∀ o, (s.heap.counter o).isSome = true ↔ o ∈ s.holders) ∧
      ∀ action o, s.outcome action ≠ some (.error o) := by
  have hinv : s.Inv :=
    h.invariant init_inv fun hinv hok hst => step_inv hinv hok.1 hok.2 hst
  refine ⟨fun o => hinv.counts.alive_iff, fun action o herror => ?_⟩
  obtain ⟨t, hok, -⟩ := outcome_inv hinv hfits herror
  cases hok

instance (s : System) : Decidable s.Fits := inferInstanceAs (Decidable (_ < _))

/-- Every call works. -/
def allWorks : Answers := ⟨true, true, true, true, fun _ => true, fun _ => true⟩

/-- A second `Start`, after a playlist that was gone before `Stop`. -/
def sampleCycles : List Action :=
  [.player (.added true), .start allWorks, .player (.added true), .player (.removed 0),
    .stop allWorks, .player (.changed 0 .content), .start allWorks]

/-- The same, where `Stop` is refused its hook and the listener of a playlist. -/
def sampleRefusals : List Action :=
  [.player (.added true), .start allWorks, .player (.added true), .player (.removed 0),
    .stop { allWorks with hook := false, listen := fun _ => false },
    .player (.changed 0 .content), .start allWorks]

theorem objects_there_while_held_sample :
    ∃ s, run (guarded step fun s action => s.Fits ∧ s.Unregisters action) {} sampleRefusals =
        some s ∧ s.player.pointers.length = 6 ∧
      (∀ o, (s.heap.counter o).isSome = true ↔ o ∈ s.holders) ∧
        ∀ action o, s.outcome action ≠ some (.error o) := by
  obtain ⟨s, hs⟩ := Option.isSome_iff_exists.mp
    (show ((run (guarded step fun s action => s.Fits ∧ s.Unregisters action) {}
      sampleRefusals).filter fun s => s.player.pointers.length = 6 ∧ s.Fits).isSome = true by
        decide +kernel)
  obtain ⟨hrun, hsample⟩ := Option.filter_eq_some_iff.mp hs
  obtain ⟨hlength, hfits⟩ := of_decide_eq_true hsample
  exact ⟨s, hrun, hlength, objects_there_while_held (.of_guarded ⟨_, hrun⟩) hfits⟩

/-- A player that keeps the managers' listener hands the playlists' listener, which `Stop`
has deleted, to the next playlist. -/
theorem refused_unregister_uses_deleted :
    ∃ s o, run step {} [.start allWorks, .stop { allWorks with register := false }] = some s ∧
      s.heap.counter o = none ∧ s.outcome (.player (.added true)) = some (.error o) := by
  exact ⟨_, 1, rfl, rfl, rfl⟩

/-! ## A player whose calls all work -/

/-- The calls that an action makes all work. -/
def Works : Action → Prop
  | .start answers | .stop answers => answers.All
  | .player (.added accepts) => accepts = true
  | .player _ => True

theorem Works.unregisters {action : Action} (h : Works action) : s.Unregisters action := by
  cases action with
  | stop answers => exact Or.inr h.2.2.1
  | start | player => trivial

/-- The listeners of each loaded playlist. -/
def ListenedBy (s : System) (listeners : List Nat) : Prop :=
  ∀ playlist ∈ s.player.playlists, playlist.loaded = true → playlist.listeners = listeners

structure Wired (s : System) (hook : Nat) (extension : ManagerListener) : Prop where
  hooks : s.player.hooks = [hook]
  extensions : s.player.extensions = [extension]
  listeners : s.ListenedBy [extension.listener]

structure Tidy (s : System) : Prop where
  inv : s.Inv
  clean : s.members.core = false → s.player.hooks = [] ∧ s.ListenedBy []
  wired : s.members.core = true → ∃ hook extension, s.Active hook extension ∧ s.Wired hook extension

theorem ListenedBy.heard {listeners : List Nat} {listener : Nat} (h : s.ListenedBy listeners)
    (ht : t.player.playlists = s.player.playlists.map (PlaylistObject.heard listener)) :
    t.ListenedBy (listeners ++ [listener]) := by
  intro playlist hmem hloaded
  rw [ht] at hmem
  obtain ⟨old, hold, rfl⟩ := List.mem_map.mp hmem
  unfold PlaylistObject.heard at hloaded ⊢
  split at hloaded
  · next holdLoaded => rw [if_pos holdLoaded, h old hold holdLoaded]
  · next hunloaded => exact absurd hloaded hunloaded

theorem ListenedBy.unheard {listeners : List Nat} {listener : Nat} (h : s.ListenedBy listeners)
    (ht : t.player.playlists = s.player.playlists.map (PlaylistObject.unheard listener)) :
    t.ListenedBy (listeners.erase listener) := by
  intro playlist hmem hloaded
  rw [ht] at hmem
  obtain ⟨old, hold, rfl⟩ := List.mem_map.mp hmem
  unfold PlaylistObject.unheard at hloaded ⊢
  split at hloaded
  · next holdLoaded => rw [if_pos holdLoaded, h old hold holdLoaded]
  · next hunloaded => exact absurd hloaded hunloaded

/-- An event leaves the loaded playlists as they were, but for a new one. -/
theorem ListenedBy.after {event : PlayerEvent} {listeners : List Nat} (h : s.ListenedBy listeners)
    (hadded : ∀ accepts, event = .added accepts → taken accepts s.player.extensions = listeners) :
    (s.withPlaylists (s.playlistsAfter event)).ListenedBy listeners := by
  intro playlist hmem hloaded
  cases event with
  | message | changed | activated => exact h playlist hmem hloaded
  | added accepts =>
    rcases List.mem_append.mp hmem with hold | hnew
    · exact h playlist hold hloaded
    · cases List.mem_singleton.mp hnew
      exact hadded accepts rfl
  | removed i =>
    obtain ⟨k, hk, rfl⟩ := List.mem_iff_getElem.mp hmem
    simp only [withPlaylists, playlistsAfter, List.getElem_modify] at hloaded ⊢
    split at hloaded
    · cases hloaded
    · next hne =>
      rw [if_neg hne]
      exact h _ (List.getElem_mem _) hloaded
  | freed i => exact h playlist (List.mem_of_mem_eraseIdx hmem) hloaded

theorem outcome_tidy {action : Action} {r : Except Nat System} (htidy : s.Tidy) (hfits : s.Fits)
    (hworks : Works action) (h : s.outcome action = some r) : Succeeds r Tidy := by
  obtain ⟨t, rfl, hinv⟩ := outcome_inv htidy.inv hfits h
  have hinv := hinv hworks.unregisters
  suffices hparts : (t.members.core = false → t.player.hooks = [] ∧ t.ListenedBy []) ∧
      (t.members.core = true → ∃ hook extension, t.Active hook extension ∧
        t.Wired hook extension) from ⟨t, rfl, hinv, hparts.1, hparts.2⟩
  cases action with
  | start answers =>
    rw [outcome] at h
    split at h
    · cases h
    · next hcore =>
      have hfalse := Bool.eq_false_iff.mpr hcore
      obtain ⟨t', heq, -, hcore', hook, extension, hactive, hall⟩ :=
        start_spec htidy.inv.counts (htidy.inv.idle hfalse)
      cases heq.symm.trans (Option.some.inj h)
      obtain ⟨hhooks, hextensions, hplaylists⟩ := hall hworks
      obtain ⟨hnone, hlisteners⟩ := htidy.clean hfalse
      refine ⟨fun hfalse' => absurd (hfalse'.symm.trans hcore') nofun, fun _ => ?_⟩
      refine ⟨hook, extension, hactive, ?_, hextensions, hlisteners.heard hplaylists⟩
      rw [hhooks, hnone]
      rfl
  | stop answers =>
    cases hcore : s.members.core with
    | false =>
      have hstop : s.stop answers = .ok { s with
          members := { s.members with events := s.members.events.stop } } := by
        unfold stop
        rw [if_neg (by rw [hcore]; exact Bool.false_ne_true)]
        rfl
      cases hstop.symm.trans (Option.some.inj h)
      exact ⟨fun _ => htidy.clean hcore, fun htrue => absurd (hcore.symm.trans htrue) nofun⟩
    | true =>
      obtain ⟨hook, extension, hactive, hwired⟩ := htidy.wired hcore
      obtain ⟨t', heq, -, hstopped, -, hall⟩ := stop_of_core htidy.inv.counts hfits hcore hactive
      cases heq.symm.trans (Option.some.inj h)
      obtain ⟨hhooks, hplaylists⟩ := hall hworks
      refine ⟨fun _ => ⟨?_, ?_⟩, fun htrue => absurd (hstopped.symm.trans htrue) nofun⟩
      · rw [hhooks, hwired.hooks, List.erase_cons_head]
      · have hlisteners := hwired.listeners.unheard hplaylists
        rwa [List.erase_cons_head] at hlisteners
  | player event =>
    obtain ⟨t', heq, -, heap, rfl⟩ :=
      happen_spec htidy.inv.counts hfits htidy.inv.extension_pointers h
    cases heq
    refine ⟨fun hcore => ?_, fun hcore => ?_⟩
    · obtain ⟨hnone, hlisteners⟩ := htidy.clean hcore
      have hextensions := (htidy.inv.idle hcore).extensions
      refine ⟨hnone, hlisteners.after fun accepts _ => ?_⟩
      rw [hextensions, taken_nil]
    · obtain ⟨hook, extension, ⟨hhook, hlistener, hmanager, hone⟩, hwired⟩ := htidy.wired hcore
      refine ⟨hook, extension, ⟨hhook, hlistener, hmanager, hone⟩, hwired.hooks,
        hwired.extensions, hwired.listeners.after fun accepts haccepts => ?_⟩
      subst haccepts
      rw [hwired.extensions, show accepts = true from hworks]
      rfl

theorem tidy_of_reachable (h : ReachableBy step (fun s action => s.Fits ∧ Works action) {} s) :
    s.Tidy := by
  refine h.invariant ⟨init_inv, fun _ => ⟨rfl, nofun⟩, nofun⟩ ?_
  intro s action t htidy hok hst
  obtain ⟨_, ⟨⟩, ht⟩ := outcome_tidy htidy hok.1 hok.2 (step_eq_some hst)
  exact ht

/-- The event of a change; `i` is the place of the playlist it is about. -/
def event {ι : Type} (i : Nat) : PlayerChange ι → PlayerEvent
  | .playback message _ | .unrelated message => .message message
  | .property setting => .message (.propertyValue setting.property)
  | .tick _ => .message .playerUpdatePosition
  | .changed _ flags => .changed i flags
  | .activated _ => .activated i
  | .added _ => .added true
  | .removed _ => .removed i

/-- The playlist that an event is about is loaded. -/
def Names (s : System) : PlayerEvent → Prop
  | .changed i _ | .activated i | .removed i =>
    ∃ playlist, s.player.playlists[i]? = some playlist ∧ playlist.loaded = true
  | .message _ | .added _ => True
  | .freed _ => False

theorem Wired.raised_event {ι : Type} {i : Nat} {change : PlayerChange ι}
    (h : s.Wired hook extension) (hnames : s.Names (event i change)) :
    s.raised (event i change) = change.raised := by
  have hone (playlist : PlaylistObject) (hi : s.player.playlists[i]? = some playlist)
      (hloaded : playlist.loaded = true) : playlist.listeners = [extension.listener] :=
    h.listeners playlist (List.mem_of_getElem? hi) hloaded
  unfold PlayerChange.raised
  cases change with
  | playback message after | unrelated message =>
    simp only [event, raised, h.hooks, List.flatMap_singleton, PlayerChange.callbacks]
    cases hraises : (Callback.coreMessage message).raises <;> simp [hraises]
  | property setting =>
    simp only [event, raised, h.hooks, List.flatMap_singleton, PlayerChange.callbacks]
    cases setting <;> rfl
  | tick seconds =>
    simp only [event, raised, h.hooks, List.flatMap_singleton]
    rfl
  | changed after flags =>
    obtain ⟨playlist, hi, hloaded⟩ := hnames
    simp only [event, raised, hi, Option.toList_some, List.flatMap_singleton,
      hone playlist hi hloaded, PlayerChange.callbacks]
    cases hraises : (Callback.changed flags).raises <;> simp [hraises]
  | activated id => rfl
  | added playlist =>
    simp only [event, raised, h.extensions]
    rfl
  | removed id =>
    obtain ⟨playlist, hi, hloaded⟩ := hnames
    simp only [event, raised, hi, Option.toList_some, List.flatMap_singleton,
      hone playlist hi hloaded, extensionObjects, h.extensions]
    rfl

theorem happen_isSome {event : PlayerEvent} (h : s.Names event) : (s.happen event).isSome := by
  cases event with
  | message | added => rfl
  | freed => exact h.elim
  | changed i flags =>
    obtain ⟨playlist, hi, -⟩ := h
    simp [happen, hi]
  | activated i | removed i =>
    obtain ⟨playlist, hi, hloaded⟩ := h
    simp [happen, hi, hloaded]

/-- After any number of cycles of `Start` and `Stop`, in which the player's calls all work:
while subscribed, each change of the player notifies what its callbacks raise, once. -/
theorem changes_notify_once {ι : Type} {i : Nat} {change : PlayerChange ι}
    (h : ReachableBy step (fun s action => s.Fits ∧ Works action) {} s) (hfits : s.Fits)
    (hcore : s.members.core = true) (hnames : s.Names (event i change)) :
    ∃ t, s.outcome (.player (event i change)) = some (.ok t) ∧
      t.members.events = change.raised.foldl StateUpdateEvents.notify s.members.events := by
  have htidy := tidy_of_reachable h
  obtain ⟨hook, extension, -, hwired⟩ := htidy.wired hcore
  obtain ⟨r, hr⟩ := Option.isSome_iff_exists.mp (happen_isSome hnames)
  obtain ⟨t, rfl, -, heap, rfl⟩ :=
    happen_spec htidy.inv.counts hfits htidy.inv.extension_pointers hr
  refine ⟨_, hr, ?_⟩
  rw [← hwired.raised_event hnames]
  rfl

theorem sampleCycles_work : ∀ action ∈ sampleCycles, Works action := by
  simp [sampleCycles, allWorks, Works, Answers.All]

/-- The playlist that was loaded in both cycles changes. -/
theorem changes_notify_once_sample :
    ∃ s t, run (guarded step fun s _ => s.Fits) {} sampleCycles = some s ∧
      s.outcome (.player (.changed 1 .content)) = some (.ok t) ∧
      t.members.events = s.members.events.notify .playlists := by
  obtain ⟨s, hs⟩ := Option.isSome_iff_exists.mp
    (show ((run (guarded step fun s _ => s.Fits) {} sampleCycles).filter fun s =>
      (s.Fits ∧ s.members.core = true) ∧
        s.player.playlists[1]?.any PlaylistObject.loaded = true).isSome = true by decide +kernel)
  obtain ⟨hrun, hsample⟩ := Option.filter_eq_some_iff.mp hs
  obtain ⟨⟨hfits, hcore⟩, hloaded⟩ := of_decide_eq_true hsample
  have hnames : s.Names (event 1 (.changed (⟨ascii "P1", [], none, none, List.cons_ne_nil _ _,
      nofun, nofun⟩ : LoadedPlaylist Nat) .content)) := Option.any_eq_true _ _ |>.mp hloaded
  obtain ⟨t, ht, hevents⟩ :=
    changes_notify_once (.of_guarded_run hrun sampleCycles_work) hfits hcore hnames
  exact ⟨s, t, hrun, ht, hevents⟩

/-- Under the same conditions: after `Stop` no hook and no extension is left, no loaded
playlist is listened to, and of the objects only listeners of playlists that are not loaded
any more are there. -/
theorem stopped_leaves_playlists
    (h : ReachableBy step (fun s action => s.Fits ∧ Works action) {} s)
    (hcore : s.members.core = false) :
    s.player.hooks = [] ∧ s.player.extensions = [] ∧
      (∀ playlist ∈ s.player.playlists, playlist.loaded = true → playlist.listeners = []) ∧
      ∀ o, (s.heap.counter o).isSome = true ↔
        ∃ playlist ∈ s.player.playlists, playlist.loaded = false ∧ o ∈ playlist.listeners := by
  have htidy := tidy_of_reachable h
  obtain ⟨hhooks, hlisteners⟩ := htidy.clean hcore
  obtain ⟨hhook, hlistener, hmanager, hextensions⟩ := htidy.inv.idle hcore
  refine ⟨hhooks, hextensions, hlisteners, fun o => ?_⟩
  have hholders : s.holders =
      Multiset.ofList (s.player.playlists.flatMap PlaylistObject.listeners) := by
    rw [holders, Members.pointers, Player.pointers, hhook, hlistener, hmanager, hhooks,
      hextensions]
    exact Multiset.zero_add _
  rw [htidy.inv.counts.alive_iff, hholders, Multiset.mem_coe, List.mem_flatMap]
  constructor
  · rintro ⟨playlist, hmem, ho⟩
    refine ⟨playlist, hmem, ?_, ho⟩
    cases hloaded : playlist.loaded with
    | false => rfl
    | true => exact absurd (hlisteners playlist hmem hloaded ▸ ho) List.not_mem_nil
  · rintro ⟨playlist, hmem, -, ho⟩
    exact ⟨playlist, hmem, ho⟩

theorem stopped_leaves_playlists_sample :
    ∃ s, run (guarded step fun s _ => s.Fits) {} (sampleCycles.take 5) = some s ∧
      s.player.playlists = [⟨false, [1]⟩, ⟨true, []⟩] ∧
      ∀ o, (s.heap.counter o).isSome = true ↔
        ∃ playlist ∈ s.player.playlists, playlist.loaded = false ∧ o ∈ playlist.listeners := by
  obtain ⟨s, hs⟩ := Option.isSome_iff_exists.mp
    (show ((run (guarded step fun s _ => s.Fits) {} (sampleCycles.take 5)).filter fun s =>
      s.members.core = false ∧ s.player.playlists = [⟨false, [1]⟩, ⟨true, []⟩]).isSome = true by
        decide +kernel)
  obtain ⟨hrun, hsample⟩ := Option.filter_eq_some_iff.mp hs
  obtain ⟨hcore, hplaylists⟩ := of_decide_eq_true hsample
  have hwork : ∀ action ∈ sampleCycles.take 5, Works action :=
    fun action h => sampleCycles_work action (List.mem_of_mem_take h)
  exact ⟨s, hrun, hplaylists, (stopped_leaves_playlists (.of_guarded_run hrun hwork) hcore).2.2.2⟩

end System

end Subscription

end RemoteControl
