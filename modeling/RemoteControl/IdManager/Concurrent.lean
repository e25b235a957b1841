import RemoteControl.IdManager.Restart
import RemoteControl.Lib.Linearizable

/-!
# Concurrent calls of the manager

A request for an id looks its key up under the shared lock and, on a miss, again under the
exclusive one, where it inserts; the other calls hold one lock throughout. Between the two locks
other threads may insert the key, a colliding key, or remove the playlist.

* `managerObject`: the sections, each the whole call in a single step where it is the last one.
* `getOrGenerate_linearizable`: every interleaving of calls has a sequential order; two requests
  of one kind return the same id in it exactly for the same key, unless a removal in between has
  dropped the key of the first.
-/

namespace RemoteControl.RemoteControlIdManager

open Transition Linearizable

/-! ## The sections -/

/-- The public operations. -/
inductive Operation
  | getOrGenerate (key : Request)
  | playlistGetKey (pluginId : PluginId)
  | playlistItemGetKey (pluginId : PluginId)
  | playlistItemsRemove (aimpPlaylistId : Bytes)
  | playlistRemove (aimpPlaylistId : Bytes)
deriving DecidableEq

inductive Answer
  | id (pluginId : PluginId)
  | playlistKey (aimpPlaylistId : Bytes)
  | itemKey (key : PlaylistItemKey)
  | removed
deriving DecidableEq

/-- An operation in a single step. -/
def perform (op : Operation) (m : RemoteControlIdManager) :
    Option (Answer × RemoteControlIdManager) :=
  match op with
  | .getOrGenerate key => (key.issue m).map fun issued => (.id issued.1, issued.2)
  | .playlistGetKey pluginId => some (.playlistKey (m.playlistGetKey pluginId), m)
  | .playlistItemGetKey pluginId => some (.itemKey (m.playlistItemGetKey pluginId), m)
  | .playlistItemsRemove p => some (.removed, m.playlistItemsRemoveByPlaylistKey p)
  | .playlistRemove p => some (.removed, m.playlistRemoveByKey p)

/-- The lock a call takes for its next section. -/
inductive Lock
  | shared
  | exclusive

theorem playlistGenerate_eq {m : RemoteControlIdManager} {p : Bytes} :
    m.playlistGenerate p = m.playlistGetOrGeneratePluginId p := by
  unfold playlistGetOrGeneratePluginId
  split
  · next existing hlookup =>
    rw [playlistLookup] at hlookup
    rw [playlistGenerate, hlookup]
  · rfl

theorem playlistItemGenerate_eq {m : RemoteControlIdManager} {key : PlaylistItemKey} :
    m.playlistItemGenerate key =
      m.playlistItemGetOrGeneratePluginId key.aimpPlaylistId key.index := by
  unfold playlistItemGetOrGeneratePluginId
  split
  · next existing hlookup =>
    rw [playlistItemLookup] at hlookup
    rw [playlistItemGenerate, hlookup]
  · rfl

namespace Request

/-- The lookup under the shared lock. -/
def lookup (m : RemoteControlIdManager) : Request → Option PluginId
  | .playlist p => m.playlistLookup p
  | .item key => m.playlistItemLookup key

/-- The section under the exclusive lock. -/
def generate (m : RemoteControlIdManager) : Request → Option (PluginId × RemoteControlIdManager)
  | .playlist p => m.playlistGenerate p
  | .item key => m.playlistItemGenerate key

variable {m m' : RemoteControlIdManager} {key : Request} {id : PluginId}

theorem issue_of_lookup (h : key.lookup m = some id) : key.issue m = some (id, m) := by
  cases key with
  | playlist p => exact playlistGetOrGenerate_eq_some.mpr (.inl ⟨h, rfl⟩)
  | item key => exact playlistItemGetOrGenerate_eq_some.mpr (.inl ⟨h, rfl⟩)

/-- The second lookup makes the exclusive section do what a whole call would, whatever has
happened since the first. -/
theorem generate_eq_issue : key.generate m = key.issue m := by
  cases key with
  | playlist p => exact playlistGenerate_eq
  | item key => exact playlistItemGenerate_eq

end Request

/-- Where a call begins. -/
def firstLock : Operation → Lock
  | .getOrGenerate _ | .playlistGetKey _ | .playlistItemGetKey _ => .shared
  | .playlistItemsRemove _ | .playlistRemove _ => .exclusive

/-- The section of a call under a lock. -/
def advance (op : Operation) (lock : Lock) (m : RemoteControlIdManager) :
    Option ((Lock ⊕ Answer) × RemoteControlIdManager) :=
  match op, lock with
  | .getOrGenerate key, .shared =>
    match key.lookup m with
    | some existing => some (.inr (.id existing), m)
    | none => some (.inl .exclusive, m)
  | .getOrGenerate key, .exclusive =>
    (key.generate m).map fun issued => (.inr (.id issued.1), issued.2)
  | op, _ => (perform op m).map fun answered => (.inr answered.1, answered.2)

section Sections

variable {op : Operation} {lock lock' : Lock} {m m' : RemoteControlIdManager} {answer : Answer}

theorem advance_silent (h : advance op lock m = some (.inl lock', m')) : m' = m := by
  unfold advance at h
  split at h
  · split at h <;> cases h
    rfl
  · obtain ⟨issued, -, hout⟩ := Option.map_eq_some_iff.mp h
    cases hout
  · obtain ⟨answered, -, hout⟩ := Option.map_eq_some_iff.mp h
    cases hout

theorem advance_commits (h : advance op lock m = some (.inr answer, m')) :
    perform op m = some (answer, m') := by
  unfold advance at h
  split at h
  · next key =>
    split at h
    · next existing hlookup =>
      cases h
      rw [perform, Request.issue_of_lookup hlookup]
      rfl
    · cases h
  · next key =>
    obtain ⟨issued, hissued, hout⟩ := Option.map_eq_some_iff.mp h
    cases hout
    rw [perform, ← Request.generate_eq_issue, hissued]
    rfl
  · obtain ⟨answered, hanswered, hout⟩ := Option.map_eq_some_iff.mp h
    cases hout
    exact hanswered

end Sections

/-- The manager as its callers share it. -/
def managerObject : SectionedObject RemoteControlIdManager Operation Lock Answer where
  start := firstLock
  advance := advance
  perform := perform
  silent := advance_silent
  commits := advance_commits

/-- While fewer than `2 ^ 32 - 1` ids of either kind are live every section ends. -/
theorem advance_total {m : RemoteControlIdManager} (hp : m.playlists.live < 2 ^ 32 - 1)
    (hi : m.items.live < 2 ^ 32 - 1) (op : Operation) (lock : Lock) :
    ∃ out, managerObject.advance op lock m = some out := by
  cases op with
  | getOrGenerate key =>
    cases lock with
    | shared =>
      show ∃ out, RemoteControlIdManager.advance (.getOrGenerate key) .shared m = some out
      rw [RemoteControlIdManager.advance]
      split <;> exact ⟨_, rfl⟩
    | exclusive =>
      obtain ⟨m', hm'⟩ := step_total hp hi key.op
      rw [Request.step_op, Option.map_eq_some_iff] at hm'
      obtain ⟨issued, hissued, -⟩ := hm'
      exact ⟨_, Option.map_eq_some_iff.mpr
        ⟨issued, Request.generate_eq_issue.trans hissued, rfl⟩⟩
  | playlistGetKey pluginId => exact ⟨_, rfl⟩
  | playlistItemGetKey pluginId => exact ⟨_, rfl⟩
  | playlistItemsRemove p => exact ⟨_, rfl⟩
  | playlistRemove p => exact ⟨_, rfl⟩

/-! ## The ids -/

/-- The operations that take the key out of the maps. -/
def Operation.drops : Operation → Request → Prop
  | .playlistRemove q, .playlist p => q = p
  | .playlistRemove q, .item key => q = key.aimpPlaylistId
  | .playlistItemsRemove q, .item key => q = key.aimpPlaylistId
  | _, _ => False

/-- What an operation does to the maps, if anything. -/
def Operation.change : Operation → Option Op
  | .getOrGenerate key => some key.op
  | .playlistItemsRemove p => some (.playlistItemsRemove p)
  | .playlistRemove p => some (.playlistRemove p)
  | _ => none

/-- Two requests of one kind return the same id exactly for the same key, where nothing between
them drops the key of the first. -/
def IdsAgree {ι : Type*} (order : List (Entry ι Operation Answer)) : Prop :=
  ∀ earlier between later i j key key' id id',
    order = earlier ++ ⟨i, .getOrGenerate key, .id id⟩ :: between ++
      ⟨j, .getOrGenerate key', .id id'⟩ :: later →
    key.sameKind key' = true → (∀ e ∈ between, ¬e.op.drops key) → (id = id' ↔ key = key')

section Order

variable {ι : Type*} {m m' m₁ m₂ m₃ : RemoteControlIdManager}
  {order : List (Entry ι Operation Answer)} {op : Operation} {answer : Answer}
  {key key' : Request} {id id' : PluginId}

theorem perform_change (h : perform op m = some (answer, m')) :
    match op.change with
    | some change => step m change = some m'
    | none => m' = m := by
  cases op with
  | getOrGenerate key =>
    obtain ⟨issued, hissued, hout⟩ := Option.map_eq_some_iff.mp h
    cases hout
    exact (Request.step_op m key).trans (Option.map_eq_some_iff.mpr ⟨issued, hissued, rfl⟩)
  | playlistGetKey pluginId | playlistItemGetKey pluginId => cases h; rfl
  | playlistItemsRemove p | playlistRemove p => cases h; rfl

theorem run_of_replays (h : Replays perform m order m') :
    run step m (order.filterMap fun e => e.op.change) = some m' := by
  induction h with
  | nil m => rfl
  | @cons m m₁ m' e order h rest ih =>
    have hchange := perform_change h
    rw [List.filterMap_cons]
    split at hchange
    · next change heq =>
      rw [heq]
      exact run_cons_eq_some.mpr ⟨m₁, hchange, ih⟩
    · next heq =>
      rw [heq, ← hchange]
      exact ih

theorem dropsPlaylist_of_change {p : Bytes} {change : Op} (h : op.change = some change)
    (hdrops : change.dropsPlaylist p) : op.drops (.playlist p) := by
  cases op with
  | getOrGenerate key =>
    cases h
    cases key <;> exact hdrops.elim
  | playlistGetKey pluginId | playlistItemGetKey pluginId => cases h
  | playlistItemsRemove q => cases h; exact hdrops.elim
  | playlistRemove q => cases h; exact hdrops

theorem dropsItems_of_change {item : PlaylistItemKey} {change : Op} (h : op.change = some change)
    (hdrops : change.dropsItems item.aimpPlaylistId) : op.drops (.item item) := by
  cases op with
  | getOrGenerate key =>
    cases h
    cases key <;> exact hdrops.elim
  | playlistGetKey pluginId | playlistItemGetKey pluginId => cases h
  | playlistItemsRemove q | playlistRemove q => cases h; exact hdrops

/-- The id of a key that is not dropped is the key's alone. -/
theorem issued_eq_iff (hm : RepresentationInvariant m) (hid : key.issue m = some (id, m₁))
    (hbetween : Replays perform m₁ order m₂) (hdrops : ∀ e ∈ order, ¬e.op.drops key)
    (hid' : key'.issue m₂ = some (id', m₃)) (hkind : key.sameKind key' = true) :
    id = id' ↔ key = key' := by
  have hrun := run_of_replays hbetween
  have hchange : ∀ change ∈ order.filterMap (fun e => e.op.change),
      ∃ e ∈ order, e.op.change = some change := fun change h => List.mem_filterMap.mp h
  cases key with
  | playlist p =>
    cases key' with
    | item item => cases hkind
    | playlist q =>
      have hpersist := (hm.playlistIdsPersist p id m₁ hid _ m₂ (fun change h hdropped => by
        obtain ⟨e, he, heq⟩ := hchange change h
        exact hdrops e he (dropsPlaylist_of_change heq hdropped)) hrun).2 q id' m₃ hid'
      rw [eq_comm, hpersist, Request.playlist.injEq, eq_comm]
  | item item =>
    cases key' with
    | playlist q => cases hkind
    | item item' =>
      have hpersist := (hm.itemIdsPersist _ _ id m₁ hid _ m₂ (fun change h hdropped => by
        obtain ⟨e, he, heq⟩ := hchange change h
        exact hdrops e he (dropsItems_of_change heq hdropped)) hrun).2 _ _ id' m₃ hid'
      rw [eq_comm, hpersist, Request.item.injEq, PlaylistItemKey.mk.injEq]
      exact ⟨fun h => ⟨h.1.symm, h.2.symm⟩, fun h => ⟨h.1.symm, h.2.symm⟩⟩

theorem idsAgree_of_replays (h : Replays perform empty order m) : IdsAgree order := by
  intro earlier between later i j key key' id id' horder hkind hdrops
  rw [horder, List.append_assoc, replays_append] at h
  obtain ⟨m₀, hearlier, h⟩ := h
  have hm₀ : RepresentationInvariant m₀ := reachable_invariant ⟨_, run_of_replays hearlier⟩
  cases h with
  | cons hfirst h =>
    obtain ⟨m₂, hbetween, h⟩ := replays_append.mp h
    cases h with
    | cons hsecond h =>
      obtain ⟨⟨id, m₁⟩, hid, hout⟩ := Option.map_eq_some_iff.mp hfirst
      cases hout
      obtain ⟨⟨id', m₃⟩, hid', hout⟩ := Option.map_eq_some_iff.mp hsecond
      cases hout
      exact issued_eq_iff hm₀ hid hbetween hdrops hid' hkind

end Order

/-- The manager with its calls. -/
abbrev Calls := System RemoteControlIdManager Nat Operation Lock Answer

def callStep : Calls → Action Nat Operation → Option Calls := Linearizable.step managerObject

def noCalls : Calls := init empty

/-- **Get-or-generate is linearizable.** Every interleaving of the calls has an order, consistent
with real time, in which the single-step operations answer the same and end in the same state;
in it two requests of one kind get the same id exactly for the same key, as long as nothing in
between drops the key of the first. -/
theorem getOrGenerate_linearizable {s : Calls} (h : Reachable callStep noCalls s) :
    ∃ order, Linearization managerObject empty s.history s.shared order ∧ IdsAgree order := by
  obtain ⟨order, horder⟩ := linearizable h
  exact ⟨order, horder, idsAgree_of_replays horder.replays⟩

/-! ## Two first requests -/

/-- Both requests miss under the shared lock, then the first is done; `between` comes before the
second goes on. -/
def firstRequests (p q : Bytes) (between : List (Action Nat Operation)) :
    List (Action Nat Operation) :=
  [.invoke 0 (.getOrGenerate (.playlist p)), .invoke 1 (.getOrGenerate (.playlist q)), .advance 0,
    .advance 1, .advance 0, .respond 0] ++ between ++ [.advance 1, .respond 1]

theorem getOrGenerate_linearizable_same_key :
    ∃ s, run callStep noCalls (firstRequests (ascii "plumless") (ascii "plumless") []) = some s ∧
      ∃ order, Linearization managerObject empty s.history s.shared order ∧ IdsAgree order := by
  obtain ⟨s, hs⟩ := Option.isSome_iff_exists.mp
    (show (run callStep noCalls
      (firstRequests (ascii "plumless") (ascii "plumless") [])).isSome = true by decide +kernel)
  exact ⟨s, hs, getOrGenerate_linearizable ⟨_, hs⟩⟩

/-- Two first requests for different keys, both under way before either returns, and one id. -/
theorem removal_between_requests :
    ∃ s, run callStep noCalls (firstRequests (ascii "plumless") (ascii "buckeroo")
        [.invoke 2 (.playlistRemove (ascii "plumless")), .advance 2, .respond 2]) = some s ∧
      s.history = [.invoke 0 (.getOrGenerate (.playlist (ascii "plumless"))),
        .invoke 1 (.getOrGenerate (.playlist (ascii "buckeroo"))), .respond 0 (.id 1306201125),
        .invoke 2 (.playlistRemove (ascii "plumless")), .respond 2 .removed,
        .respond 1 (.id 1306201125)] ∧
      ascii "plumless" ≠ ascii "buckeroo" := by
  obtain ⟨s, hrun, hs⟩ := (Option.any_eq_true _ _).mp
    (show (run callStep noCalls (firstRequests (ascii "plumless") (ascii "buckeroo")
        [.invoke 2 (.playlistRemove (ascii "plumless")), .advance 2, .respond 2])).any (fun s =>
      decide (s.history = [.invoke 0 (.getOrGenerate (.playlist (ascii "plumless"))),
        .invoke 1 (.getOrGenerate (.playlist (ascii "buckeroo"))), .respond 0 (.id 1306201125),
        .invoke 2 (.playlistRemove (ascii "plumless")), .respond 2 .removed,
        .respond 1 (.id 1306201125)])) = true by decide +kernel)
  exact ⟨s, hrun, of_decide_eq_true hs, by decide⟩

end RemoteControl.RemoteControlIdManager
