import Mathlib.Data.List.ModifyLast
import RemoteControl.Events.ControlPanelChanges
import RemoteControl.Lib.RefCounts

/-!
# The subscription to the player

`Start` makes a message hook, a listener for the playlists and one for their manager, and
hands them to the player; `Stop` takes them back. The player keeps a reference to each
object it was handed, for as long as it keeps the object; the manager's listener has the
other one without counting it. Here are the members, what the player holds, the callbacks,
and what `Start` and `Stop` come to.
-/

namespace RemoteControl

open RefCounts Transition

namespace Subscription

/-! ## The player's side -/

/-- `PlaylistManagerListener`, with its `FListener`. -/
structure ManagerListener where
  object : Nat
  listener : Nat
deriving DecidableEq

/-- An `IAIMPPlaylist`: it outlives its removal while someone holds it. -/
structure PlaylistObject where
  loaded : Bool
  listeners : List Nat
deriving DecidableEq

/-- With the listener, where the playlist is loaded. -/
def PlaylistObject.heard (listener : Nat) (playlist : PlaylistObject) : PlaylistObject :=
  if playlist.loaded then { playlist with listeners := playlist.listeners ++ [listener] }
  else playlist

def PlaylistObject.unheard (listener : Nat) (playlist : PlaylistObject) : PlaylistObject :=
  if playlist.loaded then { playlist with listeners := playlist.listeners.erase listener }
  else playlist

structure Player where
  hooks : List Nat := []
  extensions : List ManagerListener := []
  playlists : List PlaylistObject := []

/-- The objects the player holds. -/
def Player.pointers (player : Player) : List Nat :=
  player.hooks ++ (player.extensions.map ManagerListener.object ++
    player.playlists.flatMap PlaylistObject.listeners)

/-- What the player answers while `Start` or `Stop` runs. -/
structure Answers where
  /-- Whether there is an `IAIMPServiceMessageDispatcher`. -/
  dispatcher : Bool
  /-- Whether `Hook` takes the hook, or `Unhook` gives it up. -/
  hook : Bool
  /-- Whether `RegisterExtension` takes the listener, or `UnregisterExtension` gives it up. -/
  register : Bool
  /-- Whether there is an `IAIMPServicePlaylistManager`. -/
  manager : Bool
  /-- Whether `GetLoadedPlaylist` gives a playlist. -/
  readable : Nat → Bool
  /-- Whether its `ListenerAdd` takes the listener, or its `ListenerRemove` gives it up. -/
  listen : Nat → Bool

/-- Everything works. -/
def Answers.All (answers : Answers) : Prop :=
  answers.dispatcher = true ∧ answers.hook = true ∧ answers.register = true ∧
    answers.manager = true ∧ (∀ i, answers.readable i = true) ∧ ∀ i, answers.listen i = true

/-! ## The plug-in's side -/

/-- The members of `StateUpdateEvents`. -/
structure Members where
  events : StateUpdateEvents := {}
  /-- Whether there is an `FCore`. -/
  core : Bool := false
  messageHook : Option Nat := none
  playlistListener : Option Nat := none
  managerListener : Option ManagerListener := none

/-- The objects the plug-in holds. -/
def Members.pointers (members : Members) : List Nat :=
  members.messageHook.toList ++ (members.playlistListener.toList ++
    (members.managerListener.map ManagerListener.object).toList)

structure System where
  heap : Heap 32 := {}
  player : Player := {}
  members : Members := {}

namespace System

/-- Who holds what. -/
def holders (s : System) : Multiset Nat :=
  Multiset.ofList s.members.pointers + Multiset.ofList s.player.pointers

def withPlaylists (s : System) (playlists : List PlaylistObject) : System :=
  { s with player := { s.player with playlists } }

/-- The player keeps an object. -/
def keep (s : System) (o : Nat) (after : Player) : Except Nat System := do
  let heap ← s.heap.addRef o
  pure { s with heap, player := after }

/-- The player gives an object back. -/
def drop (s : System) (o : Nat) (after : Player) : Except Nat System := do
  let heap ← s.heap.release o
  pure { s with heap, player := after }

/-- The plug-in gives an object back. -/
def dropOwn (s : System) (o : Nat) (after : Members) : Except Nat System := do
  let heap ← s.heap.release o
  pure { s with heap, members := after }

/-- The plug-in makes an object. -/
def makeOwn (s : System) (after : Nat → Members) : System :=
  { s with heap := s.heap.make.2, members := after s.heap.make.1 }

/-! ### Start -/

def hookMessages (answers : Answers) (s : System) : Except Nat System :=
  let hook := s.heap.make.1
  let s := s.makeOwn fun hook => { s.members with messageHook := some hook }
  if answers.dispatcher && answers.hook then
    s.keep hook { s.player with hooks := s.player.hooks ++ [hook] }
  else pure s

def makePlaylistListener (s : System) : System :=
  s.makeOwn fun listener => { s.members with playlistListener := some listener }

def registerListener (answers : Answers) (listener : Nat) (s : System) : Except Nat System :=
  let extension : ManagerListener := ⟨s.heap.make.1, listener⟩
  let s := s.makeOwn fun object => { s.members with managerListener := some ⟨object, listener⟩ }
  if answers.register then
    s.keep extension.object { s.player with extensions := s.player.extensions ++ [extension] }
  else pure s

/-- `ListenerAdd` of each loaded playlist. -/
def listenEach (answers : Answers) (listener : Nat) :
    List PlaylistObject → Nat → Heap 32 → Except Nat (List PlaylistObject × Heap 32)
  | [], _, heap => pure ([], heap)
  | playlist :: playlists, i, heap => do
    if playlist.loaded && (answers.readable i && answers.listen i) then
      let heap ← heap.addRef listener
      let (playlists, heap) ← listenEach answers listener playlists (i + 1) heap
      pure ({ playlist with listeners := playlist.listeners ++ [listener] } :: playlists, heap)
    else
      let (playlists, heap) ← listenEach answers listener playlists (i + 1) heap
      pure (playlist :: playlists, heap)

def listenAll (answers : Answers) (listener : Nat) (s : System) : Except Nat System :=
  if answers.manager then do
    let (playlists, heap) ← listenEach answers listener s.player.playlists 0 s.heap
    pure { s.withPlaylists playlists with heap }
  else pure s

def start (answers : Answers) (s : System) : Except Nat System := do
  let s := { s with
    members := { s.members with core := true, events := { s.members.events with stopped := false } } }
  let s ← s.hookMessages answers
  let listener := s.heap.make.1
  let s ← s.makePlaylistListener.registerListener answers listener
  s.listenAll answers listener

/-! ### Stop -/

/-- `Unhook`. -/
def unhook (answers : Answers) (hook : Nat) (s : System) : Except Nat System :=
  if answers.dispatcher && (answers.hook && decide (hook ∈ s.player.hooks)) then
    s.drop hook { s.player with hooks := s.player.hooks.erase hook }
  else pure s

def dropHook (answers : Answers) (s : System) : Except Nat System :=
  match s.members.messageHook with
  | none => pure s
  | some hook => do
    let s ← s.unhook answers hook
    s.dropOwn hook { s.members with messageHook := none }

/-- `ListenerRemove` of each loaded playlist. -/
def unlistenEach (answers : Answers) (listener : Nat) :
    List PlaylistObject → Nat → Heap 32 → Except Nat (List PlaylistObject × Heap 32)
  | [], _, heap => pure ([], heap)
  | playlist :: playlists, i, heap => do
    if playlist.loaded && (answers.readable i &&
        (answers.listen i && decide (listener ∈ playlist.listeners))) then
      let heap ← heap.release listener
      let (playlists, heap) ← unlistenEach answers listener playlists (i + 1) heap
      pure ({ playlist with listeners := playlist.listeners.erase listener } :: playlists, heap)
    else
      let (playlists, heap) ← unlistenEach answers listener playlists (i + 1) heap
      pure (playlist :: playlists, heap)

def unlistenAll (answers : Answers) (s : System) : Except Nat System :=
  match s.members.playlistListener with
  | none => pure s
  | some listener =>
    if answers.manager then do
      let (playlists, heap) ← unlistenEach answers listener s.player.playlists 0 s.heap
      pure { s.withPlaylists playlists with heap }
    else pure s

/-- `UnregisterExtension`. -/
def unregister (answers : Answers) (extension : ManagerListener) (s : System) :
    Except Nat System :=
  if answers.register && decide (extension ∈ s.player.extensions) then
    s.drop extension.object { s.player with extensions := s.player.extensions.erase extension }
  else pure s

def dropManagerListener (answers : Answers) (s : System) : Except Nat System :=
  match s.members.managerListener with
  | none => pure s
  | some extension => do
    let s ← s.unregister answers extension
    s.dropOwn extension.object { s.members with managerListener := none }

def dropPlaylistListener (s : System) : Except Nat System :=
  match s.members.playlistListener with
  | none => pure s
  | some listener => s.dropOwn listener { s.members with playlistListener := none }

def stop (answers : Answers) (s : System) : Except Nat System :=
  let s := { s with members := { s.members with events := s.members.events.stop } }
  if s.members.core then do
    let s ← s.dropHook answers
    let s ← s.unlistenAll answers
    let s ← s.dropManagerListener answers
    let s ← s.dropPlaylistListener
    pure { s with members := { s.members with core := false } }
  else pure s

/-! ### Callbacks -/

def notifyAll (s : System) (kinds : List EventKind) : System :=
  { s with members := { s.members with
      events := kinds.foldl StateUpdateEvents.notify s.members.events } }

/-- What a callback does, its object being there. -/
def raise (callback : Callback) (s : System) : System := s.notifyAll callback.raises.toList

/-- A callback of each of the objects. -/
def callEach (callback : Callback) : List Nat → System → Except Nat System
  | [], s => pure s
  | o :: objects, s => do
    let _ ← s.heap.use o
    callEach callback objects (s.raise callback)

/-- `ListenerAdd` of the new playlist, the last one. -/
def listenAdded (accepts : Bool) (listener : Nat) (s : System) : Except Nat System :=
  if accepts then
    s.keep listener { s.player with
      playlists := s.player.playlists.modifyLast fun playlist =>
        { playlist with listeners := playlist.listeners ++ [listener] } }
  else pure s

/-- `PlaylistAdded` of each extension. -/
def addedEach (accepts : Bool) : List ManagerListener → System → Except Nat System
  | [], s => pure s
  | extension :: extensions, s => do
    let _ ← s.heap.use extension.object
    let s ← s.listenAdded accepts extension.listener
    addedEach accepts extensions (s.raise .playlistAdded)

end System

/-- What happens in the player; a playlist is named by its place. -/
inductive PlayerEvent
  | message (message : Message)
  | changed (i : Nat) (flags : NotifyFlags)
  | activated (i : Nat)
  /-- A new playlist, and whether it takes a listener. -/
  | added (accepts : Bool)
  | removed (i : Nat)
  /-- A playlist that is not loaded any more goes. -/
  | freed (i : Nat)

inductive Action
  | start (answers : Answers)
  | stop (answers : Answers)
  | player (event : PlayerEvent)

namespace System

def extensionObjects (s : System) : List Nat := s.player.extensions.map ManagerListener.object

/-- The callbacks of an event; `none` when it cannot happen. -/
def happen (s : System) : PlayerEvent → Option (Except Nat System)
  | .message message => some (s.callEach (.coreMessage message) s.player.hooks)
  | .changed i flags =>
    s.player.playlists[i]?.map fun playlist => s.callEach (.changed flags) playlist.listeners
  | .activated i =>
    (s.player.playlists[i]?.filter PlaylistObject.loaded).map fun playlist => do
      let s ← s.callEach .playlistActivated s.extensionObjects
      s.callEach .activated playlist.listeners
  | .added accepts =>
    some (s.withPlaylists (s.player.playlists ++ [⟨true, []⟩]) |>.addedEach accepts
      s.player.extensions)
  | .removed i =>
    (s.player.playlists[i]?.filter PlaylistObject.loaded).map fun playlist => do
      let s := s.withPlaylists (s.player.playlists.set i { playlist with loaded := false })
      let s ← s.callEach .playlistRemoved s.extensionObjects
      s.callEach .removed playlist.listeners
  | .freed i =>
    (s.player.playlists[i]?.filter fun playlist => !playlist.loaded).map fun playlist => do
      let heap ← Heap.releaseAll playlist.listeners s.heap
      pure { s.withPlaylists (s.player.playlists.eraseIdx i) with heap }

/-- AIMP calls `Initialize` again only after `Finalize`. -/
def outcome (s : System) : Action → Option (Except Nat System)
  | .start answers => if s.members.core then none else some (s.start answers)
  | .stop answers => some (s.stop answers)
  | .player event => s.happen event

def step (s : System) (action : Action) : Option System :=
  match s.outcome action with
  | some (.ok t) => some t
  | _ => none

end System

/-! ## Who holds what -/

theorem Player.pointers_hook (player : Player) (o : Nat) :
    { player with hooks := player.hooks ++ [o] }.pointers.Perm (o :: player.pointers) := by
  unfold Player.pointers
  rw [List.append_assoc]
  exact List.perm_middle

theorem Player.pointers_extension (player : Player) (e : ManagerListener) :
    { player with extensions := player.extensions ++ [e] }.pointers.Perm
      (e.object :: player.pointers) := by
  unfold Player.pointers
  rw [List.map_append, List.append_assoc]
  exact (List.perm_middle.append_left _).trans List.perm_middle

theorem Player.pointers_unhook {player : Player} {o : Nat} (h : o ∈ player.hooks) :
    player.pointers.Perm (o :: { player with hooks := player.hooks.erase o }.pointers) :=
  (List.perm_cons_erase h).append_right _

theorem Player.pointers_unregister {player : Player} {e : ManagerListener}
    (h : e ∈ player.extensions) :
    player.pointers.Perm
      (e.object :: { player with extensions := player.extensions.erase e }.pointers) := by
  have hmap := ((List.perm_cons_erase h).map ManagerListener.object).append_right
    (player.playlists.flatMap PlaylistObject.listeners)
  exact (hmap.append_left _).trans List.perm_middle

namespace System

variable {s t : System} {o : Nat} {answers : Answers}

theorem holders_player {after : Player} (h : after.pointers.Perm (o :: s.player.pointers)) :
    Multiset.ofList s.members.pointers + Multiset.ofList after.pointers = o ::ₘ s.holders := by
  rw [Multiset.coe_eq_coe.mpr h, ← Multiset.cons_coe, Multiset.add_cons]
  rfl

theorem holders_members {after : Members} (h : after.pointers.Perm (o :: s.members.pointers)) :
    Multiset.ofList after.pointers + Multiset.ofList s.player.pointers = o ::ₘ s.holders := by
  rw [Multiset.coe_eq_coe.mpr h, ← Multiset.cons_coe, Multiset.cons_add]
  rfl

/-- No object has as many holders as its counter has values. -/
def Fits (s : System) : Prop := s.holders.card < 2 ^ 32

theorem keep_spec (after : Player) (h : Counts s.heap s.holders) (ho : o ∈ s.holders)
    (hafter : after.pointers.Perm (o :: s.player.pointers)) :
    Succeeds (s.keep o after) fun t =>
      Counts t.heap t.holders ∧ t.player = after ∧ t.members = s.members := by
  refine Succeeds.bind (h.addRef ho) fun heap hheap => Succeeds.pure ⟨?_, rfl, rfl⟩
  rw [holders, holders_player hafter]
  exact hheap

theorem drop_spec {after : Player} (h : Counts s.heap s.holders) (hfits : s.Fits)
    (hafter : s.player.pointers.Perm (o :: after.pointers)) :
    Succeeds (s.drop o after) fun t =>
      (Counts t.heap t.holders ∧ t.Fits) ∧ t.player = after ∧ t.members = s.members := by
  have hholders : s.holders = o ::ₘ { s with player := after }.holders :=
    holders_player (s := { s with player := after }) hafter
  rw [hholders] at h
  rw [Fits, hholders, Multiset.card_cons] at hfits
  refine Succeeds.bind (h.release ?_) fun heap hheap =>
    Succeeds.pure ⟨⟨hheap, Nat.lt_of_succ_lt hfits⟩, rfl, rfl⟩
  exact Nat.lt_of_le_of_lt (Nat.succ_le_succ (Multiset.count_le_card _ _)) hfits

theorem dropOwn_spec {after : Members} (h : Counts s.heap s.holders) (hfits : s.Fits)
    (hafter : s.members.pointers.Perm (o :: after.pointers)) :
    Succeeds (s.dropOwn o after) fun t =>
      (Counts t.heap t.holders ∧ t.Fits) ∧ t.player = s.player ∧ t.members = after := by
  have hholders : s.holders = o ::ₘ { s with members := after }.holders :=
    holders_members (s := { s with members := after }) hafter
  rw [hholders] at h
  rw [Fits, hholders, Multiset.card_cons] at hfits
  refine Succeeds.bind (h.release ?_) fun heap hheap =>
    Succeeds.pure ⟨⟨hheap, Nat.lt_of_succ_lt hfits⟩, rfl, rfl⟩
  exact Nat.lt_of_le_of_lt (Nat.succ_le_succ (Multiset.count_le_card _ _)) hfits

theorem makeOwn_counts (after : Nat → Members) (h : Counts s.heap s.holders)
    (hafter : (after s.heap.make.1).pointers.Perm (s.heap.make.1 :: s.members.pointers)) :
    Counts (s.makeOwn after).heap (s.makeOwn after).holders := by
  rw [holders]
  show Counts s.heap.make.2 (Multiset.ofList (after s.heap.make.1).pointers +
    Multiset.ofList s.player.pointers)
  rw [holders_members hafter]
  exact h.make

/-! ### The loops -/

theorem listeners_cons (playlist : PlaylistObject) (playlists : List PlaylistObject)
    (rest : Multiset Nat) :
    Multiset.ofList ((playlist :: playlists).flatMap PlaylistObject.listeners) + rest =
      Multiset.ofList (playlists.flatMap PlaylistObject.listeners) +
        (Multiset.ofList playlist.listeners + rest) := by
  rw [List.flatMap_cons, ← Multiset.coe_add, Multiset.add_comm (Multiset.ofList playlist.listeners),
    Multiset.add_assoc]

variable {listener i : Nat} {heap : Heap 32} {playlists : List PlaylistObject}
  {rest : Multiset Nat}

theorem listenEach_spec
    (h : Counts heap (Multiset.ofList (playlists.flatMap PlaylistObject.listeners) + rest))
    (hmem : listener ∈ rest) :
    Succeeds (listenEach answers listener playlists i heap) fun r =>
      Counts r.2 (Multiset.ofList (r.1.flatMap PlaylistObject.listeners) + rest) ∧
        (answers.All → r.1 = playlists.map (PlaylistObject.heard listener)) := by
  induction playlists generalizing i heap rest with
  | nil => exact Succeeds.pure ⟨h, fun _ => rfl⟩
  | cons playlist playlists ih =>
    rw [listeners_cons] at h
    unfold listenEach
    split
    · next hloaded =>
      simp only [Bool.and_eq_true] at hloaded
      refine Succeeds.bind (h.addRef ?_) fun heap' h' => ?_
      · exact Multiset.mem_add.mpr (Or.inr (Multiset.mem_add.mpr (Or.inr hmem)))
      · have h'' : Counts heap' (Multiset.ofList (playlists.flatMap PlaylistObject.listeners) +
            (Multiset.ofList (playlist.listeners ++ [listener]) + rest)) := by
          rw [Multiset.coe_eq_coe.mpr (List.perm_append_singleton _ _), ← Multiset.cons_coe,
            Multiset.cons_add, Multiset.add_cons]
          exact h'
        refine Succeeds.bind (ih h'' (Multiset.mem_add.mpr (Or.inr hmem))) ?_
        rintro ⟨playlists', heap''⟩ ⟨hcounts, hall⟩
        refine Succeeds.pure ⟨?_, fun hanswers => ?_⟩
        · rw [listeners_cons]
          exact hcounts
        · rw [List.map_cons, PlaylistObject.heard, if_pos hloaded.1, ← hall hanswers]
    · next hskip =>
      refine Succeeds.bind (ih h (Multiset.mem_add.mpr (Or.inr hmem))) ?_
      rintro ⟨playlists', heap'⟩ ⟨hcounts, hall⟩
      refine Succeeds.pure ⟨?_, fun hanswers => ?_⟩
      · rw [listeners_cons]
        exact hcounts
      · have hunloaded : ¬ playlist.loaded = true := by
          intro hloaded
          obtain ⟨-, -, -, -, hreadable, hlisten⟩ := hanswers
          rw [hloaded, hreadable, hlisten] at hskip
          exact hskip rfl
        rw [List.map_cons, PlaylistObject.heard, if_neg hunloaded, ← hall hanswers]

theorem unlistenEach_spec
    (h : Counts heap (Multiset.ofList (playlists.flatMap PlaylistObject.listeners) + rest))
    (hfits : (Multiset.ofList (playlists.flatMap PlaylistObject.listeners) + rest).card < 2 ^ 32) :
    Succeeds (unlistenEach answers listener playlists i heap) fun r =>
      Counts r.2 (Multiset.ofList (r.1.flatMap PlaylistObject.listeners) + rest) ∧
        (Multiset.ofList (r.1.flatMap PlaylistObject.listeners) + rest).card < 2 ^ 32 ∧
        (answers.All → r.1 = playlists.map (PlaylistObject.unheard listener)) := by
  induction playlists generalizing i heap rest with
  | nil => exact Succeeds.pure ⟨h, hfits, fun _ => rfl⟩
  | cons playlist playlists ih =>
    rw [listeners_cons] at h hfits
    unfold unlistenEach
    split
    · next hloaded =>
      simp only [Bool.and_eq_true, decide_eq_true_eq] at hloaded
      have herase : Multiset.ofList playlist.listeners =
          listener ::ₘ Multiset.ofList (playlist.listeners.erase listener) :=
        Multiset.coe_eq_coe.mpr (List.perm_cons_erase hloaded.2.2.2)
      rw [herase, Multiset.cons_add, Multiset.add_cons] at h hfits
      rw [Multiset.card_cons] at hfits
      refine Succeeds.bind (h.release ?_) fun heap' h' => ?_
      · exact Nat.lt_of_le_of_lt (Nat.succ_le_succ (Multiset.count_le_card _ _)) hfits
      · refine Succeeds.bind (ih h' (Nat.lt_of_succ_lt hfits)) ?_
        rintro ⟨playlists', heap''⟩ ⟨hcounts, hcard, hall⟩
        refine Succeeds.pure ⟨?_, ?_, fun hanswers => ?_⟩
        · rw [listeners_cons]
          exact hcounts
        · rw [listeners_cons]
          exact hcard
        · rw [List.map_cons, PlaylistObject.unheard, if_pos hloaded.1, ← hall hanswers]
    · next hskip =>
      refine Succeeds.bind (ih h hfits) ?_
      rintro ⟨playlists', heap'⟩ ⟨hcounts, hcard, hall⟩
      refine Succeeds.pure ⟨?_, ?_, fun hanswers => ?_⟩
      · rw [listeners_cons]
        exact hcounts
      · rw [listeners_cons]
        exact hcard
      · have hsame : playlist.unheard listener = playlist := by
          unfold PlaylistObject.unheard
          split
          · next hloaded =>
            obtain ⟨-, -, -, -, hreadable, hlisten⟩ := hanswers
            have hnone : listener ∉ playlist.listeners := by
              intro hmem
              rw [hloaded, hreadable, hlisten, decide_eq_true hmem] at hskip
              exact hskip rfl
            rw [List.erase_of_not_mem hnone]
          · rfl
        rw [List.map_cons, hsame, ← hall hanswers]

/-! ### Start -/

theorem hookMessages_spec (h : Counts s.heap s.holders) (hnone : s.members.messageHook = none) :
    Succeeds (s.hookMessages answers) fun t => Counts t.heap t.holders ∧ ∃ hook,
      t.members = { s.members with messageHook := some hook } ∧
      t.player.extensions = s.player.extensions ∧ t.player.playlists = s.player.playlists ∧
      (answers.All → t.player.hooks = s.player.hooks ++ [hook]) := by
  have hmade := makeOwn_counts (fun hook => { s.members with messageHook := some hook }) h
    (by simp [Members.pointers, hnone])
  unfold hookMessages
  split
  · next hdispatcher =>
    refine Succeeds.weaken (keep_spec _ hmade ?_ (Player.pointers_hook _ _)) ?_
    · exact Multiset.mem_add.mpr (Or.inl (List.mem_append_left _ List.mem_cons_self))
    · rintro t ⟨hcounts, hplayer, hmembers⟩
      refine ⟨hcounts, _, hmembers, ?_, ?_, fun _ => ?_⟩
      · rw [hplayer]; rfl
      · rw [hplayer]; rfl
      · rw [hplayer]; rfl
  · next hdispatcher =>
    refine Succeeds.pure ⟨hmade, _, rfl, rfl, rfl, fun hall => absurd ?_ hdispatcher⟩
    rw [hall.1, hall.2.1]
    rfl

theorem makePlaylistListener_counts (h : Counts s.heap s.holders)
    (hnone : s.members.playlistListener = none) :
    Counts s.makePlaylistListener.heap s.makePlaylistListener.holders := by
  refine makeOwn_counts _ h ?_
  unfold Members.pointers
  rw [hnone]
  exact List.perm_middle

theorem registerListener_spec (h : Counts s.heap s.holders)
    (hnone : s.members.managerListener = none) :
    Succeeds (s.registerListener answers listener) fun t => Counts t.heap t.holders ∧
      ∃ extension : ManagerListener, extension.listener = listener ∧
      t.members = { s.members with managerListener := some extension } ∧
      t.player.hooks = s.player.hooks ∧ t.player.playlists = s.player.playlists ∧
      (t.player.extensions = s.player.extensions ∧ ¬ answers.All ∨
        t.player.extensions = s.player.extensions ++ [extension]) := by
  have hmade := makeOwn_counts
    (fun object => { s.members with managerListener := some ⟨object, listener⟩ }) h (by
      unfold Members.pointers
      rw [hnone, ← List.append_assoc, ← List.append_assoc]
      exact (List.perm_append_singleton _ _).trans (by rw [Option.map_none]; simp))
  unfold registerListener
  split
  · next hregister =>
    refine Succeeds.weaken (keep_spec _ hmade ?_ (Player.pointers_extension _ _)) ?_
    · refine Multiset.mem_add.mpr (Or.inl ?_)
      exact List.mem_append_right _ (List.mem_append_right _ List.mem_cons_self)
    · rintro t ⟨hcounts, hplayer, hmembers⟩
      refine ⟨hcounts, _, rfl, hmembers, ?_, ?_, Or.inr ?_⟩
      · rw [hplayer]; rfl
      · rw [hplayer]; rfl
      · rw [hplayer]; rfl
  · next hregister =>
    refine Succeeds.pure ⟨hmade, _, rfl, rfl, rfl, rfl, Or.inl ⟨rfl, fun hall => ?_⟩⟩
    exact hregister hall.2.2.1

/-- Who holds something other than a playlist. -/
def others (s : System) : Multiset Nat :=
  Multiset.ofList s.members.pointers +
    Multiset.ofList (s.player.hooks ++ s.player.extensions.map ManagerListener.object)

theorem holders_others (s : System) : s.holders =
    Multiset.ofList (s.player.playlists.flatMap PlaylistObject.listeners) + s.others := by
  unfold holders others Player.pointers
  rw [← List.append_assoc, ← Multiset.coe_add, Multiset.add_comm, Multiset.add_comm
    (Multiset.ofList s.members.pointers), Multiset.add_comm (Multiset.ofList (_ ++ _)),
    Multiset.add_assoc]

theorem listenAll_spec (h : Counts s.heap s.holders) (hmem : listener ∈ s.members.pointers) :
    Succeeds (s.listenAll answers listener) fun t => Counts t.heap t.holders ∧
      t.members = s.members ∧ t.player.hooks = s.player.hooks ∧
      t.player.extensions = s.player.extensions ∧
      (answers.All → t.player.playlists =
        s.player.playlists.map (PlaylistObject.heard listener)) := by
  unfold listenAll
  split
  · rw [holders_others] at h
    refine Succeeds.bind (listenEach_spec h ?_) ?_
    · exact Multiset.mem_add.mpr (Or.inl hmem)
    · rintro ⟨playlists, heap⟩ ⟨hcounts, hall⟩
      refine Succeeds.pure ⟨?_, rfl, rfl, rfl, hall⟩
      rw [holders_others]
      exact hcounts
  · next hmanager =>
    exact Succeeds.pure ⟨h, rfl, rfl, rfl, fun hall => absurd hall.2.2.2.1 hmanager⟩

/-- Nothing is made. -/
structure Idle (s : System) : Prop where
  messageHook : s.members.messageHook = none
  playlistListener : s.members.playlistListener = none
  managerListener : s.members.managerListener = none
  extensions : s.player.extensions = []

/-- Everything is made, and the manager's listener is registered or was refused. -/
structure Active (s : System) (hook : Nat) (extension : ManagerListener) : Prop where
  messageHook : s.members.messageHook = some hook
  playlistListener : s.members.playlistListener = some extension.listener
  managerListener : s.members.managerListener = some extension
  extensions : s.player.extensions = [] ∨ s.player.extensions = [extension]

theorem start_spec (h : Counts s.heap s.holders) (hidle : s.Idle) :
    Succeeds (s.start answers) fun t => Counts t.heap t.holders ∧ t.members.core = true ∧
      ∃ hook extension, t.Active hook extension ∧
      (answers.All → t.player.hooks = s.player.hooks ++ [hook] ∧
        t.player.extensions = [extension] ∧ t.player.playlists =
          s.player.playlists.map (PlaylistObject.heard extension.listener)) := by
  unfold start
  refine Succeeds.bind (hookMessages_spec ?_ ?_) ?_
  · exact h
  · exact hidle.messageHook
  rintro s₁ ⟨hcounts₁, hook, hmembers₁, hextensions₁, hplaylists₁, hhooks₁⟩
  have hcounts₂ := makePlaylistListener_counts hcounts₁ (by rw [hmembers₁]; exact
    hidle.playlistListener)
  refine Succeeds.bind (registerListener_spec hcounts₂ ?_) ?_
  · show s₁.members.managerListener = none
    rw [hmembers₁]
    exact hidle.managerListener
  rintro s₃ ⟨hcounts₃, extension, hlistener, hmembers₃, hhooks₃, hplaylists₃, hextensions₃⟩
  have hplaylistListener : s₃.members.playlistListener = some extension.listener := by
    rw [hmembers₃, hlistener]
    rfl
  refine Succeeds.weaken (listenAll_spec hcounts₃ ?_) ?_
  · unfold Members.pointers
    rw [hplaylistListener, hlistener]
    exact List.mem_append_right _ (List.mem_append_left _ List.mem_cons_self)
  rintro t ⟨hcounts, hmembers, hhooks, hextensions, hplaylists⟩
  have hnone : s₁.makePlaylistListener.player.extensions = [] := hextensions₁.trans hidle.extensions
  rw [hnone] at hextensions₃
  refine ⟨hcounts, ?_, hook, extension, ⟨?_, ?_, ?_, ?_⟩, fun hall => ⟨?_, ?_, ?_⟩⟩
  · rw [hmembers, hmembers₃]
    show s₁.members.core = true
    rw [hmembers₁]
  · rw [hmembers, hmembers₃]
    show s₁.members.messageHook = some hook
    rw [hmembers₁]
  · rw [hmembers, hplaylistListener]
  · rw [hmembers, hmembers₃]
  · rw [hextensions]
    exact hextensions₃.imp And.left id
  · rw [hhooks, hhooks₃]
    exact hhooks₁ hall
  · rw [hextensions]
    exact hextensions₃.resolve_left fun hleft => hleft.2 hall
  · rw [hplaylists hall, hplaylists₃, ← hlistener]
    show s₁.player.playlists.map _ = _
    rw [hplaylists₁]

/-! ### Stop -/

variable {hook : Nat} {extension : ManagerListener}

theorem unhook_spec (h : Counts s.heap s.holders) (hfits : s.Fits) :
    Succeeds (s.unhook answers hook) fun t => (Counts t.heap t.holders ∧ t.Fits) ∧
      t.members = s.members ∧ t.player.extensions = s.player.extensions ∧
      t.player.playlists = s.player.playlists ∧
      (answers.All → t.player.hooks = s.player.hooks.erase hook) := by
  unfold unhook
  split
  · next hunhook =>
    simp only [Bool.and_eq_true, decide_eq_true_eq] at hunhook
    refine Succeeds.weaken (drop_spec h hfits (Player.pointers_unhook hunhook.2.2)) ?_
    rintro t ⟨hcounts, hplayer, hmembers⟩
    refine ⟨hcounts, hmembers, ?_, ?_, fun _ => ?_⟩
    · rw [hplayer]
    · rw [hplayer]
    · rw [hplayer]
  · next hstays =>
    refine Succeeds.pure ⟨⟨h, hfits⟩, rfl, rfl, rfl, fun hall => ?_⟩
    have hgone : hook ∉ s.player.hooks := by
      intro hmem
      rw [hall.1, hall.2.1, decide_eq_true hmem] at hstays
      exact hstays rfl
    rw [List.erase_of_not_mem hgone]

theorem dropHook_spec (h : Counts s.heap s.holders) (hfits : s.Fits)
    (hhook : s.members.messageHook = some hook) :
    Succeeds (s.dropHook answers) fun t => (Counts t.heap t.holders ∧ t.Fits) ∧
      t.members = { s.members with messageHook := none } ∧
      t.player.extensions = s.player.extensions ∧ t.player.playlists = s.player.playlists ∧
      (answers.All → t.player.hooks = s.player.hooks.erase hook) := by
  have hown : s.members.pointers.Perm (hook :: { s.members with messageHook := none }.pointers) := by
    unfold Members.pointers
    rw [hhook]
    exact List.Perm.refl _
  simp only [dropHook, hhook]
  refine Succeeds.bind (unhook_spec h hfits) ?_
  rintro s₁ ⟨⟨hcounts₁, hfits₁⟩, hmembers₁, hextensions₁, hplaylists₁, hhooks₁⟩
  refine Succeeds.weaken (dropOwn_spec hcounts₁ hfits₁ (hmembers₁ ▸ hown)) ?_
  rintro t ⟨hcounts, hplayer, hmembers⟩
  refine ⟨hcounts, hmembers₁ ▸ hmembers, ?_, ?_, fun hall => ?_⟩
  · rw [hplayer, hextensions₁]
  · rw [hplayer, hplaylists₁]
  · rw [hplayer, hhooks₁ hall]

theorem unlistenAll_spec (h : Counts s.heap s.holders) (hfits : s.Fits)
    (hlistener : s.members.playlistListener = some listener) :
    Succeeds (s.unlistenAll answers) fun t => (Counts t.heap t.holders ∧ t.Fits) ∧
      t.members = s.members ∧ t.player.hooks = s.player.hooks ∧
      t.player.extensions = s.player.extensions ∧
      (answers.All → t.player.playlists =
        s.player.playlists.map (PlaylistObject.unheard listener)) := by
  simp only [unlistenAll, hlistener]
  split
  · rw [Fits, holders_others] at hfits
    rw [holders_others] at h
    refine Succeeds.bind (unlistenEach_spec h hfits) ?_
    rintro ⟨playlists, heap⟩ ⟨hcounts, hcard, hall⟩
    refine Succeeds.pure ⟨⟨?_, ?_⟩, rfl, rfl, rfl, hall⟩
    · rw [holders_others]
      exact hcounts
    · rw [Fits, holders_others]
      exact hcard
  · next hmanager =>
    exact Succeeds.pure ⟨⟨h, hfits⟩, rfl, rfl, rfl, fun hall => absurd hall.2.2.2.1 hmanager⟩

theorem unregister_spec (h : Counts s.heap s.holders) (hfits : s.Fits)
    (hextensions : s.player.extensions = [] ∨ s.player.extensions = [extension]) :
    Succeeds (s.unregister answers extension) fun t => (Counts t.heap t.holders ∧ t.Fits) ∧
      t.members = s.members ∧ t.player.hooks = s.player.hooks ∧
      t.player.playlists = s.player.playlists ∧
      (s.player.extensions = [] ∨ answers.register = true → t.player.extensions = []) := by
  unfold unregister
  split
  · next hgiven =>
    simp only [Bool.and_eq_true, decide_eq_true_eq] at hgiven
    have hone := hextensions.resolve_left (List.ne_nil_of_mem hgiven.2)
    refine Succeeds.weaken (drop_spec h hfits (Player.pointers_unregister hgiven.2)) ?_
    rintro t ⟨hcounts, hplayer, hmembers⟩
    refine ⟨hcounts, hmembers, ?_, ?_, fun _ => ?_⟩
    · rw [hplayer]
    · rw [hplayer]
    · rw [hplayer, hone]
      exact List.erase_cons_head extension []
  · next hkept =>
    refine Succeeds.pure ⟨⟨h, hfits⟩, rfl, rfl, rfl, ?_⟩
    rintro (hnone | hregister)
    · exact hnone
    · refine hextensions.resolve_right fun hone => hkept ?_
      rw [hregister, hone, decide_eq_true List.mem_cons_self]
      rfl

theorem dropManagerListener_spec (h : Counts s.heap s.holders) (hfits : s.Fits)
    (hextension : s.members.managerListener = some extension)
    (hextensions : s.player.extensions = [] ∨ s.player.extensions = [extension]) :
    Succeeds (s.dropManagerListener answers) fun t => (Counts t.heap t.holders ∧ t.Fits) ∧
      t.members = { s.members with managerListener := none } ∧
      t.player.hooks = s.player.hooks ∧ t.player.playlists = s.player.playlists ∧
      (s.player.extensions = [] ∨ answers.register = true → t.player.extensions = []) := by
  have hown : s.members.pointers.Perm
      (extension.object :: { s.members with managerListener := none }.pointers) := by
    unfold Members.pointers
    rw [hextension]
    simp only [Option.map_some, Option.map_none, Option.toList_some, Option.toList_none,
      List.append_nil, ← List.append_assoc]
    exact List.perm_append_singleton _ _
  simp only [dropManagerListener, hextension]
  refine Succeeds.bind (unregister_spec h hfits hextensions) ?_
  rintro s₁ ⟨⟨hcounts₁, hfits₁⟩, hmembers₁, hhooks₁, hplaylists₁, hextensions₁⟩
  refine Succeeds.weaken (dropOwn_spec hcounts₁ hfits₁ (hmembers₁ ▸ hown)) ?_
  rintro t ⟨hcounts, hplayer, hmembers⟩
  refine ⟨hcounts, hmembers₁ ▸ hmembers, ?_, ?_, fun hgiven => ?_⟩
  · rw [hplayer, hhooks₁]
  · rw [hplayer, hplaylists₁]
  · rw [hplayer, hextensions₁ hgiven]

theorem dropPlaylistListener_spec (h : Counts s.heap s.holders) (hfits : s.Fits)
    (hlistener : s.members.playlistListener = some listener) :
    Succeeds s.dropPlaylistListener fun t => (Counts t.heap t.holders ∧ t.Fits) ∧
      t.player = s.player ∧ t.members = { s.members with playlistListener := none } := by
  simp only [dropPlaylistListener, hlistener]
  refine dropOwn_spec h hfits ?_
  unfold Members.pointers
  rw [hlistener]
  exact List.perm_middle

theorem stop_of_core (h : Counts s.heap s.holders) (hfits : s.Fits)
    (hcore : s.members.core = true) (hactive : s.Active hook extension) :
    Succeeds (s.stop answers) fun t => Counts t.heap t.holders ∧ t.members.core = false ∧
      (s.player.extensions = [] ∨ answers.register = true → t.Idle) ∧
      (answers.All → t.player.hooks = s.player.hooks.erase hook ∧ t.player.playlists =
        s.player.playlists.map (PlaylistObject.unheard extension.listener)) := by
  unfold stop
  rw [if_pos hcore]
  refine Succeeds.bind (dropHook_spec h hfits hactive.messageHook) ?_
  rintro s₁ ⟨⟨hcounts₁, hfits₁⟩, hmembers₁, hextensions₁, hplaylists₁, hhooks₁⟩
  have hlistener₁ : s₁.members.playlistListener = some extension.listener := by
    rw [hmembers₁]
    exact hactive.playlistListener
  refine Succeeds.bind (unlistenAll_spec hcounts₁ hfits₁ hlistener₁) ?_
  rintro s₂ ⟨⟨hcounts₂, hfits₂⟩, hmembers₂, hhooks₂, hextensions₂, hplaylists₂⟩
  have hextension₂ : s₂.members.managerListener = some extension := by
    rw [hmembers₂, hmembers₁]
    exact hactive.managerListener
  have hone₂ : s₂.player.extensions = [] ∨ s₂.player.extensions = [extension] := by
    rw [hextensions₂, hextensions₁]
    exact hactive.extensions
  refine Succeeds.bind (dropManagerListener_spec hcounts₂ hfits₂ hextension₂ hone₂) ?_
  rintro s₃ ⟨⟨hcounts₃, hfits₃⟩, hmembers₃, hhooks₃, hplaylists₃, hextensions₃⟩
  have hlistener₃ : s₃.members.playlistListener = some extension.listener := by
    rw [hmembers₃, hmembers₂]
    exact hlistener₁
  refine Succeeds.bind (dropPlaylistListener_spec hcounts₃ hfits₃ hlistener₃) ?_
  rintro t ⟨⟨hcounts, -⟩, hplayer, hmembers⟩
  refine Succeeds.pure ⟨hcounts, rfl, fun hgiven => ⟨?_, ?_, ?_, ?_⟩, fun hall => ⟨?_, ?_⟩⟩
  · show t.members.messageHook = none
    rw [hmembers, hmembers₃, hmembers₂, hmembers₁]
  · show t.members.playlistListener = none
    rw [hmembers]
  · show t.members.managerListener = none
    rw [hmembers, hmembers₃]
  · show t.player.extensions = []
    have hgiven₂ : s₂.player.extensions = [] ∨ answers.register = true := by
      rw [hextensions₂, hextensions₁]
      exact hgiven
    rw [hplayer, hextensions₃ hgiven₂]
  · show t.player.hooks = _
    rw [hplayer, hhooks₃, hhooks₂]
    exact hhooks₁ hall
  · show t.player.playlists = _
    rw [hplayer, hplaylists₃, hplaylists₂ hall, hplaylists₁]

end System

end Subscription

end RemoteControl
