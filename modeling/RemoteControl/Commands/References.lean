import RemoteControl.Aimp.References
import RemoteControl.Commands.PlayNext

/-!
# The tasks, with their references

What the commands run on the main thread, once more with the references it gets and gives
back. Each task ends with the references it began with and returns what the task without
references returns.
-/

namespace RemoteControl.Counted

open References

variable {σ ι : Type} {held : Multiset Nat}
variable (core : Core ι) (idManager : RemoteControlIdManager) (controls : PlayerControls ι)

/-! ## Playlists and the queue -/

def newObjectList : Option Unit := if core.createObjectList then some () else none

/-- The body of the loop of `AddFilesToPlaylist`: the string, if the list takes it. -/
def addString (list : Ref Unit) (uri : Bytes) : Counted σ (List Bytes) := do
  let s ← stringToIAIMPString core uri
  withRef s (pure []) fun s => do
    let file ← iaimpStringToString s
    call list fun _ => if core.objectListAdd file then [file] else []

def addStrings (list : Ref Unit) : List Bytes → Counted σ (List Bytes)
  | [] => pure []
  | uri :: uris => do
    let added ← addString core list uri
    let rest ← addStrings list uris
    pure (added ++ rest)

/-- `AddFilesToPlaylist`. -/
def addFilesToPlaylist (playlistId : PluginId) (fileUris : List Bytes) :
    Counted σ (HRESULT × List (Call ι)) := do
  let playlist ← findPlaylist core idManager playlistId
  withRef playlist (pure (eInvalidArg, [])) fun playlist => do
    let list ← take (newObjectList core)
    withRef list (pure (eFail, [])) fun list => do
      let strings ← addStrings core list fileUris
      let files ← call list fun _ => strings
      call playlist fun playlist =>
        (playlist.addList files, [⟨.addList playlist.id files, playlist.addList files⟩])

def renameTask (playlistId : PluginId) (newName : Bytes) : Counted σ (HRESULT × List (Call ι)) := do
  let playlist ← findPlaylist core idManager playlistId
  withRef playlist (pure (eInvalidArg, [])) fun playlist => do
    let props ← query playlist propertiesOf
    withRef props (pure (eFail, [])) fun props => do
      let name ← stringToIAIMPString core newName
      withRef name (pure (eFail, [])) fun name => do
        let name ← iaimpStringToString name
        call props fun props =>
          (props.setName name, [⟨.setName props.id name, props.setName name⟩])

def removePlaylistTask (playlistId : PluginId) : Counted σ (HRESULT × List (Call ι)) := do
  let playlist ← findPlaylist core idManager playlistId
  withRef playlist (pure (eInvalidArg, [])) fun playlist =>
    call playlist fun playlist => (playlist.close, [⟨.close playlist.id, playlist.close⟩])

def enqueueTask (trackId : PluginId) (atBeginning : Bool) :
    Counted σ (HRESULT × List (Call ι)) := do
  let item ← findItem core idManager trackId
  withRef item (pure (eInvalidArg, [])) fun item => do
    let queue ← take core.playlistQueue
    withRef queue (pure (eFail, [])) fun queue => do
      let item ← call item fun item => item
      call queue fun queue =>
        (queue.add item atBeginning, [⟨.enqueue item atBeginning, queue.add item atBeginning⟩])

def dequeueTask (trackId : PluginId) : Counted σ (HRESULT × List (Call ι)) := do
  let item ← findItem core idManager trackId
  withRef item (pure (eInvalidArg, [])) fun item => do
    let queue ← take core.playlistQueue
    withRef queue (pure (eFail, [])) fun queue => do
      let item ← call item fun item => item
      call queue fun queue => (queue.delete item, [⟨.dequeue item, queue.delete item⟩])

/-- With the item and the playlist `FindPlaylistItem` has found, which are given back in
this order. -/
def withFound {β : Type} (found : Option (Ref ι) × Option (Ref (Playlist ι)))
    (absent : Counted σ β) (body : Ref ι → Ref (Playlist ι) → Counted σ β) : Counted σ β :=
  match found.1 with
  | none => absent
  | some item => do
    let playlist ← deref found.2
    releasing playlist (releasing item (body item playlist))

def removeTrackTask (trackId : PluginId) (physically : Bool) :
    Counted σ (HRESULT × List (Call ι)) := do
  let found ← findPlaylistItem core idManager trackId true
  withFound found (pure (eInvalidArg, [])) fun item playlist =>
    if physically then do
      let index ← call item (readIndex core)
      call playlist fun playlist =>
        (playlist.delete3 (deleteOnlyIndex core index),
          [⟨.delete3 playlist.id index, playlist.delete3 (deleteOnlyIndex core index)⟩])
    else do
      let item ← call item fun item => item
      call playlist fun playlist =>
        (playlist.delete item, [⟨.delete playlist.id item, playlist.delete item⟩])

/-! ## One track -/

def setRatingTask (trackId : PluginId) (rating : Rat) :
    Counted σ (Option Rat × List (Call ι)) := do
  let item ← findItem core idManager trackId
  withRef item (pure (none, [])) fun item => do
    let set ← call item fun item => (⟨.setMark item rating, controls.setMark item rating⟩ : Call ι)
    let actual ← call item fun item => (controls.markAfter item rating).getD 0
    pure (some actual, [set])

def setEnabledTask (trackId : PluginId) (enabled : Bool) : Counted σ (Bool × List (Call ι)) := do
  let item ← findItem core idManager trackId
  withRef item (pure (false, [])) fun item =>
    call item fun item =>
      let value := if enabled then 1 else 0
      (true, [⟨.setPlayingSwitch item value, controls.setPlayingSwitch item value⟩])

/-! ## They are balanced -/

variable {core idManager controls}

theorem mem_top {token : Nat} : token ∈ token ::ₘ held := Multiset.mem_cons_self _ _

theorem mem_below {token other : Nat} (h : token ∈ held) : token ∈ other ::ₘ held :=
  Multiset.mem_cons_of_mem h

theorem addString_returns {list : Ref Unit} {uri : Bytes} (h : list.token ∈ held) :
    Returns (σ := σ) held (addString core list uri)
      (pure ([uri].filter fun uri => core.createString uri && core.objectListAdd uri)) := by
  refine Returns.withRef (stringToIAIMPString_gives core uri) ?_ ?_
  · intro hnone
    rw [List.filter_cons, newString_eq_none.mp hnone]
    exact Returns.pure _
  · intro s token hsome
    obtain ⟨hcreate, rfl⟩ := newString_eq_some.mp hsome
    refine Returns.call_step mem_top ?_
    rw [List.filter_cons, hcreate, Bool.true_and, List.filter_nil]
    exact Returns.call _ (mem_below h)

theorem addStrings_returns {list : Ref Unit} {uris : List Bytes} (h : list.token ∈ held) :
    Returns (σ := σ) held (addStrings core list uris)
      (pure (uris.filter fun uri => core.createString uri && core.objectListAdd uri)) := by
  induction uris with
  | nil => exact Returns.pure _
  | cons uri uris ih =>
    refine Returns.step (addString_returns h) (Returns.step ih ?_)
    rw [← List.filter_append, List.singleton_append]
    exact Returns.pure _

theorem newObjectList_eq_none : newObjectList core = none ↔ core.createObjectList = false := by
  simp [newObjectList]

theorem newObjectList_eq_some {list : Unit} :
    newObjectList core = some list ↔ core.createObjectList = true := by
  simp [newObjectList]

theorem addFilesToPlaylist_balanced (playlistId : PluginId) (fileUris : List Bytes) :
    Balanced (σ := σ) (addFilesToPlaylist core idManager playlistId fileUris)
      (pure (RemoteControl.addFilesToPlaylist playlistId fileUris core idManager)) := by
  intro held
  unfold RemoteControl.addFilesToPlaylist
  refine Returns.withRef (findPlaylist_gives core idManager playlistId) ?_ ?_
  · intro hnone
    rw [hnone]
    exact Returns.pure _
  · intro playlist token hsome
    rw [hsome]
    refine Returns.withRef (Gives.take _) ?_ ?_
    · intro hnone
      simp only [newObjectList_eq_none.mp hnone]
      exact Returns.pure _
    · intro list token' hsome'
      simp only [newObjectList_eq_some.mp hsome', if_true]
      refine Returns.step (addStrings_returns mem_top) ?_
      refine Returns.call_step mem_top ?_
      exact Returns.call _ (mem_below mem_top)

theorem renameTask_balanced (playlistId : PluginId) (newName : Bytes) :
    Balanced (σ := σ) (renameTask core idManager playlistId newName)
      (pure (RemoteControl.renameTask playlistId newName core idManager)) := by
  intro held
  unfold RemoteControl.renameTask
  refine Returns.withRef (findPlaylist_gives core idManager playlistId) ?_ ?_
  · intro hnone
    rw [hnone]
    exact Returns.pure _
  · intro playlist token hsome
    simp only [hsome]
    refine Returns.withRef (Gives.query _ mem_top) ?_ ?_
    · intro hnone
      have hprops : playlist.hasProperties = false := propertiesOf_eq_none hnone
      rw [if_neg fun h => by simp [hprops] at h]
      exact Returns.pure _
    · intro props token' hsome'
      obtain ⟨rfl, hprops⟩ := propertiesOf_eq_some hsome'
      refine Returns.withRef (stringToIAIMPString_gives core newName) ?_ ?_
      · intro hnone
        rw [if_neg fun h => by simp [newString_eq_none.mp hnone] at h]
        exact Returns.pure _
      · intro name token'' hname
        obtain ⟨hcreate, rfl⟩ := newString_eq_some.mp hname
        rw [if_pos ⟨hprops, hcreate⟩]
        refine Returns.call_step mem_top ?_
        exact Returns.call _ (mem_below mem_top)

theorem removePlaylistTask_balanced (playlistId : PluginId) :
    Balanced (σ := σ) (removePlaylistTask core idManager playlistId)
      (pure (RemoteControl.removePlaylistTask playlistId core idManager)) := by
  intro held
  unfold RemoteControl.removePlaylistTask
  refine Returns.withRef (findPlaylist_gives core idManager playlistId) ?_ ?_
  · intro hnone
    rw [hnone]
    exact Returns.pure _
  · intro playlist token hsome
    rw [hsome]
    exact Returns.call _ mem_top

/-- A block with the item a track id names. -/
theorem Returns.withItem {α : Type} {trackId : PluginId} {absent : Counted σ α}
    {body : Ref ι → Counted σ α} {plain : StateT σ Option α}
    (hnone : RemoteControl.findPlaylistItem core idManager trackId = none →
      Returns held absent plain)
    (hsome : ∀ item playlist token,
      RemoteControl.findPlaylistItem core idManager trackId = some (item, playlist) →
      Returns (token ::ₘ held) (body ⟨item, token⟩) plain) :
    Returns held (findItem core idManager trackId >>= fun item => withRef item absent body)
      plain := by
  refine Returns.withRef (findItem_gives core idManager trackId) ?_ ?_
  · exact fun h => hnone (Option.map_eq_none_iff.mp h)
  · intro item token h
    obtain ⟨⟨_, playlist⟩, hfound, rfl⟩ := Option.map_eq_some_iff.mp h
    exact hsome _ playlist token hfound

theorem enqueueTask_balanced (trackId : PluginId) (atBeginning : Bool) :
    Balanced (σ := σ) (enqueueTask core idManager trackId atBeginning)
      (pure (RemoteControl.enqueueTask trackId atBeginning core idManager)) := by
  intro held
  unfold RemoteControl.enqueueTask
  refine Returns.withItem ?_ ?_
  · intro hnone
    rw [hnone]
    exact Returns.pure _
  · intro item playlist token hsome
    rw [hsome]
    refine Returns.withRef (Gives.take _) ?_ ?_
    · intro hnone
      simp only [hnone]
      exact Returns.pure _
    · intro queue token' hsome'
      simp only [hsome']
      refine Returns.call_step (mem_below mem_top) ?_
      exact Returns.call _ mem_top

theorem dequeueTask_balanced (trackId : PluginId) :
    Balanced (σ := σ) (dequeueTask core idManager trackId)
      (pure (RemoteControl.dequeueTask trackId core idManager)) := by
  intro held
  unfold RemoteControl.dequeueTask
  refine Returns.withItem ?_ ?_
  · intro hnone
    rw [hnone]
    exact Returns.pure _
  · intro item playlist token hsome
    rw [hsome]
    refine Returns.withRef (Gives.take _) ?_ ?_
    · intro hnone
      simp only [hnone]
      exact Returns.pure _
    · intro queue token' hsome'
      simp only [hsome']
      refine Returns.call_step (mem_below mem_top) ?_
      exact Returns.call _ mem_top

/-- A block with the item a track id names, and its playlist. -/
theorem Returns.withFound {α : Type} {trackId : PluginId} {absent : Counted σ α}
    {body : Ref ι → Ref (Playlist ι) → Counted σ α} {plain : StateT σ Option α}
    (hnone : RemoteControl.findPlaylistItem core idManager trackId = none →
      Returns held absent plain)
    (hsome : ∀ item playlist token owner,
      RemoteControl.findPlaylistItem core idManager trackId = some (item, playlist) →
      Returns (token ::ₘ owner ::ₘ held) (body ⟨item, token⟩ ⟨playlist, owner⟩) plain) :
    Returns held (findPlaylistItem core idManager trackId true >>= fun found =>
      withFound found absent body) plain := by
  refine Meets.step (findPlaylistItem_meets core idManager trackId true) ?_
  generalize RemoteControl.findPlaylistItem core idManager trackId = found at hnone hsome ⊢
  intro refs after hfound
  cases hfound with
  | none => exact hnone rfl
  | item _ _ _ h => cases h
  | both item playlist token owner h =>
    refine Returns.step (Returns.pure _) ?_
    have hitem : Meets (token ::ₘ owner ::ₘ held)
        (releasing ⟨item, token⟩ (body ⟨item, token⟩ ⟨playlist, owner⟩)) plain
        fun a b after => b = a ∧ after = owner ::ₘ held :=
      Returns.releasing rfl (hsome item playlist token owner rfl)
    refine Meets.releasing (hitem.weaken ?_)
    rintro a b _ ⟨hb, rfl⟩
    exact ⟨held, rfl, hb, rfl⟩

theorem removeTrackTask_balanced (trackId : PluginId) (physically : Bool) :
    Balanced (σ := σ) (removeTrackTask core idManager trackId physically)
      (pure (RemoteControl.removeTrackTask trackId physically core idManager)) := by
  intro held
  unfold RemoteControl.removeTrackTask
  refine Returns.withFound ?_ ?_
  · intro hnone
    rw [hnone]
    exact Returns.pure _
  · intro item playlist token owner hsome
    simp only [hsome]
    cases physically with
    | true =>
      refine Returns.call_step mem_top ?_
      exact Returns.call _ (mem_below mem_top)
    | false =>
      refine Returns.call_step mem_top ?_
      exact Returns.call _ (mem_below mem_top)

theorem setRatingTask_balanced (trackId : PluginId) (rating : Rat) :
    Balanced (σ := σ) (setRatingTask core idManager controls trackId rating)
      (pure (RemoteControl.setRatingTask controls trackId rating core idManager)) := by
  intro held
  unfold RemoteControl.setRatingTask
  refine Returns.withItem ?_ ?_
  · intro hnone
    rw [hnone]
    exact Returns.pure _
  · intro item playlist token hsome
    rw [hsome]
    refine Returns.call_step mem_top ?_
    refine Returns.call_step mem_top ?_
    exact Returns.pure _

theorem setEnabledTask_balanced (trackId : PluginId) (enabled : Bool) :
    Balanced (σ := σ) (setEnabledTask core idManager controls trackId enabled)
      (pure (RemoteControl.setEnabledTask controls trackId enabled core idManager)) := by
  intro held
  unfold RemoteControl.setEnabledTask
  refine Returns.withItem ?_ ?_
  · intro hnone
    rw [hnone]
    exact Returns.pure _
  · intro item playlist token hsome
    rw [hsome]
    exact Returns.call _ mem_top

end RemoteControl.Counted
