import RemoteControl.Aimp.Find
import RemoteControl.Lib.References

/-!
# The helpers, with their references

aimpHelper.cpp once more, with every reference it gets and gives back: what a call of the
SDK answers with is a reference to it, and `Release` has to be called once for each. A
string that cannot be read is the empty one, and an interface that is not there is `none`.
-/

namespace RemoteControl.Counted

open References

variable {σ ι α : Type} {held : Multiset Nat}

/-! ## Strings -/

/-- `CreateObject(IID_IAIMPString)`, with what the string is then set to. -/
def newString (core : Core ι) (utf8 : Bytes) : Option Bytes :=
  if core.createString utf8 then some utf8 else none

/-- `StringToIAIMPString`. -/
def stringToIAIMPString (core : Core ι) (utf8 : Bytes) : Counted σ (Option (Ref Bytes)) := do
  let s ← take (newString core utf8)
  match s with
  | none => pure none
  | some s => do
    -- `SetData`
    call s fun _ => ()
    pure (some s)

/-- `IAIMPStringToString`. -/
def iaimpStringToString (s : Ref Bytes) : Counted σ Bytes := call s fun utf8 => utf8

/-- `GetPropertyAsString`. -/
def getPropertyAsString (props : Option (Ref α)) (property : α → Option Bytes) :
    Counted σ Bytes :=
  match props with
  | none => pure []
  | some props => do
    let s ← query props property
    withRef s (pure []) iaimpStringToString

theorem newString_eq_none {core : Core ι} {utf8 : Bytes} :
    newString core utf8 = none ↔ core.createString utf8 = false := by
  simp [newString]

theorem newString_eq_some {core : Core ι} {utf8 s : Bytes} :
    newString core utf8 = some s ↔ core.createString utf8 = true ∧ utf8 = s := by
  simp [newString]

theorem stringToIAIMPString_gives (core : Core ι) (utf8 : Bytes) :
    Gives (σ := σ) held (stringToIAIMPString core utf8) (newString core utf8) := by
  refine Meets.step (Gives.take _) ?_
  generalize newString core utf8 = answer
  intro s after hgiven
  cases hgiven with
  | none => exact Gives.none
  | some object token =>
    refine Returns.call_step (Multiset.mem_cons_self _ _) ?_
    exact Meets.pure (.some object token)

theorem iaimpStringToString_returns {s : Ref Bytes} (h : s.token ∈ held) :
    Returns (σ := σ) held (iaimpStringToString s) (pure s.object) := Returns.call _ h

theorem getPropertyAsString_returns {props : Option (Ref α)} (property : α → Option Bytes)
    (h : ∀ props' ∈ props, props'.token ∈ held) :
    Returns (σ := σ) held (getPropertyAsString props property)
      (pure (((props.map Ref.object).bind property).getD [])) := by
  cases props with
  | none => exact Returns.pure _
  | some props =>
    refine Returns.withRef (Gives.query _ (h props rfl)) ?_ ?_
    · intro hnone
      simp only [Option.map_some, Option.bind_some, hnone]
      exact Returns.pure _
    · intro s token hsome
      simp only [Option.map_some, Option.bind_some, hsome]
      exact iaimpStringToString_returns (Multiset.mem_cons_self _ _)

/-! ## Playlists -/

/-- `QueryInterface(IID_IAIMPPlaylistProperties)`. -/
def propertiesOf (playlist : Playlist ι) : Option (Playlist ι) :=
  if playlist.hasProperties then some playlist else none

/-- An id that cannot be read is empty. -/
def idOf (props : Playlist ι) : Option Bytes := if props.id = [] then none else some props.id

/-- `GetPlaylistAIMPId`. -/
def getPlaylistAIMPId : Option (Ref (Playlist ι)) → Counted σ Bytes
  | none => pure []
  | some playlist => do
    let props ← query playlist propertiesOf
    withRef props (pure []) fun props => getPropertyAsString (some props) idOf

@[simp] theorem getD_idOf (props : Playlist ι) : (idOf props).getD [] = props.id := by
  unfold idOf
  split
  · next h => exact h.symm
  · rfl

theorem propertiesOf_eq_some {playlist props : Playlist ι}
    (h : propertiesOf playlist = some props) :
    props = playlist ∧ playlist.hasProperties = true := by
  unfold propertiesOf at h
  split at h
  · next hprops => exact ⟨(Option.some.inj h).symm, hprops⟩
  · cases h

theorem propertiesOf_eq_none {playlist : Playlist ι} (h : propertiesOf playlist = none) :
    playlist.hasProperties = false := by
  unfold propertiesOf at h
  split at h
  · cases h
  · next hprops => exact Bool.eq_false_iff.mpr hprops

theorem getPlaylistAIMPId_returns {playlist : Option (Ref (Playlist ι))}
    (h : ∀ playlist' ∈ playlist, playlist'.token ∈ held) :
    Returns (σ := σ) held (getPlaylistAIMPId playlist)
      (pure (RemoteControl.getPlaylistAIMPId (playlist.map Ref.object))) := by
  cases playlist with
  | none => exact Returns.pure _
  | some playlist =>
    refine Returns.withRef (Gives.query _ (h playlist rfl)) ?_ ?_
    · intro hnone
      have hprops := propertiesOf_eq_none hnone
      simp only [Option.map_some, RemoteControl.getPlaylistAIMPId, hprops]
      exact Returns.pure _
    · intro props token hsome
      obtain ⟨rfl, hprops⟩ := propertiesOf_eq_some hsome
      have hid := @getPropertyAsString_returns σ _ _ (some ⟨playlist.object, token⟩) idOf
        (by rintro _ ⟨⟩; exact Multiset.mem_cons_self token held)
      simp only [Option.map_some, Option.bind_some, getD_idOf] at hid
      simp only [Option.map_some, RemoteControl.getPlaylistAIMPId, hprops, if_true]
      exact hid

/-- `LoadedPlaylistByAIMPId`. -/
def loadedPlaylistByAIMPId (core : Core ι) (aimpId : Bytes) :
    Counted σ (Option (Ref (Playlist ι))) :=
  if aimpId = [] then pure none
  else do
    let mgr ← take core.playlistManager
    withRef mgr (pure none) fun mgr => do
      let key ← stringToIAIMPString core aimpId
      withRef key (pure none) fun key => do
        let id ← iaimpStringToString key
        query mgr fun mgr => mgr.getLoadedPlaylistByID id

/-- `FindPlaylist`. -/
def findPlaylist (core : Core ι) (idManager : RemoteControlIdManager) (playlistId : PluginId) :
    Counted σ (Option (Ref (Playlist ι))) :=
  loadedPlaylistByAIMPId core (idManager.playlistGetKey playlistId)

/-- `GetItem`, of an index in the range. -/
def itemOf (owner : Ref (Playlist ι)) (index : Int) : Counted σ (Option (Ref ι)) := do
  let count ← call owner fun playlist => (playlist.items.length : Int)
  if index < 0 ∨ index ≥ count then pure none
  else query owner fun playlist => playlist.getItem index

/-- `FindPlaylistItem`: the item, and what is written to `*playlist` when it is wanted. -/
def findPlaylistItem (core : Core ι) (idManager : RemoteControlIdManager) (trackId : PluginId)
    (wantPlaylist : Bool) : Counted σ (Option (Ref ι) × Option (Ref (Playlist ι))) := do
  let key := idManager.playlistItemGetKey trackId
  let owner ← loadedPlaylistByAIMPId core key.aimpPlaylistId
  match owner with
  | none => pure (none, none)
  | some owner => do
    let item ← itemOf owner key.index
    if item.isSome && wantPlaylist then pure (item, some owner)
    else do
      release owner
      pure (item, none)

/-- `FindPlaylistItem` where nobody wants the playlist. -/
def findItem (core : Core ι) (idManager : RemoteControlIdManager) (trackId : PluginId) :
    Counted σ (Option (Ref ι)) := do
  let found ← findPlaylistItem core idManager trackId false
  pure found.1

variable (core : Core ι) (idManager : RemoteControlIdManager)

theorem loadedPlaylistByAIMPId_gives (aimpId : Bytes) :
    Gives (σ := σ) held (loadedPlaylistByAIMPId core aimpId)
      (RemoteControl.loadedPlaylistByAIMPId core aimpId) := by
  unfold loadedPlaylistByAIMPId RemoteControl.loadedPlaylistByAIMPId
  split
  · exact Gives.none
  · refine Gives.withRef (Gives.take _) ?_ ?_
    · intro hnone
      simp only [hnone]
      exact Gives.none
    · intro mgr token hsome
      simp only [hsome]
      refine Gives.withRef (stringToIAIMPString_gives core aimpId) ?_ ?_
      · intro hnone
        simp only [newString_eq_none.mp hnone]
        exact Gives.none
      · intro key token' hsome'
        obtain ⟨hcreate, rfl⟩ := newString_eq_some.mp hsome'
        rw [if_pos hcreate]
        refine Returns.call_step (Multiset.mem_cons_self _ _) ?_
        exact Gives.query _ (Multiset.mem_cons_of_mem (Multiset.mem_cons_self _ _))

theorem findPlaylist_gives (playlistId : PluginId) :
    Gives (σ := σ) held (findPlaylist core idManager playlistId)
      (RemoteControl.findPlaylist core idManager playlistId) :=
  loadedPlaylistByAIMPId_gives core _

/-- The item of an index that may be out of range. -/
def itemAt (playlist : Playlist ι) (index : Int) : Option ι :=
  if index < 0 ∨ index ≥ playlist.items.length then none else playlist.getItem index

theorem findPlaylistItem_eq (trackId : PluginId) :
    RemoteControl.findPlaylistItem core idManager trackId =
      (RemoteControl.loadedPlaylistByAIMPId core
        (idManager.playlistItemGetKey trackId).aimpPlaylistId).bind fun owner =>
          (itemAt owner (idManager.playlistItemGetKey trackId).index).map (·, owner) := by
  unfold RemoteControl.findPlaylistItem itemAt
  dsimp only
  generalize RemoteControl.loadedPlaylistByAIMPId core _ = found
  cases found with
  | none => rfl
  | some owner =>
    rw [Option.bind_some, apply_ite (Option.map _), Option.map_none]

theorem itemOf_gives {owner : Ref (Playlist ι)} (index : Int) (h : owner.token ∈ held) :
    Gives (σ := σ) held (itemOf owner index) (itemAt owner.object index) := by
  refine Returns.call_step h ?_
  unfold itemAt
  split
  · exact Gives.none
  · exact Gives.query _ h

/-- What `FindPlaylistItem` gives its caller: nothing, or the item and, where it is wanted,
its playlist. -/
inductive Found (held : Multiset Nat) (wantPlaylist : Bool) : Option (ι × Playlist ι) →
    Option (Ref ι) × Option (Ref (Playlist ι)) → Multiset Nat → Prop
  | none : Found held wantPlaylist none (none, none) held
  | item (item : ι) (playlist : Playlist ι) (token : Nat) (h : wantPlaylist = false) :
    Found held wantPlaylist (some (item, playlist)) (some ⟨item, token⟩, none) (token ::ₘ held)
  | both (item : ι) (playlist : Playlist ι) (token owner : Nat) (h : wantPlaylist = true) :
    Found held wantPlaylist (some (item, playlist)) (some ⟨item, token⟩, some ⟨playlist, owner⟩)
      (token ::ₘ owner ::ₘ held)

/-- The item is asked for while its playlist is held, which is then given back or handed on. -/
theorem findPlaylistItem_meets (trackId : PluginId) (wantPlaylist : Bool) :
    Meets (σ := σ) held (findPlaylistItem core idManager trackId wantPlaylist)
      (pure (RemoteControl.findPlaylistItem core idManager trackId)) (Found held wantPlaylist) := by
  rw [findPlaylistItem_eq]
  refine Meets.step (loadedPlaylistByAIMPId_gives core _) ?_
  generalize RemoteControl.loadedPlaylistByAIMPId core _ = found
  intro owner after hgiven
  cases hgiven with
  | none => exact Meets.pure .none
  | some playlist owner =>
    refine Meets.step (itemOf_gives _ (Multiset.mem_cons_self _ _)) ?_
    rw [Option.bind_some]
    generalize itemAt playlist _ = item
    intro ref after hgiven
    cases hgiven with
    | none =>
      refine Meets.step (Meets.release rfl) ?_
      rintro _ _ rfl
      exact Meets.pure .none
    | some item token =>
      cases wantPlaylist with
      | true => exact Meets.pure (.both item playlist token owner rfl)
      | false =>
        refine Meets.step (Meets.release (Multiset.cons_swap _ _ _)) ?_
        rintro _ _ rfl
        exact Meets.pure (.item item playlist token rfl)

theorem findItem_gives (trackId : PluginId) :
    Gives (σ := σ) held (findItem core idManager trackId)
      ((RemoteControl.findPlaylistItem core idManager trackId).map Prod.fst) := by
  refine Meets.step (findPlaylistItem_meets core idManager trackId false) ?_
  generalize RemoteControl.findPlaylistItem core idManager trackId = found
  intro ref after hfound
  cases hfound with
  | none => exact Gives.none
  | item item playlist token h => exact Meets.pure (.some item token)
  | both _ _ _ _ h => cases h

end RemoteControl.Counted
