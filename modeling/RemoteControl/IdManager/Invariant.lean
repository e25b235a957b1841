import RemoteControl.IdManager.Basic
import Mathlib.Order.Interval.Finset.Nat
import Mathlib.Data.Finset.Card
import Mathlib.Data.List.Nodup

/-!
# The five maps stay in step

* `probeId_spec` and `probeId_isSome`: the probing loop ends while an id is
  free, on an id that is neither zero nor in use.
* `RepresentationInvariant` is what the maps owe each other; `step_preserves`
  shows that every operation keeps it.
* `maps_stay_in_step` collects what holds of every run: the invariant, and what
  it means for the ids that were issued.
-/

namespace RemoteControl.RemoteControlIdManager

open Transition

/-! ## The probing loop -/

section Probe

variable {κ : Type} {t : BiMap κ PluginId} {home id : PluginId}

theorem probeId_firstFree (h : probeId t home = some id) :
    Probing.FirstFree (· + 1) {i | taken t i = true} home id :=
  Probing.probe_firstFree h

theorem taken_eq_false : taken t id = false ↔ id ≠ 0 ∧ t.key? id = none := by
  simp [taken]

theorem probeId_spec (h : probeId t home = some id) : id ≠ 0 ∧ t.key? id = none := by
  have hfree : ¬ taken t id = true := (probeId_firstFree h).notMem
  rw [Bool.not_eq_true] at hfree
  exact taken_eq_false.mp hfree

theorem iterate_add_one (home : PluginId) (k : Nat) :
    (fun i : PluginId => i + 1)^[k] home = home + BitVec.ofNat 32 k := by
  induction k with
  | zero => simp
  | succ k ih =>
    rw [Function.iterate_succ_apply', ih, BitVec.add_assoc]
    congr 1
    apply BitVec.eq_of_toNat_eq
    simp

theorem iterate_reaches (home id : PluginId) :
    ∃ k < 2 ^ 32, (fun i : PluginId => i + 1)^[k] home = id := by
  refine ⟨(id - home).toNat, (id - home).isLt, ?_⟩
  rw [iterate_add_one, BitVec.ofNat_toNat, BitVec.setWidth_eq, BitVec.add_comm,
    BitVec.sub_add_cancel]

theorem exists_free (hlive : t.live < 2 ^ 32 - 1) : ∃ id : PluginId, taken t id = false := by
  by_contra hall
  push Not at hall
  let used : Finset Nat := (t.byId.keys.map BitVec.toNat).toFinset
  have hsub : Finset.Ico 1 (2 ^ 32) ⊆ used := by
    intro n hn
    rw [Finset.mem_Ico] at hn
    have hne : (BitVec.ofNat 32 n : PluginId) ≠ 0 := by
      intro h0
      have := congrArg BitVec.toNat h0
      rw [BitVec.toNat_ofNat, Nat.mod_eq_of_lt hn.2] at this
      have h00 : (0 : PluginId).toNat = 0 := rfl
      omega
    have hkey : (t.key? (BitVec.ofNat 32 n)).isSome := by
      by_contra hnone
      exact hall (BitVec.ofNat 32 n)
        (taken_eq_false.mpr ⟨hne, Option.not_isSome_iff_eq_none.mp hnone⟩)
    have hmem : BitVec.ofNat 32 n ∈ t.byId.keys := AList.lookup_isSome.mp hkey
    refine List.mem_toFinset.mpr (List.mem_map.mpr ⟨_, hmem, ?_⟩)
    rw [BitVec.toNat_ofNat, Nat.mod_eq_of_lt hn.2]
  have hle : 2 ^ 32 - 1 ≤ used.card := by
    have := Finset.card_le_card hsub
    rwa [Nat.card_Ico] at this
  have hcard : used.card ≤ t.live := by
    refine (List.toFinset_card_le _).trans ?_
    rw [List.length_map]
    exact (List.length_map _).le
  omega

theorem probeId_isSome (hlive : t.live < 2 ^ 32 - 1) (home : PluginId) :
    ∃ id, probeId t home = some id := by
  obtain ⟨free, hfree⟩ := exists_free hlive
  obtain ⟨k, hk, hreach⟩ := iterate_reaches home free
  exact Probing.probe_isSome hk (hreach ▸ hfree)

end Probe

/-! ## The invariant -/

/-- What the five maps owe each other. -/
structure RepresentationInvariant (m : RemoteControlIdManager) : Prop where
  /-- `FPlaylistByAIMPId` and `FPlaylistByPluginId` are mutually inverse. -/
  playlists : m.playlists.Inverse
  /-- `FItemByAIMPKey` and `FItemByPluginId` are mutually inverse. -/
  items : m.items.Inverse
  playlist_ne_zero : m.playlists.key? 0 = none
  item_ne_zero : m.items.key? 0 = none
  /-- `FItemsByPlaylist` groups the live item ids by the playlist of their key. -/
  groups : ∀ p id, id ∈ (m.itemsByPlaylist.lookup p).getD [] ↔ ∃ i, m.items.key? id = some ⟨p, i⟩

theorem RepresentationInvariant.empty : RepresentationInvariant empty where
  playlists := BiMap.Inverse.empty
  items := BiMap.Inverse.empty
  playlist_ne_zero := rfl
  item_ne_zero := rfl
  groups p id := by simp [RemoteControlIdManager.empty]

section Preserve

variable {m m' : RemoteControlIdManager} {p : Bytes} {i : Int} {id : PluginId}

theorem RepresentationInvariant.playlistGetOrGenerate (h : RepresentationInvariant m)
    (hm : m.playlistGetOrGeneratePluginId p = some (id, m')) : RepresentationInvariant m' := by
  rcases playlistGetOrGenerate_eq_some.mp hm with ⟨-, rfl⟩ | ⟨hp, hid, rfl⟩
  · exact h
  · obtain ⟨hne, hfree⟩ := probeId_spec hid
    refine ⟨h.playlists.insert hp hfree, h.items, ?_, h.item_ne_zero, h.groups⟩
    rw [BiMap.key?_insert, if_neg hne.symm]
    exact h.playlist_ne_zero

theorem RepresentationInvariant.playlistItemGetOrGenerate (h : RepresentationInvariant m)
    (hm : m.playlistItemGetOrGeneratePluginId p i = some (id, m')) :
    RepresentationInvariant m' := by
  rcases playlistItemGetOrGenerate_eq_some.mp hm with ⟨-, rfl⟩ | ⟨hp, hid, rfl⟩
  · exact h
  · obtain ⟨hne, hfree⟩ := probeId_spec hid
    refine ⟨h.playlists, h.items.insert hp hfree, h.playlist_ne_zero, ?_, fun q id' => ?_⟩
    · rw [BiMap.key?_insert, if_neg hne.symm]
      exact h.item_ne_zero
    · rw [mem_groupInsert, h.groups, BiMap.key?_insert]
      by_cases hid' : id' = id
      · subst hid'
        simp [hfree, eq_comm]
      · simp [hid']

theorem RepresentationInvariant.key?_itemsRemove (h : RepresentationInvariant m) (p : Bytes)
    (id : PluginId) :
    (m.playlistItemsRemoveByPlaylistKeyUnlocked p).items.key? id =
      (m.items.key? id).filter fun key => key.aimpPlaylistId ≠ p := by
  have hgroup := h.groups p id
  have hfilter : (∃ i, m.items.key? id = some ⟨p, i⟩) ↔
      (m.items.key? id).map PlaylistItemKey.aimpPlaylistId = some p := by
    rw [Option.map_eq_some_iff]
    constructor
    · rintro ⟨i, hi⟩
      exact ⟨_, hi, rfl⟩
    · rintro ⟨⟨q, i⟩, hi, rfl⟩
      exact ⟨i, hi⟩
  rw [hfilter] at hgroup
  unfold playlistItemsRemoveByPlaylistKeyUnlocked
  cases hl : m.itemsByPlaylist.lookup p with
  | none =>
    rw [hl] at hgroup
    cases hk : m.items.key? id with
    | none => rfl
    | some key =>
      rw [hk] at hgroup
      have hne : key.aimpPlaylistId ≠ p := fun he => by simp [he] at hgroup
      simp [hne, Option.filter_some]
  | some group =>
    rw [hl] at hgroup
    simp only [Option.getD_some] at hgroup
    rw [BiMap.key?_foldl_eraseId]
    cases hk : m.items.key? id with
    | none => simp
    | some key =>
      rw [hk, Option.map_some, Option.some.injEq] at hgroup
      by_cases he : key.aimpPlaylistId = p
      · simp [hgroup, he, Option.filter_some]
      · simp [hgroup, he, Option.filter_some]

theorem lookup_itemsRemove (m : RemoteControlIdManager) (p q : Bytes) :
    (m.playlistItemsRemoveByPlaylistKeyUnlocked p).itemsByPlaylist.lookup q =
      if q = p then none else m.itemsByPlaylist.lookup q := by
  unfold playlistItemsRemoveByPlaylistKeyUnlocked
  split
  · next hnone =>
    split
    · next hq => rw [hq, hnone]
    · rfl
  · exact AList.lookup_erase_eq_ite _ _ _

@[simp] theorem playlists_itemsRemove (m : RemoteControlIdManager) (p : Bytes) :
    (m.playlistItemsRemoveByPlaylistKeyUnlocked p).playlists = m.playlists := by
  unfold playlistItemsRemoveByPlaylistKeyUnlocked
  split <;> rfl

theorem RepresentationInvariant.itemsRemove (h : RepresentationInvariant m) (p : Bytes) :
    RepresentationInvariant (m.playlistItemsRemoveByPlaylistKeyUnlocked p) where
  playlists := by rw [playlists_itemsRemove]; exact h.playlists
  items := by
    unfold playlistItemsRemoveByPlaylistKeyUnlocked
    split
    · exact h.items
    · exact h.items.foldl_eraseId _
  playlist_ne_zero := by rw [playlists_itemsRemove]; exact h.playlist_ne_zero
  item_ne_zero := by
    rw [h.key?_itemsRemove, h.item_ne_zero]
    rfl
  groups q id := by
    rw [lookup_itemsRemove, h.key?_itemsRemove]
    by_cases hq : q = p
    · subst hq
      simp [Option.filter_eq_some_iff]
    · rw [if_neg hq, h.groups]
      simp [Option.filter_eq_some_iff, hq]

theorem RepresentationInvariant.playlistRemove (h : RepresentationInvariant m) (p : Bytes) :
    RepresentationInvariant (m.playlistRemoveByKeyUnlocked p) where
  playlists := h.playlists.eraseKey p
  items := h.items
  playlist_ne_zero := by
    unfold playlistRemoveByKeyUnlocked
    rw [h.playlists.key?_eraseKey]
    split
    · rfl
    · exact h.playlist_ne_zero
  item_ne_zero := h.item_ne_zero
  groups := h.groups

end Preserve

theorem step_preserves {m m' : RemoteControlIdManager} {op : Op} (h : RepresentationInvariant m)
    (hs : step m op = some m') : RepresentationInvariant m' := by
  cases op with
  | playlistGetOrGenerate p =>
    obtain ⟨⟨id, _⟩, hm, rfl⟩ := Option.map_eq_some_iff.mp hs
    exact h.playlistGetOrGenerate hm
  | playlistItemGetOrGenerate p i =>
    obtain ⟨⟨id, _⟩, hm, rfl⟩ := Option.map_eq_some_iff.mp hs
    exact h.playlistItemGetOrGenerate hm
  | playlistItemsRemove p =>
    cases hs
    exact h.itemsRemove p
  | playlistRemove p =>
    cases hs
    exact (h.itemsRemove p).playlistRemove p

theorem reachable_invariant {m : RemoteControlIdManager} (h : Reachable step empty m) :
    RepresentationInvariant m :=
  h.invariant .empty step_preserves

theorem playlistGetOrGenerate_total {m : RemoteControlIdManager}
    (hp : m.playlists.live < 2 ^ 32 - 1) (p : Bytes) :
    ∃ id m', m.playlistGetOrGeneratePluginId p = some (id, m') := by
  cases hid : m.playlists.id? p with
  | some id => exact ⟨id, m, playlistGetOrGenerate_eq_some.mpr (.inl ⟨hid, rfl⟩)⟩
  | none =>
    obtain ⟨id, hprobe⟩ := probeId_isSome hp (homeId p)
    exact ⟨id, _, playlistGetOrGenerate_eq_some.mpr (.inr ⟨hid, hprobe, rfl⟩)⟩

theorem playlistItemGetOrGenerate_total {m : RemoteControlIdManager}
    (hi : m.items.live < 2 ^ 32 - 1) (p : Bytes) (i : Int) :
    ∃ id m', m.playlistItemGetOrGeneratePluginId p i = some (id, m') := by
  cases hid : m.items.id? ⟨p, i⟩ with
  | some id => exact ⟨id, m, playlistItemGetOrGenerate_eq_some.mpr (.inl ⟨hid, rfl⟩)⟩
  | none =>
    obtain ⟨id, hprobe⟩ := probeId_isSome hi (homeId (itemSeed ⟨p, i⟩))
    exact ⟨id, _, playlistItemGetOrGenerate_eq_some.mpr (.inr ⟨hid, hprobe, rfl⟩)⟩

/-- While fewer than `2 ^ 32 - 1` ids of either kind are live, every operation ends. -/
theorem step_total {m : RemoteControlIdManager} (hp : m.playlists.live < 2 ^ 32 - 1)
    (hi : m.items.live < 2 ^ 32 - 1) (op : Op) : ∃ m', step m op = some m' := by
  cases op with
  | playlistGetOrGenerate p =>
    obtain ⟨id, m', hm⟩ := playlistGetOrGenerate_total hp p
    exact ⟨m', Option.map_eq_some_iff.mpr ⟨_, hm, rfl⟩⟩
  | playlistItemGetOrGenerate p i =>
    obtain ⟨id, m', hm⟩ := playlistItemGetOrGenerate_total hi p i
    exact ⟨m', Option.map_eq_some_iff.mpr ⟨_, hm, rfl⟩⟩
  | playlistItemsRemove p => exact ⟨_, rfl⟩
  | playlistRemove p => exact ⟨_, rfl⟩

/-! ## Issued ids -/

/-- The operations that take the playlist `p` itself out of the maps. -/
def Op.dropsPlaylist (p : Bytes) : Op → Prop
  | .playlistRemove q => q = p
  | _ => False

/-- The operations that take the items of `p` out of the maps. -/
def Op.dropsItems (p : Bytes) : Op → Prop
  | .playlistItemsRemove q => q = p
  | .playlistRemove q => q = p
  | _ => False

section Issued

variable {m m' : RemoteControlIdManager} {op : Op} {p : Bytes} {key : PlaylistItemKey}
  {id : PluginId}

theorem RepresentationInvariant.playlist_issued (h : RepresentationInvariant m)
    (hm : m.playlistGetOrGeneratePluginId p = some (id, m')) : m'.playlists.key? id = some p := by
  rcases playlistGetOrGenerate_eq_some.mp hm with ⟨hp, rfl⟩ | ⟨-, -, rfl⟩
  · exact (h.playlists p id).mp hp
  · rw [BiMap.key?_insert, if_pos rfl]

theorem RepresentationInvariant.item_issued {i : Int} (h : RepresentationInvariant m)
    (hm : m.playlistItemGetOrGeneratePluginId p i = some (id, m')) :
    m'.items.key? id = some ⟨p, i⟩ := by
  rcases playlistItemGetOrGenerate_eq_some.mp hm with ⟨hp, rfl⟩ | ⟨-, -, rfl⟩
  · exact (h.items _ id).mp hp
  · rw [BiMap.key?_insert, if_pos rfl]

theorem playlist_kept {q : Bytes} {id' : PluginId} (hid : m.playlists.key? id = some p)
    (hm : m.playlistGetOrGeneratePluginId q = some (id', m')) :
    m'.playlists.key? id = some p := by
  rcases playlistGetOrGenerate_eq_some.mp hm with ⟨-, rfl⟩ | ⟨-, hprobe, rfl⟩
  · exact hid
  · rw [BiMap.key?_insert, if_neg]
    · exact hid
    · rintro rfl
      rw [(probeId_spec hprobe).2] at hid
      cases hid

theorem item_kept {q : Bytes} {i : Int} {id' : PluginId} (hid : m.items.key? id = some key)
    (hm : m.playlistItemGetOrGeneratePluginId q i = some (id', m')) :
    m'.items.key? id = some key := by
  rcases playlistItemGetOrGenerate_eq_some.mp hm with ⟨-, rfl⟩ | ⟨-, hprobe, rfl⟩
  · exact hid
  · rw [BiMap.key?_insert, if_neg]
    · exact hid
    · rintro rfl
      rw [(probeId_spec hprobe).2] at hid
      cases hid

theorem playlists_itemGetOrGenerate {q : Bytes} {i : Int} {id' : PluginId}
    (hm : m.playlistItemGetOrGeneratePluginId q i = some (id', m')) :
    m'.playlists = m.playlists := by
  rcases playlistItemGetOrGenerate_eq_some.mp hm with ⟨-, rfl⟩ | ⟨-, -, rfl⟩ <;> rfl

theorem items_playlistGetOrGenerate {q : Bytes} {id' : PluginId}
    (hm : m.playlistGetOrGeneratePluginId q = some (id', m')) : m'.items = m.items := by
  rcases playlistGetOrGenerate_eq_some.mp hm with ⟨-, rfl⟩ | ⟨-, -, rfl⟩ <;> rfl

theorem RepresentationInvariant.step_keeps_playlist (h : RepresentationInvariant m)
    (hid : m.playlists.key? id = some p) (hop : ¬ op.dropsPlaylist p)
    (hs : step m op = some m') : m'.playlists.key? id = some p := by
  cases op with
  | playlistGetOrGenerate q =>
    obtain ⟨⟨id', _⟩, hm, rfl⟩ := Option.map_eq_some_iff.mp hs
    exact playlist_kept hid hm
  | playlistItemGetOrGenerate q i =>
    obtain ⟨⟨id', _⟩, hm, rfl⟩ := Option.map_eq_some_iff.mp hs
    rw [playlists_itemGetOrGenerate hm]
    exact hid
  | playlistItemsRemove q =>
    cases hs
    rw [playlistItemsRemoveByPlaylistKey, playlists_itemsRemove]
    exact hid
  | playlistRemove q =>
    cases hs
    have hq : some p ≠ some q := fun he => hop (Option.some.inj he).symm
    rw [playlistRemoveByKey, playlistRemoveByKeyUnlocked, playlists_itemsRemove,
      h.playlists.key?_eraseKey, hid, if_neg hq]

theorem RepresentationInvariant.step_keeps_item (h : RepresentationInvariant m)
    (hid : m.items.key? id = some key) (hop : ¬ op.dropsItems key.aimpPlaylistId)
    (hs : step m op = some m') : m'.items.key? id = some key := by
  have hremove : ∀ q, q ≠ key.aimpPlaylistId →
      (m.playlistItemsRemoveByPlaylistKeyUnlocked q).items.key? id = some key := by
    intro q hq
    rw [h.key?_itemsRemove, hid, Option.filter_some, if_pos]
    exact decide_eq_true hq.symm
  cases op with
  | playlistGetOrGenerate q =>
    obtain ⟨⟨id', _⟩, hm, rfl⟩ := Option.map_eq_some_iff.mp hs
    rw [items_playlistGetOrGenerate hm]
    exact hid
  | playlistItemGetOrGenerate q i =>
    obtain ⟨⟨id', _⟩, hm, rfl⟩ := Option.map_eq_some_iff.mp hs
    exact item_kept hid hm
  | playlistItemsRemove q =>
    cases hs
    exact hremove q hop
  | playlistRemove q =>
    cases hs
    exact hremove q hop

end Issued

/-- Whatever is requested or removed after a playlist id was issued, as long as its
playlist is not removed: the id looks up to its playlist, a request for the same
playlist returns it again, and a request for another playlist returns another id. -/
def PlaylistIdsPersist (m : RemoteControlIdManager) : Prop :=
  ∀ p id m₁, m.playlistGetOrGeneratePluginId p = some (id, m₁) →
    ∀ ops m₂, (∀ op ∈ ops, ¬ op.dropsPlaylist p) → run step m₁ ops = some m₂ →
      m₂.playlistGetKey id = p ∧
        ∀ q id' m₃, m₂.playlistGetOrGeneratePluginId q = some (id', m₃) → (id' = id ↔ q = p)

/-- The same for item ids, as long as the items of the playlist are not removed. -/
def ItemIdsPersist (m : RemoteControlIdManager) : Prop :=
  ∀ p i id m₁, m.playlistItemGetOrGeneratePluginId p i = some (id, m₁) →
    ∀ ops m₂, (∀ op ∈ ops, ¬ op.dropsItems p) → run step m₁ ops = some m₂ →
      m₂.playlistItemGetKey id = ⟨p, i⟩ ∧
        ∀ q j id' m₃, m₂.playlistItemGetOrGeneratePluginId q j = some (id', m₃) →
          (id' = id ↔ q = p ∧ j = i)

/-- `PlaylistRemoveByKey(p)` drops the mapping of `p` and the items of `p`, and
leaves every other mapping as it was. -/
structure RemovesExactly (m : RemoteControlIdManager) (p : Bytes) : Prop where
  playlist_id : ∀ q, (m.playlistRemoveByKey p).playlists.id? q =
    if q = p then none else m.playlists.id? q
  playlist_key : ∀ id, (m.playlistRemoveByKey p).playlists.key? id =
    (m.playlists.key? id).filter (· ≠ p)
  item_id : ∀ key, (m.playlistRemoveByKey p).items.id? key =
    if key.aimpPlaylistId = p then none else m.items.id? key
  item_key : ∀ id, (m.playlistRemoveByKey p).items.key? id =
    (m.items.key? id).filter (·.aimpPlaylistId ≠ p)
  group : ∀ q, (m.playlistRemoveByKey p).itemsByPlaylist.lookup q =
    if q = p then none else m.itemsByPlaylist.lookup q

section Consequences

variable {m : RemoteControlIdManager}

theorem RepresentationInvariant.playlistIdsPersist (h : RepresentationInvariant m) :
    PlaylistIdsPersist m := by
  intro p id m₁ hm₁ ops m₂ hops hrun
  have h₁ := h.playlistGetOrGenerate hm₁
  obtain ⟨h₂, hid⟩ := run_preserves_of
    (I := fun m => RepresentationInvariant m ∧ m.playlists.key? id = some p)
    hrun ⟨h₁, h.playlist_issued hm₁⟩ hops
    fun hI hop hs => ⟨step_preserves hI.1 hs, hI.1.step_keeps_playlist hI.2 hop hs⟩
  refine ⟨by rw [playlistGetKey, hid, Option.getD_some], ?_⟩
  intro q id' m₃ hm₃
  have h₃ := h₂.playlistGetOrGenerate hm₃
  have hid₃ : m₃.playlists.key? id = some p := playlist_kept hid hm₃
  have hid' : m₃.playlists.key? id' = some q := h₂.playlist_issued hm₃
  constructor
  · rintro rfl
    exact Option.some.inj (hid'.symm.trans hid₃)
  · rintro rfl
    rw [← h₃.playlists] at hid₃ hid'
    exact Option.some.inj (hid'.symm.trans hid₃)

theorem RepresentationInvariant.itemIdsPersist (h : RepresentationInvariant m) :
    ItemIdsPersist m := by
  intro p i id m₁ hm₁ ops m₂ hops hrun
  have h₁ := h.playlistItemGetOrGenerate hm₁
  obtain ⟨h₂, hid⟩ := run_preserves_of
    (I := fun m => RepresentationInvariant m ∧ m.items.key? id = some ⟨p, i⟩)
    hrun ⟨h₁, h.item_issued hm₁⟩ hops
    fun hI hop hs => ⟨step_preserves hI.1 hs, hI.1.step_keeps_item hI.2 hop hs⟩
  refine ⟨by rw [playlistItemGetKey, hid, Option.getD_some], ?_⟩
  intro q j id' m₃ hm₃
  have h₃ := h₂.playlistItemGetOrGenerate hm₃
  have hid₃ : m₃.items.key? id = some ⟨p, i⟩ := item_kept hid hm₃
  have hid' : m₃.items.key? id' = some ⟨q, j⟩ := h₂.item_issued hm₃
  constructor
  · rintro rfl
    exact PlaylistItemKey.mk.inj (Option.some.inj (hid'.symm.trans hid₃))
  · rintro ⟨rfl, rfl⟩
    rw [← h₃.items] at hid₃ hid'
    exact Option.some.inj (hid'.symm.trans hid₃)

theorem RepresentationInvariant.removesExactly (h : RepresentationInvariant m) (p : Bytes) :
    RemovesExactly m p := by
  have h' : RepresentationInvariant (m.playlistRemoveByKey p) :=
    (h.itemsRemove p).playlistRemove p
  have hplaylist : ∀ id, (m.playlistRemoveByKey p).playlists.key? id =
      (m.playlists.key? id).filter (· ≠ p) := by
    intro id
    rw [playlistRemoveByKey, playlistRemoveByKeyUnlocked, playlists_itemsRemove,
      h.playlists.key?_eraseKey]
    cases m.playlists.key? id with
    | none => rfl
    | some q => by_cases hq : q = p <;> simp [hq, Option.filter_some]
  have hitem : ∀ id, (m.playlistRemoveByKey p).items.key? id =
      (m.items.key? id).filter (·.aimpPlaylistId ≠ p) := h.key?_itemsRemove p
  refine ⟨fun q => ?_, hplaylist, fun key => ?_, hitem, lookup_itemsRemove m p⟩
  · rw [h.playlists.id?_filter h'.playlists hplaylist]
    by_cases hq : q = p <;> simp [hq]
  · rw [h.items.id?_filter h'.items hitem]
    by_cases hq : key.aimpPlaylistId = p <;> simp [hq]

end Consequences

/-- **The representation invariant.** In every state the operations reach from the
empty manager the five maps agree with each other; while fewer than `2 ^ 32 - 1`
ids are live every operation ends; and the ids that were issued mean what they
were issued for until a removal takes them out, which touches nothing else. -/
theorem maps_stay_in_step {m : RemoteControlIdManager} (hm : Reachable step empty m) :
    RepresentationInvariant m ∧
      (m.playlists.live < 2 ^ 32 - 1 → m.items.live < 2 ^ 32 - 1 →
        ∀ op, ∃ m', step m op = some m') ∧
      PlaylistIdsPersist m ∧ ItemIdsPersist m ∧ ∀ p, RemovesExactly m p := by
  have h := reachable_invariant hm
  exact ⟨h, step_total, h.playlistIdsPersist, h.itemIdsPersist, h.removesExactly⟩

/-- Two playlists whose ids collide, an item of one of them, and a removal. -/
theorem maps_stay_in_step_colliding :
    ∃ m, run step empty [.playlistGetOrGenerate (ascii "plumless"),
        .playlistGetOrGenerate (ascii "buckeroo"),
        .playlistItemGetOrGenerate (ascii "buckeroo") 4,
        .playlistRemove (ascii "plumless")] = some m ∧
      RepresentationInvariant m ∧ RemovesExactly m (ascii "buckeroo") := by
  obtain ⟨m, hm⟩ := Option.isSome_iff_exists.mp
    (show (run step empty [.playlistGetOrGenerate (ascii "plumless"),
        .playlistGetOrGenerate (ascii "buckeroo"),
        .playlistItemGetOrGenerate (ascii "buckeroo") 4,
        .playlistRemove (ascii "plumless")]).isSome = true by decide +kernel)
  have h := maps_stay_in_step ⟨_, hm⟩
  exact ⟨m, hm, h.1, h.2.2.2.2 _⟩

end RemoteControl.RemoteControlIdManager
