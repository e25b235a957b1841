import RemoteControl.IdManager.Invariant
import RemoteControl.Lib.Grows

/-!
# Handlers that issue ids

The request handlers only ever get or generate ids, so the manager they share
grows. `IdSession` is a manager together with what it issued so far: its fields
say that the maps hold exactly the issued ids, and `playlistId` and `trackId` are
the only ways to move it on. `IdM` is the monad of the handlers.
-/

namespace RemoteControl

open Growth

/-- A manager in use, with the record of the ids it gave out. -/
structure IdSession where
  manager : RemoteControlIdManager
  issuedPlaylists : List (Bytes × PluginId)
  issuedTracks : List (PlaylistItemKey × PluginId)
  invariant : manager.RepresentationInvariant
  playlist_iff : ∀ p id, (p, id) ∈ issuedPlaylists ↔ manager.playlists.key? id = some p
  track_iff : ∀ key id, (key, id) ∈ issuedTracks ↔ manager.items.key? id = some key

namespace IdSession

def empty : IdSession where
  manager := .empty
  issuedPlaylists := []
  issuedTracks := []
  invariant := .empty
  playlist_iff p id := by simp [RemoteControlIdManager.empty]
  track_iff key id := by simp [RemoteControlIdManager.empty]

instance : Preorder IdSession where
  le s t := s.issuedPlaylists ⊆ t.issuedPlaylists ∧ s.issuedTracks ⊆ t.issuedTracks
  le_refl _ := ⟨List.Subset.refl _, List.Subset.refl _⟩
  le_trans _ _ _ hst htu := ⟨List.Subset.trans hst.1 htu.1, List.Subset.trans hst.2 htu.2⟩

variable {s : IdSession} {p q : Bytes} {key key' : PlaylistItemKey} {id id' : PluginId}

theorem playlist_inj (h : (p, id) ∈ s.issuedPlaylists) (h' : (q, id') ∈ s.issuedPlaylists) :
    id = id' ↔ p = q := by
  rw [playlist_iff] at h h'
  constructor
  · rintro rfl
    exact Option.some.inj (h.symm.trans h')
  · rintro rfl
    rw [← s.invariant.playlists] at h h'
    exact Option.some.inj (h.symm.trans h')

theorem track_inj (h : (key, id) ∈ s.issuedTracks) (h' : (key', id') ∈ s.issuedTracks) :
    id = id' ↔ key = key' := by
  rw [track_iff] at h h'
  constructor
  · rintro rfl
    exact Option.some.inj (h.symm.trans h')
  · rintro rfl
    rw [← s.invariant.items] at h h'
    exact Option.some.inj (h.symm.trans h')

theorem playlistGetKey_of_issued (h : (p, id) ∈ s.issuedPlaylists) :
    s.manager.playlistGetKey id = p := by
  rw [playlist_iff] at h
  rw [RemoteControlIdManager.playlistGetKey, h, Option.getD_some]

theorem playlistGetKey_of_not_issued (h : ∀ p, (p, id) ∉ s.issuedPlaylists) :
    s.manager.playlistGetKey id = [] := by
  have hnone : s.manager.playlists.key? id = none :=
    Option.eq_none_iff_forall_ne_some.mpr fun p hp => h p ((s.playlist_iff p id).mpr hp)
  rw [RemoteControlIdManager.playlistGetKey, hnone, Option.getD_none]

theorem playlistItemGetKey_of_issued (h : (key, id) ∈ s.issuedTracks) :
    s.manager.playlistItemGetKey id = key := by
  rw [track_iff] at h
  rw [RemoteControlIdManager.playlistItemGetKey, h, Option.getD_some]

theorem playlistItemGetKey_of_not_issued (h : ∀ key, (key, id) ∉ s.issuedTracks) :
    s.manager.playlistItemGetKey id = {} := by
  have hnone : s.manager.items.key? id = none :=
    Option.eq_none_iff_forall_ne_some.mpr fun key hk => h key ((s.track_iff key id).mpr hk)
  rw [RemoteControlIdManager.playlistItemGetKey, hnone, Option.getD_none]

end IdSession

/-- A handler's main-thread work; `none` is a probing loop that never ends. -/
abbrev IdM := StateT IdSession Option

open RemoteControlIdManager in
theorem playlist_recorded {m m' : RemoteControlIdManager} {p q : Bytes} {id id' : PluginId}
    (h : m.RepresentationInvariant) (hm : m.playlistGetOrGeneratePluginId p = some (id, m')) :
    m'.playlists.key? id' = some q ↔ (q = p ∧ id' = id) ∨ m.playlists.key? id' = some q := by
  constructor
  · intro hq
    rcases playlistGetOrGenerate_eq_some.mp hm with ⟨-, rfl⟩ | ⟨-, -, rfl⟩
    · exact .inr hq
    · rw [BiMap.key?_insert] at hq
      split at hq
      · next hid => exact .inl ⟨(Option.some.inj hq).symm, hid⟩
      · exact .inr hq
  · rintro (⟨rfl, rfl⟩ | hq)
    · exact h.playlist_issued hm
    · exact playlist_kept hq hm

open RemoteControlIdManager in
theorem track_recorded {m m' : RemoteControlIdManager} {p : Bytes} {i : Int}
    {key : PlaylistItemKey} {id id' : PluginId} (h : m.RepresentationInvariant)
    (hm : m.playlistItemGetOrGeneratePluginId p i = some (id, m')) :
    m'.items.key? id' = some key ↔ (key = ⟨p, i⟩ ∧ id' = id) ∨ m.items.key? id' = some key := by
  constructor
  · intro hq
    rcases playlistItemGetOrGenerate_eq_some.mp hm with ⟨-, rfl⟩ | ⟨-, -, rfl⟩
    · exact .inr hq
    · rw [BiMap.key?_insert] at hq
      split at hq
      · next hid => exact .inl ⟨(Option.some.inj hq).symm, hid⟩
      · exact .inr hq
  · rintro (⟨rfl, rfl⟩ | hq)
    · exact h.item_issued hm
    · exact item_kept hq hm

/-- `idManager.PlaylistGetOrGeneratePluginId(aimpPlaylistId)`. -/
def playlistId (aimpPlaylistId : Bytes) : IdM PluginId := fun s =>
  match hm : s.manager.playlistGetOrGeneratePluginId aimpPlaylistId with
  | none => none
  | some (id, m) => some (id, {
      manager := m
      issuedPlaylists := (aimpPlaylistId, id) :: s.issuedPlaylists
      issuedTracks := s.issuedTracks
      invariant := s.invariant.playlistGetOrGenerate hm
      playlist_iff := fun q id' => by
        rw [playlist_recorded s.invariant hm, ← s.playlist_iff, List.mem_cons, Prod.mk.injEq]
      track_iff := fun key id' => by
        rw [RemoteControlIdManager.items_playlistGetOrGenerate hm, ← s.track_iff] })

/-- `idManager.PlaylistItemGetOrGeneratePluginId(aimpPlaylistId, index)`. -/
def trackId (aimpPlaylistId : Bytes) (index : Int) : IdM PluginId := fun s =>
  match hm : s.manager.playlistItemGetOrGeneratePluginId aimpPlaylistId index with
  | none => none
  | some (id, m) => some (id, {
      manager := m
      issuedPlaylists := s.issuedPlaylists
      issuedTracks := (⟨aimpPlaylistId, index⟩, id) :: s.issuedTracks
      invariant := s.invariant.playlistItemGetOrGenerate hm
      playlist_iff := fun q id' => by
        rw [RemoteControlIdManager.playlists_itemGetOrGenerate hm, ← s.playlist_iff]
      track_iff := fun key id' => by
        rw [track_recorded s.invariant hm, ← s.track_iff, List.mem_cons, Prod.mk.injEq] })

theorem playlistId_grows (p : Bytes) :
    Grows (playlistId p) fun id s => (p, id) ∈ s.issuedPlaylists := by
  intro s id t h
  unfold playlistId at h
  split at h
  · cases h
  · cases h
    exact ⟨⟨List.subset_cons_self _ _, List.Subset.refl _⟩, List.mem_cons_self⟩

theorem trackId_grows (p : Bytes) (i : Int) :
    Grows (trackId p i) fun id s => (⟨p, i⟩, id) ∈ s.issuedTracks := by
  intro s id t h
  unfold trackId at h
  split at h
  · cases h
  · cases h
    exact ⟨⟨List.Subset.refl _, List.subset_cons_self _ _⟩, List.mem_cons_self⟩

/-! What the manager answers is what the handler gets. -/

theorem playlistId_of_get {p : Bytes} {id : PluginId} {s : IdSession} {m : RemoteControlIdManager}
    (hget : s.manager.playlistGetOrGeneratePluginId p = some (id, m)) :
    ∃ t, playlistId p s = some (id, t) ∧ t.manager = m := by
  unfold playlistId
  split
  · next hm =>
    rw [hget] at hm
    cases hm
  · next hm =>
    rw [hget] at hm
    cases hm
    exact ⟨_, rfl, rfl⟩

theorem trackId_of_get {p : Bytes} {i : Int} {id : PluginId} {s : IdSession}
    {m : RemoteControlIdManager}
    (hget : s.manager.playlistItemGetOrGeneratePluginId p i = some (id, m)) :
    ∃ t, trackId p i s = some (id, t) ∧ t.manager = m := by
  unfold trackId
  split
  · next hm =>
    rw [hget] at hm
    cases hm
  · next hm =>
    rw [hget] at hm
    cases hm
    exact ⟨_, rfl, rfl⟩

/-! An id that was issued is what the next call for its key answers. -/

theorem playlistId_of_issued {p : Bytes} {id : PluginId} {s : IdSession}
    (h : (p, id) ∈ s.issuedPlaylists) : ∃ t, playlistId p s = some (id, t) := by
  have hid : s.manager.playlists.id? p = some id :=
    (s.invariant.playlists p id).mpr ((s.playlist_iff p id).mp h)
  have hget : s.manager.playlistGetOrGeneratePluginId p = some (id, s.manager) :=
    RemoteControlIdManager.playlistGetOrGenerate_eq_some.mpr (Or.inl ⟨hid, rfl⟩)
  obtain ⟨t, ht, -⟩ := playlistId_of_get hget
  exact ⟨t, ht⟩

theorem trackId_of_issued {p : Bytes} {i : Int} {id : PluginId} {s : IdSession}
    (h : (⟨p, i⟩, id) ∈ s.issuedTracks) : ∃ t, trackId p i s = some (id, t) := by
  have hid : s.manager.items.id? ⟨p, i⟩ = some id :=
    (s.invariant.items ⟨p, i⟩ id).mpr ((s.track_iff ⟨p, i⟩ id).mp h)
  have hget : s.manager.playlistItemGetOrGeneratePluginId p i = some (id, s.manager) :=
    RemoteControlIdManager.playlistItemGetOrGenerate_eq_some.mpr (Or.inl ⟨hid, rfl⟩)
  obtain ⟨t, ht, -⟩ := trackId_of_get hget
  exact ⟨t, ht⟩

/-! With room for the id there is an answer, and one less is left. -/

/-- Room for `n` more ids of either kind. -/
def IdSession.RoomFor (s : IdSession) (n : Nat) : Prop :=
  s.manager.playlists.live + n ≤ 2 ^ 32 - 1 ∧ s.manager.items.live + n ≤ 2 ^ 32 - 1

theorem IdSession.RoomFor.mono {s : IdSession} {m n : Nat} (h : s.RoomFor n) (hle : m ≤ n) :
    s.RoomFor m :=
  ⟨(Nat.add_le_add_left hle _).trans h.1, (Nat.add_le_add_left hle _).trans h.2⟩

theorem playlistId_of_room {p : Bytes} {s : IdSession}
    (h : s.manager.playlists.live < 2 ^ 32 - 1) :
    ∃ id t, playlistId p s = some (id, t) ∧
      t.manager.playlists.live ≤ s.manager.playlists.live + 1 ∧
      t.manager.items.live = s.manager.items.live := by
  obtain ⟨id, m, hget⟩ := RemoteControlIdManager.playlistGetOrGenerate_total h p
  obtain ⟨t, ht, rfl⟩ := playlistId_of_get hget
  refine ⟨id, t, ht, ?_, ?_⟩
  · rcases RemoteControlIdManager.playlistGetOrGenerate_eq_some.mp hget with
      ⟨-, hsame⟩ | ⟨-, -, hinsert⟩
    · rw [hsame]
      omega
    · rw [hinsert]
      exact BiMap.live_insert_le _ _ _
  · rw [RemoteControlIdManager.items_playlistGetOrGenerate hget]

theorem trackId_of_room {p : Bytes} {i : Int} {s : IdSession}
    (h : s.manager.items.live < 2 ^ 32 - 1) :
    ∃ id t, trackId p i s = some (id, t) ∧
      t.manager.playlists.live = s.manager.playlists.live ∧
      t.manager.items.live ≤ s.manager.items.live + 1 := by
  obtain ⟨id, m, hget⟩ := RemoteControlIdManager.playlistItemGetOrGenerate_total h p i
  obtain ⟨t, ht, rfl⟩ := trackId_of_get hget
  refine ⟨id, t, ht, ?_, ?_⟩
  · rw [RemoteControlIdManager.playlists_itemGetOrGenerate hget]
  · rcases RemoteControlIdManager.playlistItemGetOrGenerate_eq_some.mp hget with
      ⟨-, hsame⟩ | ⟨-, -, hinsert⟩
    · rw [hsame]
      omega
    · rw [hinsert]
      exact BiMap.live_insert_le _ _ _

end RemoteControl
