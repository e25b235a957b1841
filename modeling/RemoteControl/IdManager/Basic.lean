import RemoteControl.Lib.BiMap
import RemoteControl.Lib.Probing
import RemoteControl.Lib.Transition
import RemoteControl.Helpers.Crc32

/-!
# RemoteControlIdManager

The manager issues a 32-bit plugin id for an AIMP playlist id, and for an AIMP
playlist id with an index. An id starts as the CRC-32 of its key with the top bit
cleared and is counted up while it is zero or in use.

Every get-or-generate call is two critical sections, a lookup under the shared
lock and, on a miss, a second lookup with the insertion under the exclusive one;
`playlistLookup` and `playlistGenerate` (and the item pair) are these sections.
-/

namespace RemoteControl

/-- A plugin id: a `std::int32_t`, as the bits it is stored in. -/
abbrev PluginId := BitVec 32

structure PlaylistItemKey where
  aimpPlaylistId : Bytes := []
  index : Int := 0
deriving DecidableEq, Repr

/-- The five maps: `FPlaylistByAIMPId` and `FPlaylistByPluginId`, `FItemByAIMPKey`
and `FItemByPluginId`, `FItemsByPlaylist`. -/
structure RemoteControlIdManager where
  playlists : BiMap Bytes PluginId
  items : BiMap PlaylistItemKey PluginId
  itemsByPlaylist : AList fun _ : Bytes => List PluginId

namespace RemoteControlIdManager

/-- The manager as constructed. -/
def empty : RemoteControlIdManager := ⟨BiMap.empty, BiMap.empty, ∅⟩

/-! ## Choosing an id -/

/-- The condition of the probing loop: `pluginId == 0 || count(pluginId)`. -/
def taken {κ : Type} (t : BiMap κ PluginId) (id : PluginId) : Bool := id == 0 || (t.key? id).isSome

/-- `while (pluginId == 0 || count(pluginId)) ++pluginId;`. The counter wraps, so
`2 ^ 32` turns visit every value; `none` stands for a loop that never ends. -/
def probeId {κ : Type} (t : BiMap κ PluginId) (home : PluginId) : Option PluginId :=
  Probing.probe (· + 1) (taken t) (2 ^ 32) home

/-- `Crc32Update(0, seed) & 0x7fffffff`. -/
def homeId (seed : Bytes) : PluginId := crc32Update 0 seed &&& 0x7fffffff

/-- The string an item's id is derived from. -/
def itemSeed (key : PlaylistItemKey) : Bytes :=
  key.aimpPlaylistId ++ ascii ":" ++ toDecimal key.index

/-! ## Playlists -/

/-- The lookup of `PlaylistGetOrGeneratePluginId` under the shared lock. -/
def playlistLookup (m : RemoteControlIdManager) (aimpPlaylistId : Bytes) : Option PluginId :=
  m.playlists.id? aimpPlaylistId

/-- The section of `PlaylistGetOrGeneratePluginId` under the exclusive lock. -/
def playlistGenerate (m : RemoteControlIdManager) (aimpPlaylistId : Bytes) :
    Option (PluginId × RemoteControlIdManager) :=
  match m.playlists.id? aimpPlaylistId with
  | some existing => some (existing, m)
  | none =>
    (probeId m.playlists (homeId aimpPlaylistId)).map fun id =>
      (id, { m with playlists := m.playlists.insert aimpPlaylistId id })

def playlistGetOrGeneratePluginId (m : RemoteControlIdManager) (aimpPlaylistId : Bytes) :
    Option (PluginId × RemoteControlIdManager) :=
  match m.playlistLookup aimpPlaylistId with
  | some existing => some (existing, m)
  | none => m.playlistGenerate aimpPlaylistId

/-- A miss answers the empty string. -/
def playlistGetKey (m : RemoteControlIdManager) (pluginId : PluginId) : Bytes :=
  (m.playlists.key? pluginId).getD []

def playlistRemoveByKeyUnlocked (m : RemoteControlIdManager) (aimpPlaylistId : Bytes) :
    RemoteControlIdManager :=
  { m with playlists := m.playlists.eraseKey aimpPlaylistId }

/-! ## Playlist items -/

/-- The lookup of `PlaylistItemGetOrGeneratePluginId` under the shared lock. -/
def playlistItemLookup (m : RemoteControlIdManager) (key : PlaylistItemKey) : Option PluginId :=
  m.items.id? key

/-- `FItemsByPlaylist[aimpPlaylistId].insert(pluginId)`. -/
def groupInsert (groups : AList fun _ : Bytes => List PluginId) (aimpPlaylistId : Bytes)
    (pluginId : PluginId) : AList fun _ : Bytes => List PluginId :=
  groups.insert aimpPlaylistId (((groups.lookup aimpPlaylistId).getD []).insert pluginId)

/-- The section of `PlaylistItemGetOrGeneratePluginId` under the exclusive lock. -/
def playlistItemGenerate (m : RemoteControlIdManager) (key : PlaylistItemKey) :
    Option (PluginId × RemoteControlIdManager) :=
  match m.items.id? key with
  | some existing => some (existing, m)
  | none =>
    (probeId m.items (homeId (itemSeed key))).map fun id =>
      (id, { m with
        items := m.items.insert key id
        itemsByPlaylist := groupInsert m.itemsByPlaylist key.aimpPlaylistId id })

def playlistItemGetOrGeneratePluginId (m : RemoteControlIdManager) (aimpPlaylistId : Bytes)
    (aimpPlaylistIndex : Int) : Option (PluginId × RemoteControlIdManager) :=
  match m.playlistItemLookup ⟨aimpPlaylistId, aimpPlaylistIndex⟩ with
  | some existing => some (existing, m)
  | none => m.playlistItemGenerate ⟨aimpPlaylistId, aimpPlaylistIndex⟩

/-- A miss answers the default key, the empty playlist id with index 0. -/
def playlistItemGetKey (m : RemoteControlIdManager) (pluginId : PluginId) : PlaylistItemKey :=
  (m.items.key? pluginId).getD {}

def playlistItemsRemoveByPlaylistKeyUnlocked (m : RemoteControlIdManager)
    (aimpPlaylistId : Bytes) : RemoteControlIdManager :=
  match m.itemsByPlaylist.lookup aimpPlaylistId with
  | none => m
  | some playlistGroup =>
    { m with
      items := playlistGroup.foldl BiMap.eraseId m.items
      itemsByPlaylist := m.itemsByPlaylist.erase aimpPlaylistId }

def playlistItemsRemoveByPlaylistKey (m : RemoteControlIdManager) (aimpPlaylistId : Bytes) :
    RemoteControlIdManager :=
  m.playlistItemsRemoveByPlaylistKeyUnlocked aimpPlaylistId

def playlistRemoveByKey (m : RemoteControlIdManager) (aimpPlaylistId : Bytes) :
    RemoteControlIdManager :=
  (m.playlistItemsRemoveByPlaylistKeyUnlocked aimpPlaylistId).playlistRemoveByKeyUnlocked
    aimpPlaylistId

/-! ## What one call does -/

/-- A call either finds the key, or issues the first free id from its home on. -/
theorem playlistGetOrGenerate_eq_some {m m' : RemoteControlIdManager} {p : Bytes} {id : PluginId} :
    m.playlistGetOrGeneratePluginId p = some (id, m') ↔
      (m.playlists.id? p = some id ∧ m' = m) ∨
      (m.playlists.id? p = none ∧ probeId m.playlists (homeId p) = some id ∧
        m' = { m with playlists := m.playlists.insert p id }) := by
  unfold playlistGetOrGeneratePluginId playlistLookup playlistGenerate
  cases m.playlists.id? p with
  | some existing => simp [eq_comm]
  | none =>
    cases probeId m.playlists (homeId p) with
    | none => simp
    | some id' =>
      simp only [Option.map_some, Option.some.injEq, Prod.mk.injEq, reduceCtorEq, false_and,
        true_and, false_or]
      constructor
      · rintro ⟨rfl, rfl⟩
        exact ⟨rfl, rfl⟩
      · rintro ⟨rfl, rfl⟩
        exact ⟨rfl, rfl⟩

theorem playlistItemGetOrGenerate_eq_some {m m' : RemoteControlIdManager} {p : Bytes} {i : Int}
    {id : PluginId} :
    m.playlistItemGetOrGeneratePluginId p i = some (id, m') ↔
      (m.items.id? ⟨p, i⟩ = some id ∧ m' = m) ∨
      (m.items.id? ⟨p, i⟩ = none ∧ probeId m.items (homeId (itemSeed ⟨p, i⟩)) = some id ∧
        m' = { m with
          items := m.items.insert ⟨p, i⟩ id
          itemsByPlaylist := groupInsert m.itemsByPlaylist p id }) := by
  unfold playlistItemGetOrGeneratePluginId playlistItemLookup playlistItemGenerate
  cases m.items.id? ⟨p, i⟩ with
  | some existing => simp [eq_comm]
  | none =>
    cases probeId m.items (homeId (itemSeed ⟨p, i⟩)) with
    | none => simp
    | some id' =>
      simp only [Option.map_some, Option.some.injEq, Prod.mk.injEq, reduceCtorEq, false_and,
        true_and, false_or]
      constructor
      · rintro ⟨rfl, rfl⟩
        exact ⟨rfl, rfl⟩
      · rintro ⟨rfl, rfl⟩
        exact ⟨rfl, rfl⟩

theorem mem_groupInsert {groups : AList fun _ : Bytes => List PluginId} {p q : Bytes}
    {id id' : PluginId} :
    id' ∈ ((groupInsert groups p id).lookup q).getD [] ↔
      (q = p ∧ id' = id) ∨ id' ∈ (groups.lookup q).getD [] := by
  rw [groupInsert, AList.lookup_insert_eq_ite]
  by_cases hq : q = p
  · subst hq
    simp [List.mem_insert_iff]
  · simp [hq]

/-! ## Runs -/

/-- The public operations that change the maps. -/
inductive Op
  | playlistGetOrGenerate (aimpPlaylistId : Bytes)
  | playlistItemGetOrGenerate (aimpPlaylistId : Bytes) (aimpPlaylistIndex : Int)
  | playlistItemsRemove (aimpPlaylistId : Bytes)
  | playlistRemove (aimpPlaylistId : Bytes)

/-- One operation; `none` only when its probing loop does not end. -/
def step (m : RemoteControlIdManager) : Op → Option RemoteControlIdManager
  | .playlistGetOrGenerate p => (m.playlistGetOrGeneratePluginId p).map Prod.snd
  | .playlistItemGetOrGenerate p i => (m.playlistItemGetOrGeneratePluginId p i).map Prod.snd
  | .playlistItemsRemove p => some (m.playlistItemsRemoveByPlaylistKey p)
  | .playlistRemove p => some (m.playlistRemoveByKey p)

end RemoteControlIdManager

end RemoteControl
