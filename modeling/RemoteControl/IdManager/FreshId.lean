import RemoteControl.IdManager.Restart

/-!
# Fresh ids

The probing loop counts a signed 32-bit number up, and `++` on `2 ^ 31 - 1` is undefined:
`countUp` is the loop with that end, `probeId` the one whose counter goes round.

* `countUp_isSome_iff`: the loop ends by itself exactly where an id is free from its home on.
* `fresh_id_iff`: there it ends on a fresh positive id, and as long as it always ends there
  every id in the maps is positive.
-/

namespace RemoteControl.RemoteControlIdManager

open Transition

/-! ## The loop on a signed counter -/

section CountUp

variable {κ : Type} {t : BiMap κ PluginId} {home id : PluginId}

/-- `while (pluginId == 0 || count(pluginId)) ++pluginId;`, or `none` where this counts past
`2 ^ 31 - 1`. -/
def countUp (t : BiMap κ PluginId) (home : PluginId) : Option PluginId :=
  Probing.probe (· + 1) (taken t) (2 ^ 31 - home.toNat) home

theorem toNat_iterate {k : Nat} (hk : home.toNat + k < 2 ^ 31) :
    ((fun i : PluginId => i + 1)^[k] home).toNat = home.toNat + k := by
  rw [iterate_add_one, BitVec.toNat_add, BitVec.toNat_ofNat]
  omega

/-- The id of a loop that ends by itself, with the way to it; the other loop finds it too. -/
theorem countUp_spec (h : countUp t home = some id) :
    probeId t home = some id ∧ home ≤ id ∧ id.toNat < 2 ^ 31 := by
  obtain ⟨k, hk, rfl⟩ := Probing.probe_reaches h
  have hnat : ((fun i : PluginId => i + 1)^[k] home).toNat = home.toNat + k :=
    toNat_iterate (by omega)
  refine ⟨Probing.probe_of_le (by omega) h, ?_, by omega⟩
  rw [BitVec.le_def, hnat]
  omega

theorem countUp_isSome_iff :
    (∃ id, countUp t home = some id) ↔
      ∃ id, id ≠ 0 ∧ home ≤ id ∧ id.toNat < 2 ^ 31 ∧ (t.key? id).isSome = false := by
  constructor
  · rintro ⟨id, h⟩
    obtain ⟨hprobe, hle, hlt⟩ := countUp_spec h
    obtain ⟨hne, hfree⟩ := probeId_spec hprobe
    exact ⟨id, hne, hle, hlt, by rw [hfree]; rfl⟩
  · rintro ⟨id, hne, hle, hlt, hfree⟩
    rw [BitVec.le_def] at hle
    have hid : (fun i : PluginId => i + 1)^[id.toNat - home.toNat] home = id := by
      apply BitVec.eq_of_toNat_eq
      rw [toNat_iterate (by omega)]
      omega
    refine Probing.probe_isSome (k := id.toNat - home.toNat) (by omega) ?_
    rw [hid]
    exact taken_eq_false.mpr
      ⟨hne, Option.isNone_iff_eq_none.mp (Option.isSome_eq_false_iff.mp hfree)⟩

end CountUp

/-! ## New keys -/

namespace Request

/-- Whether the key has an id. -/
def known (m : RemoteControlIdManager) : Request → Bool
  | .playlist p => (m.playlists.id? p).isSome
  | .item key => (m.items.id? key).isSome

/-- The loop for the key, on a signed counter. -/
def countUp (m : RemoteControlIdManager) : Request → Option PluginId
  | .playlist p => RemoteControlIdManager.countUp m.playlists (homeId p)
  | .item key => RemoteControlIdManager.countUp m.items (homeId (itemSeed key))

/-- From the key's home on to `2 ^ 31 - 1` some id is free. -/
def HasRoom (m : RemoteControlIdManager) (K : Request) : Prop :=
  ∃ id : PluginId, id ≠ 0 ∧ K.home ≤ id ∧ id.toNat < 2 ^ 31 ∧ K.inUse m id = false

/-- The loop for the key ends without an overflow, on a positive id that was not in use: on the
home, where that was free. -/
def EndsFresh (m : RemoteControlIdManager) (K : Request) : Prop :=
  ∃ id m', K.countUp m = some id ∧ K.issue m = some (id, m') ∧
    1 ≤ id.toInt ∧ id.toInt ≤ 2 ^ 31 - 1 ∧ K.inUse m id = false ∧
    (K.home ≠ 0 → K.inUse m K.home = false → id = K.home)

end Request

section Fresh

variable {m m' : RemoteControlIdManager} {K : Request} {id : PluginId}

theorem toInt_of_small (h : id ≠ 0) (hlt : id.toNat < 2 ^ 31) :
    1 ≤ id.toInt ∧ id.toInt ≤ 2 ^ 31 - 1 := by
  have hpos : id.toNat ≠ 0 := fun h0 => h (BitVec.eq_of_toNat_eq h0)
  rw [BitVec.toInt_eq_toNat_of_lt (by omega)]
  omega

theorem probeId_home {κ : Type} {t : BiMap κ PluginId} {home : PluginId}
    (h : probeId t home = some id) (hne : home ≠ 0) (hfree : (t.key? home).isSome = false) :
    id = home := by
  have hfirst : firstId home = home := if_neg hne
  have hnone : t.key? (firstId home) = none := by
    rw [hfirst]
    exact Option.isNone_iff_eq_none.mp (Option.isSome_eq_false_iff.mp hfree)
  exact (probeId_of_free hnone h).trans hfirst

theorem countUp_iff_hasRoom : (∃ id, K.countUp m = some id) ↔ K.HasRoom m := by
  cases K with
  | playlist p => exact countUp_isSome_iff
  | item key => exact countUp_isSome_iff

/-- What the loop for a new key does where it ends by itself. -/
theorem issue_of_countUp (hnew : K.known m = false) (h : K.countUp m = some id) :
    (∃ m', K.issue m = some (id, m')) ∧ 1 ≤ id.toInt ∧ id.toInt ≤ 2 ^ 31 - 1 ∧
      K.inUse m id = false ∧ (K.home ≠ 0 → K.inUse m K.home = false → id = K.home) := by
  cases K with
  | playlist p =>
    obtain ⟨hprobe, -, hlt⟩ := countUp_spec h
    obtain ⟨hne, hfree⟩ := probeId_spec hprobe
    have hnone : m.playlists.id? p = none :=
      Option.isNone_iff_eq_none.mp (Option.isSome_eq_false_iff.mp hnew)
    obtain ⟨hpos, hmax⟩ := toInt_of_small hne hlt
    exact ⟨⟨_, playlistGetOrGenerate_eq_some.mpr (.inr ⟨hnone, hprobe, rfl⟩)⟩, hpos, hmax,
      Option.isSome_eq_false_iff.mpr (Option.isNone_iff_eq_none.mpr hfree), probeId_home hprobe⟩
  | item key =>
    obtain ⟨hprobe, -, hlt⟩ := countUp_spec h
    obtain ⟨hne, hfree⟩ := probeId_spec hprobe
    have hnone : m.items.id? key = none :=
      Option.isNone_iff_eq_none.mp (Option.isSome_eq_false_iff.mp hnew)
    obtain ⟨hpos, hmax⟩ := toInt_of_small hne hlt
    exact ⟨⟨_, playlistItemGetOrGenerate_eq_some.mpr (.inr ⟨hnone, hprobe, rfl⟩)⟩, hpos, hmax,
      Option.isSome_eq_false_iff.mpr (Option.isNone_iff_eq_none.mpr hfree), probeId_home hprobe⟩

theorem endsFresh_iff (hnew : K.known m = false) : K.EndsFresh m ↔ K.HasRoom m := by
  rw [← countUp_iff_hasRoom]
  constructor
  · rintro ⟨id, m', h, -⟩
    exact ⟨id, h⟩
  · rintro ⟨id, h⟩
    obtain ⟨⟨m', hissue⟩, hrest⟩ := issue_of_countUp hnew h
    exact ⟨id, m', h, hissue, hrest⟩

end Fresh

/-! ## Runs whose loops all end -/

/-- The ids in the maps are positive. -/
def PositiveIds (m : RemoteControlIdManager) : Prop :=
  ∀ (K : Request) (id : PluginId), K.inUse m id = true → 1 ≤ id.toInt ∧ id.toInt ≤ 2 ^ 31 - 1

/-- A request for a new key has room. -/
def RoomFor (m : RemoteControlIdManager) (op : Op) : Prop :=
  ∀ K : Request, K.op = op → K.known m = false → K.HasRoom m

section Runs

variable {m m' : RemoteControlIdManager} {op : Op} {K K' : Request} {id id' : PluginId}

/-- A request puts at most its own id in use, and that only for a new key. -/
theorem inUse_issue (h : K.issue m = some (id, m')) (hin : K'.inUse m' id' = true) :
    K'.inUse m id' = true ∨ (K.known m = false ∧ id' = id) := by
  cases K with
  | playlist p =>
    rcases playlistGetOrGenerate_eq_some.mp h with ⟨-, rfl⟩ | ⟨hnone, -, rfl⟩
    · exact .inl hin
    · cases K' with
      | item key => exact .inl hin
      | playlist q =>
        rw [Request.inUse, BiMap.key?_insert] at hin
        split at hin
        · next heq => exact .inr ⟨by rw [Request.known, hnone]; rfl, heq⟩
        · exact .inl hin
  | item key =>
    rcases playlistItemGetOrGenerate_eq_some.mp h with ⟨-, rfl⟩ | ⟨hnone, -, rfl⟩
    · exact .inl hin
    · cases K' with
      | playlist q => exact .inl hin
      | item key' =>
        rw [Request.inUse, BiMap.key?_insert] at hin
        split at hin
        · next heq => exact .inr ⟨by rw [Request.known, hnone]; rfl, heq⟩
        · exact .inl hin

theorem PositiveIds.issue (h : PositiveIds m) (hroom : RoomFor m K.op)
    (hs : step m K.op = some m') : PositiveIds m' := by
  rw [Request.step_op, Option.map_eq_some_iff] at hs
  obtain ⟨⟨id, _⟩, hissue, rfl⟩ := hs
  intro K' id' hin
  rcases inUse_issue hissue hin with hold | ⟨hnew, rfl⟩
  · exact h K' id' hold
  · obtain ⟨id, m'', -, hissue', hpos, hmax, -⟩ := (endsFresh_iff hnew).mpr (hroom K rfl hnew)
    cases hissue.symm.trans hissue'
    exact ⟨hpos, hmax⟩

theorem PositiveIds.itemsRemove (h : PositiveIds m) (hinv : RepresentationInvariant m)
    (p : Bytes) : PositiveIds (m.playlistItemsRemoveByPlaylistKeyUnlocked p) := by
  intro K id hin
  refine h K id ?_
  cases K with
  | playlist q =>
    rwa [Request.inUse, playlists_itemsRemove] at hin
  | item key =>
    rw [Request.inUse, hinv.key?_itemsRemove] at hin
    exact Option.isSome_of_isSome_filter _ _ hin

theorem PositiveIds.playlistRemove (h : PositiveIds m) (hinv : RepresentationInvariant m)
    (p : Bytes) : PositiveIds (m.playlistRemoveByKeyUnlocked p) := by
  intro K id hin
  refine h K id ?_
  cases K with
  | playlist q =>
    rw [Request.inUse, playlistRemoveByKeyUnlocked, hinv.playlists.key?_eraseKey] at hin
    split at hin
    · cases hin
    · exact hin
  | item key => exact hin

theorem step_positive (hinv : RepresentationInvariant m) (h : PositiveIds m)
    (hroom : RoomFor m op) (hs : step m op = some m') : PositiveIds m' := by
  cases op with
  | playlistGetOrGenerate p => exact h.issue (K := .playlist p) hroom hs
  | playlistItemGetOrGenerate p i => exact h.issue (K := .item ⟨p, i⟩) hroom hs
  | playlistItemsRemove p =>
    cases hs
    exact h.itemsRemove hinv p
  | playlistRemove p =>
    cases hs
    exact (h.itemsRemove hinv p).playlistRemove (hinv.itemsRemove p) p

end Runs

/-- **The probing loop ends at a fresh positive id** exactly where an id is free between the
key's home and `2 ^ 31 - 1`; in a run in which every new key has that room the ids in the maps
are positive. -/
theorem fresh_id_iff (m : RemoteControlIdManager) :
    (Reachable step empty m → ∀ K : Request, K.known m = false →
      (K.EndsFresh m ↔ K.HasRoom m)) ∧
    (ReachableBy step RoomFor empty m → PositiveIds m) := by
  refine ⟨fun _ K hnew => endsFresh_iff hnew, fun hm => ?_⟩
  refine (hm.invariant (I := fun m => RepresentationInvariant m ∧ PositiveIds m) ⟨.empty, ?_⟩
    fun h hroom hs => ⟨step_preserves h.1 hs, step_positive h.1 h.2 hroom hs⟩).2
  intro K id hin
  cases K <;> cases hin

/-- "buckeroo" has the CRC-32 of "plumless" and gets the id behind its home. -/
theorem fresh_id_iff_colliding :
    ∃ m, run step empty [.playlistGetOrGenerate (ascii "plumless")] = some m ∧
      (Request.playlist (ascii "buckeroo")).inUse m (homeId (ascii "buckeroo")) = true ∧
      (Request.playlist (ascii "buckeroo")).countUp m = some (homeId (ascii "buckeroo") + 1) ∧
      (Request.playlist (ascii "buckeroo")).EndsFresh m ∧ PositiveIds m := by
  obtain ⟨m, hrun, hm⟩ := (Option.any_eq_true _ _).mp
    (show (run step empty [.playlistGetOrGenerate (ascii "plumless")]).any (fun m =>
      (Request.playlist (ascii "buckeroo")).known m = false ∧
      (Request.playlist (ascii "buckeroo")).inUse m (homeId (ascii "buckeroo")) = true ∧
      (Request.playlist (ascii "buckeroo")).inUse m (homeId (ascii "buckeroo") + 1) = false ∧
      (Request.playlist (ascii "buckeroo")).countUp m = some (homeId (ascii "buckeroo") + 1)) =
        true by decide +kernel)
  obtain ⟨hnew, hused, hfree, hcount⟩ := of_decide_eq_true hm
  have hempty : ∀ K : Request, K.op = .playlistGetOrGenerate (ascii "plumless") →
      K.known empty = false → K.HasRoom empty := by
    rintro (p | key) hop -
    · cases hop
      exact ⟨homeId (ascii "plumless"), by decide +kernel, by decide +kernel, by decide +kernel,
        rfl⟩
    · cases hop
  refine ⟨m, hrun, hused, hcount, ((fresh_id_iff m).1 ⟨_, hrun⟩ _ hnew).mpr
    ⟨homeId (ascii "buckeroo") + 1, by decide +kernel, by decide +kernel, by decide +kernel,
      hfree⟩, (fresh_id_iff m).2 (.tail .refl hempty ?_)⟩
  obtain ⟨t, hst, hend⟩ := run_cons_eq_some.mp hrun
  cases hend
  exact hst

/-! ## Two playlists at the upper end -/

/-- Both ids have the CRC-32 `0x7fffffff`, up to the top bit. -/
def lastHome : Bytes := ascii "{31730462-4504-4214-A241-157156537740}"
def lastHomeToo : Bytes := ascii "{04263230-1425-4214-A241-157156537740}"

/-- The second of them has no room: its loop goes past `2 ^ 31 - 1`, and where the counter goes
round its id is negative. -/
theorem probing_overflows :
    ∃ m, Reachable step empty m ∧ (Request.playlist lastHomeToo).known m = false ∧
      (Request.playlist lastHomeToo).inUse m 1 = false ∧
      ¬(Request.playlist lastHomeToo).EndsFresh m ∧
      ((Request.playlist lastHomeToo).issue m).map (fun issued => issued.1.toInt) =
        some (-2147483648) := by
  obtain ⟨m, hrun, hm⟩ := (Option.any_eq_true _ _).mp
    (show (run step empty [.playlistGetOrGenerate lastHome]).any (fun m =>
      (Request.playlist lastHomeToo).known m = false ∧
      (Request.playlist lastHomeToo).inUse m 1 = false ∧
      (Request.playlist lastHomeToo).countUp m = none ∧
      ((Request.playlist lastHomeToo).issue m).map (fun issued => issued.1.toInt) =
        some (-2147483648)) = true by decide +kernel)
  obtain ⟨hnew, hone, hnone, hid⟩ := of_decide_eq_true hm
  refine ⟨m, ⟨_, hrun⟩, hnew, hone, ?_, hid⟩
  rintro ⟨id, m', hcount, -⟩
  rw [hnone] at hcount
  cases hcount

end RemoteControl.RemoteControlIdManager
