import RemoteControl.IdManager.Invariant
import Mathlib.Data.List.Induction

/-!
# Ids across restarts

Two runs of the manager, both from empty and both asking for the id of a key `K`.
Linear probing makes the id depend on the keys asked for before `K`, so the ids
can differ (`not_stable_for_all_histories`). What the runs agree on:

* the order of the earlier requests does not matter, only which keys they were
  for (`Issued.taken_eq`, from `Probing.Places.perm`);
* a key whose own id is free when it is first asked for gets that id.
-/

namespace RemoteControl.RemoteControlIdManager

open Transition Probing

/-! ## One table -/

section Table

variable {κ : Type} [DecidableEq κ] {t t' : BiMap κ PluginId} {home : κ → PluginId} {ks ks' : List κ}
  {k : κ} {id : PluginId}

/-- The ids in use, with the id zero that is never issued. -/
def takenSet (t : BiMap κ PluginId) : Set PluginId := {i | taken t i = true}

/-- The table was filled by issuing ids for the keys `ks`, in this order. -/
structure Issued (home : κ → PluginId) (t : BiMap κ PluginId) (ks : List κ) : Prop where
  nodup : ks.Nodup
  mem : ∀ k, k ∈ ks ↔ (t.id? k).isSome = true
  places : Places (· + 1) {0} (ks.map home) (takenSet t)

omit [DecidableEq κ] in
theorem takenSet_empty : takenSet (BiMap.empty : BiMap κ PluginId) = {0} := by
  ext i
  simp [takenSet, taken]

theorem takenSet_insert (t : BiMap κ PluginId) (k : κ) (id : PluginId) :
    takenSet (t.insert k id) = insert id (takenSet t) := by
  ext i
  simp only [takenSet, taken, BiMap.key?_insert, Set.mem_insert_iff, Set.mem_ofPred_eq]
  by_cases hi : i = id
  · simp [hi]
  · simp [hi]

theorem Issued.empty : Issued home (BiMap.empty : BiMap κ PluginId) [] where
  nodup := List.nodup_nil
  mem k := by simp
  places := by rw [takenSet_empty]; exact .nil _

theorem Issued.insert (h : Issued home t ks) (hk : t.id? k = none)
    (hid : probeId t (home k) = some id) : Issued home (t.insert k id) (ks ++ [k]) where
  nodup := by
    refine List.nodup_append.mpr ⟨h.nodup, List.nodup_singleton k, fun a ha b hb hab => ?_⟩
    obtain rfl := List.mem_singleton.mp hb
    rw [hab, h.mem, hk] at ha
    cases ha
  mem k' := by
    rw [List.mem_append, List.mem_singleton, h.mem, BiMap.id?_insert]
    by_cases hk' : k' = k <;> simp [hk']
  places := by
    rw [takenSet_insert, List.map_append]
    exact h.places.concat (probeId_firstFree hid)

/-- The ids in use depend on the set of keys asked for, not on their order. -/
theorem Issued.taken_eq (h : Issued home t ks) (h' : Issued home t' ks')
    (hsame : ∀ k, k ∈ ks ↔ k ∈ ks') : takenSet t = takenSet t' := by
  have hperm : ks.Perm ks' := (List.perm_ext_iff_of_nodup h.nodup h'.nodup).mpr hsame
  exact (h.places.perm (hperm.map home)).unique h'.places

omit [DecidableEq κ] in
theorem probeId_congr {id' : PluginId} {a : PluginId} (ht : takenSet t = takenSet t')
    (h : probeId t a = some id) (h' : probeId t' a = some id') : id = id' := by
  have hf : FirstFree (· + 1) (takenSet t) a id := probeId_firstFree h
  rw [ht] at hf
  exact hf.unique (probeId_firstFree h')

/-- The id a key gets when nothing is in its way: its home, or 1 for the home 0. -/
def firstId (home : PluginId) : PluginId := if home = 0 then 1 else home

omit [DecidableEq κ] in
theorem firstId_ne_zero (a : PluginId) : firstId a ≠ 0 := by
  unfold firstId
  split
  · decide
  · assumption

omit [DecidableEq κ] in
theorem probeId_of_free {a : PluginId} (hfree : t.key? (firstId a) = none)
    (h : probeId t a = some id) : id = firstId a := by
  have hnot : firstId a ∉ takenSet t := by
    show ¬ taken t (firstId a) = true
    rw [taken_eq_false.mpr ⟨firstId_ne_zero a, hfree⟩]
    decide
  refine (probeId_firstFree h).unique ?_
  by_cases ha : a = 0
  · subst ha
    refine ⟨1, rfl, hnot, ?_⟩
    intro j hj
    obtain rfl := Nat.lt_one_iff.mp hj
    rfl
  · have hself : firstId a = a := if_neg ha
    rw [hself] at hnot ⊢
    exact .self hnot

end Table

/-! ## Runs of requests -/

/-- A key an id is requested for. -/
inductive Request
  | playlist (aimpPlaylistId : Bytes)
  | item (key : PlaylistItemKey)
deriving DecidableEq

namespace Request

/-- Ask the manager for the id of the key. -/
def issue (m : RemoteControlIdManager) : Request → Option (PluginId × RemoteControlIdManager)
  | .playlist p => m.playlistGetOrGeneratePluginId p
  | .item key => m.playlistItemGetOrGeneratePluginId key.aimpPlaylistId key.index

/-- The operation a request is. -/
def op : Request → Op
  | .playlist p => .playlistGetOrGenerate p
  | .item key => .playlistItemGetOrGenerate key.aimpPlaylistId key.index

/-- Playlist ids and item ids are issued independently of each other. -/
def sameKind : Request → Request → Bool
  | .playlist _, .playlist _ => true
  | .item _, .item _ => true
  | _, _ => false

/-- The CRC-32 of the key with the top bit cleared. -/
def home : Request → PluginId
  | .playlist p => homeId p
  | .item key => homeId (itemSeed key)

/-- Whether an id of this key's kind is in use. -/
def inUse (m : RemoteControlIdManager) (id : PluginId) : Request → Bool
  | .playlist _ => (m.playlists.key? id).isSome
  | .item _ => (m.items.key? id).isSome

theorem step_op (m : RemoteControlIdManager) (r : Request) :
    step m r.op = (r.issue m).map Prod.snd := by
  cases r <;> rfl

end Request

/-- A run that only asks for ids. -/
def requests (m : RemoteControlIdManager) (rs : List Request) : Option RemoteControlIdManager :=
  run (fun m (r : Request) => (r.issue m).map Prod.snd) m rs

theorem requests_issued {rs : List Request} {m : RemoteControlIdManager}
    (h : requests empty rs = some m) :
    (∃ ks, Issued homeId m.playlists ks ∧ ∀ p, p ∈ ks ↔ Request.playlist p ∈ rs) ∧
      ∃ ks, Issued (fun key => homeId (itemSeed key)) m.items ks ∧
        ∀ key, key ∈ ks ↔ Request.item key ∈ rs := by
  induction rs using List.reverseRecOn generalizing m with
  | nil =>
    cases h
    exact ⟨⟨[], .empty, fun p => by simp⟩, ⟨[], .empty, fun key => by simp⟩⟩
  | append_singleton rs r ih =>
    obtain ⟨m₀, hrun, hstep⟩ := run_concat_eq_some.mp h
    obtain ⟨⟨ps, hps, hpmem⟩, ⟨ks, hks, hkmem⟩⟩ := ih hrun
    obtain ⟨⟨id, _⟩, hm, rfl⟩ := Option.map_eq_some_iff.mp hstep
    cases r with
    | playlist p =>
      refine ⟨?_, ks, (items_playlistGetOrGenerate hm).symm ▸ hks, fun key => by simp [hkmem]⟩
      rcases playlistGetOrGenerate_eq_some.mp hm with ⟨hp, rfl⟩ | ⟨hp, hprobe, rfl⟩
      · have hin : p ∈ ps := (hps.mem p).mpr (by rw [hp]; rfl)
        refine ⟨ps, hps, ?_⟩
        intro q
        rw [List.mem_append, List.mem_singleton, Request.playlist.injEq, hpmem]
        exact ⟨Or.inl, fun hq => hq.elim (fun hq => hq) fun hq => hq ▸ (hpmem p).mp hin⟩
      · exact ⟨ps ++ [p], hps.insert hp hprobe, fun q => by simp [hpmem]⟩
    | item key =>
      refine ⟨⟨ps, (playlists_itemGetOrGenerate hm).symm ▸ hps, fun p => by simp [hpmem]⟩, ?_⟩
      rcases playlistItemGetOrGenerate_eq_some.mp hm with ⟨hk, rfl⟩ | ⟨hk, hprobe, rfl⟩
      · have hin : key ∈ ks := (hks.mem key).mpr (by rw [hk]; rfl)
        refine ⟨ks, hks, ?_⟩
        intro q
        rw [List.mem_append, List.mem_singleton, Request.item.injEq, hkmem]
        exact ⟨Or.inl, fun hq => hq.elim (fun hq => hq) fun hq => hq ▸ (hkmem key).mp hin⟩
      · exact ⟨ks ++ [key], hks.insert hk hprobe, fun q => by simp [hkmem]⟩

theorem first_issue {rs : List Request} {m m' : RemoteControlIdManager} {id : PluginId}
    {p : Bytes} (h : requests empty rs = some m) (hnew : Request.playlist p ∉ rs)
    (hid : m.playlistGetOrGeneratePluginId p = some (id, m')) :
    probeId m.playlists (homeId p) = some id := by
  obtain ⟨⟨ps, hps, hmem⟩, -⟩ := requests_issued h
  rcases playlistGetOrGenerate_eq_some.mp hid with ⟨hp, -⟩ | ⟨-, hprobe, -⟩
  · exact absurd ((hmem p).mp ((hps.mem p).mpr (by rw [hp]; rfl))) hnew
  · exact hprobe

theorem first_item_issue {rs : List Request} {m m' : RemoteControlIdManager} {id : PluginId}
    {key : PlaylistItemKey} (h : requests empty rs = some m) (hnew : Request.item key ∉ rs)
    (hid : m.playlistItemGetOrGeneratePluginId key.aimpPlaylistId key.index = some (id, m')) :
    probeId m.items (homeId (itemSeed key)) = some id := by
  obtain ⟨-, ⟨ks, hks, hmem⟩⟩ := requests_issued h
  rcases playlistItemGetOrGenerate_eq_some.mp hid with ⟨hp, -⟩ | ⟨-, hprobe, -⟩
  · exact absurd ((hmem key).mp ((hks.mem key).mpr (by rw [hp]; rfl))) hnew
  · exact hprobe

/-! ## Two runs -/

/-- Every key has one id for all histories of requests before it. -/
def StableForAllHistories : Prop :=
  ∀ (K : Request) (before₁ before₂ : List Request) (m₁ m₂ m₁' m₂' : RemoteControlIdManager)
    (id₁ id₂ : PluginId), requests empty before₁ = some m₁ → requests empty before₂ = some m₂ →
    K.issue m₁ = some (id₁, m₁') → K.issue m₂ = some (id₂, m₂') → id₁ = id₂

/-- "plumless" and "buckeroo" have the same CRC-32, so whichever comes second is
moved on to the next id. -/
theorem not_stable_for_all_histories : ¬ StableForAllHistories := by
  intro hall
  have hfirst : ((Request.playlist (ascii "buckeroo")).issue empty).map Prod.fst =
      some 1306201125 := by decide +kernel
  have hsecond : (requests empty [.playlist (ascii "plumless")]).bind (fun m =>
      ((Request.playlist (ascii "buckeroo")).issue m).map Prod.fst) = some 1306201126 := by
    decide +kernel
  obtain ⟨⟨id₁, m₁'⟩, hid₁, rfl⟩ := Option.map_eq_some_iff.mp hfirst
  obtain ⟨m₂, hrun₂, hmap⟩ := Option.bind_eq_some_iff.mp hsecond
  obtain ⟨⟨id₂, m₂'⟩, hid₂, rfl⟩ := Option.map_eq_some_iff.mp hmap
  exact absurd (hall _ [] _ empty m₂ _ _ _ _ rfl hrun₂ hid₁ hid₂) (by decide)

theorem reissue {K : Request} {before later : List Request} {m m' m'' m₃ : RemoteControlIdManager}
    {id id' : PluginId} (hrun : requests empty before = some m) (hid : K.issue m = some (id, m'))
    (hlater : requests m' later = some m'') (hid' : K.issue m'' = some (id', m₃)) : id' = id := by
  have toOps : ∀ {rs : List Request} {m m' : RemoteControlIdManager},
      requests m rs = some m' → run step m (rs.map Request.op) = some m' := by
    intro rs
    induction rs with
    | nil => exact fun h => h
    | cons r rs ih =>
      intro m m' h
      obtain ⟨n, hn, h⟩ := run_cons_eq_some.mp h
      exact run_cons_eq_some.mpr ⟨n, (Request.step_op m r).trans hn, ih h⟩
  have hm := reachable_invariant ⟨_, toOps hrun⟩
  cases K with
  | playlist p =>
    refine ((hm.playlistIdsPersist p id m' hid _ m'' ?_ (toOps hlater)).2 p id' m₃ hid').mpr rfl
    intro op hop
    obtain ⟨r, -, rfl⟩ := List.mem_map.mp hop
    cases r <;> exact not_false
  | item key =>
    refine ((hm.itemIdsPersist _ _ id m' hid _ m'' ?_ (toOps hlater)).2 _ _ id' m₃ hid').mpr
      ⟨rfl, rfl⟩
    intro op hop
    obtain ⟨r, -, rfl⟩ := List.mem_map.mp hop
    cases r <;> exact not_false

/-- **What is stable across restarts.** Two runs that ask for the id of `K` agree on
it when the other keys of its kind they asked for before it are the same, in any
order; and when `K`'s own id is free in both runs, both give it that id. Later
requests for `K` answer the same id. -/
theorem id_stable_across_restarts {K : Request} {before₁ before₂ : List Request}
    {m₁ m₂ m₁' m₂' : RemoteControlIdManager} {id₁ id₂ : PluginId}
    (hrun₁ : requests empty before₁ = some m₁) (hrun₂ : requests empty before₂ = some m₂)
    (hnew₁ : K ∉ before₁) (hnew₂ : K ∉ before₂)
    (hid₁ : K.issue m₁ = some (id₁, m₁')) (hid₂ : K.issue m₂ = some (id₂, m₂')) :
    ((∀ r, r.sameKind K = true → (r ∈ before₁ ↔ r ∈ before₂)) → id₁ = id₂) ∧
      (K.inUse m₁ (firstId K.home) = false → K.inUse m₂ (firstId K.home) = false → id₁ = id₂) ∧
      ∀ later m m' id, requests m₁' later = some m → K.issue m = some (id, m') → id = id₁ := by
  refine ⟨fun hsame => ?_, fun hfree₁ hfree₂ => ?_, fun later m m' id hlater hid =>
    reissue hrun₁ hid₁ hlater hid⟩
  · cases K with
    | playlist p =>
      obtain ⟨⟨ps₁, hps₁, hmem₁⟩, -⟩ := requests_issued hrun₁
      obtain ⟨⟨ps₂, hps₂, hmem₂⟩, -⟩ := requests_issued hrun₂
      have htaken := hps₁.taken_eq hps₂ fun q => by
        rw [hmem₁, hmem₂]
        exact hsame (.playlist q) rfl
      exact probeId_congr htaken (first_issue hrun₁ hnew₁ hid₁) (first_issue hrun₂ hnew₂ hid₂)
    | item key =>
      obtain ⟨-, ⟨ks₁, hks₁, hmem₁⟩⟩ := requests_issued hrun₁
      obtain ⟨-, ⟨ks₂, hks₂, hmem₂⟩⟩ := requests_issued hrun₂
      have htaken := hks₁.taken_eq hks₂ fun q => by
        rw [hmem₁, hmem₂]
        exact hsame (.item q) rfl
      exact probeId_congr htaken (first_item_issue hrun₁ hnew₁ hid₁)
        (first_item_issue hrun₂ hnew₂ hid₂)
  · cases K with
    | playlist p =>
      simp only [Request.inUse, Option.isSome_eq_false_iff, Option.isNone_iff_eq_none] at hfree₁ hfree₂
      exact (probeId_of_free hfree₁ (first_issue hrun₁ hnew₁ hid₁)).trans
        (probeId_of_free hfree₂ (first_issue hrun₂ hnew₂ hid₂)).symm
    | item key =>
      simp only [Request.inUse, Option.isSome_eq_false_iff, Option.isNone_iff_eq_none] at hfree₁ hfree₂
      exact (probeId_of_free hfree₁ (first_item_issue hrun₁ hnew₁ hid₁)).trans
        (probeId_of_free hfree₂ (first_item_issue hrun₂ hnew₂ hid₂)).symm

/-- The colliding playlists again, asked for with a third one in two orders. -/
theorem id_stable_across_restarts_reordered :
    ∃ m₁ m₂ m₁' m₂' id₁ id₂,
      requests empty [.playlist (ascii "plumless"), .playlist (ascii "rock")] = some m₁ ∧
      requests empty [.playlist (ascii "rock"), .playlist (ascii "plumless")] = some m₂ ∧
      (Request.playlist (ascii "buckeroo")).issue m₁ = some (id₁, m₁') ∧
      (Request.playlist (ascii "buckeroo")).issue m₂ = some (id₂, m₂') ∧ id₁ = id₂ := by
  have h₁ : ((requests empty [.playlist (ascii "plumless"), .playlist (ascii "rock")]).bind
      (Request.playlist (ascii "buckeroo")).issue).isSome = true := by decide +kernel
  have h₂ : ((requests empty [.playlist (ascii "rock"), .playlist (ascii "plumless")]).bind
      (Request.playlist (ascii "buckeroo")).issue).isSome = true := by decide +kernel
  obtain ⟨⟨id₁, m₁'⟩, h₁⟩ := Option.isSome_iff_exists.mp h₁
  obtain ⟨⟨id₂, m₂'⟩, h₂⟩ := Option.isSome_iff_exists.mp h₂
  obtain ⟨m₁, hrun₁, hid₁⟩ := Option.bind_eq_some_iff.mp h₁
  obtain ⟨m₂, hrun₂, hid₂⟩ := Option.bind_eq_some_iff.mp h₂
  refine ⟨m₁, m₂, m₁', m₂', id₁, id₂, hrun₁, hrun₂, hid₁, hid₂, ?_⟩
  refine (id_stable_across_restarts hrun₁ hrun₂ (by decide) (by decide) hid₁ hid₂).1 ?_
  intro r _
  simp [or_comm]

end RemoteControl.RemoteControlIdManager
