import Mathlib.Data.List.AList

/-!
# Tables of keys and ids

A table that issues an id for a key holds two finite maps, one for each
direction. `BiMap.Inverse` says that they are mutually inverse; `insert`,
`eraseKey` and `eraseId` keep it.
-/

namespace AList

variable {κ : Type*} {β : Type*} [DecidableEq κ]

theorem lookup_insert_eq_ite (s : AList fun _ : κ => β) (k k' : κ) (v : β) :
    (s.insert k v).lookup k' = if k' = k then some v else s.lookup k' := by
  split
  · next h => rw [h, lookup_insert]
  · next h => rw [lookup_insert_ne h]

theorem lookup_erase_eq_ite (s : AList fun _ : κ => β) (k k' : κ) :
    (s.erase k).lookup k' = if k' = k then none else s.lookup k' := by
  split
  · next h => rw [h, lookup_erase]
  · next h => rw [lookup_erase_ne h]

@[simp] theorem lookup_empty' (k : κ) : (∅ : AList fun _ : κ => β).lookup k = none := rfl

end AList

/-- Two finite maps, from keys to ids and back. -/
structure BiMap (κ ι : Type*) where
  byKey : AList fun _ : κ => ι
  byId : AList fun _ : ι => κ

namespace BiMap

variable {κ ι : Type*}

/-- The table with no entry. -/
def empty : BiMap κ ι := ⟨∅, ∅⟩

/-- The number of ids in use. -/
def live (t : BiMap κ ι) : Nat := t.byId.entries.length

variable [DecidableEq κ] [DecidableEq ι]

/-- The id of a key. -/
def id? (t : BiMap κ ι) (k : κ) : Option ι := t.byKey.lookup k

/-- The key of an id. -/
def key? (t : BiMap κ ι) (i : ι) : Option κ := t.byId.lookup i

/-- Record that `i` stands for `k`. -/
def insert (t : BiMap κ ι) (k : κ) (i : ι) : BiMap κ ι := ⟨t.byKey.insert k i, t.byId.insert i k⟩

/-- Drop a key and its id. -/
def eraseKey (t : BiMap κ ι) (k : κ) : BiMap κ ι :=
  match t.id? k with
  | none => t
  | some i => ⟨t.byKey.erase k, t.byId.erase i⟩

/-- Drop an id and its key. -/
def eraseId (t : BiMap κ ι) (i : ι) : BiMap κ ι :=
  match t.key? i with
  | none => t
  | some k => ⟨t.byKey.erase k, t.byId.erase i⟩

omit [DecidableEq ι] in
@[simp] theorem id?_empty (k : κ) : (empty : BiMap κ ι).id? k = none := rfl

omit [DecidableEq κ] in
@[simp] theorem key?_empty (i : ι) : (empty : BiMap κ ι).key? i = none := rfl

theorem id?_insert (t : BiMap κ ι) (k k' : κ) (i : ι) :
    (t.insert k i).id? k' = if k' = k then some i else t.id? k' :=
  AList.lookup_insert_eq_ite _ _ _ _

theorem key?_insert (t : BiMap κ ι) (k : κ) (i i' : ι) :
    (t.insert k i).key? i' = if i' = i then some k else t.key? i' :=
  AList.lookup_insert_eq_ite _ _ _ _

theorem live_insert_le (t : BiMap κ ι) (k : κ) (i : ι) :
    (t.insert k i).live ≤ t.live + 1 := by
  have hle : (List.kerase i t.byId.entries).length ≤ t.byId.entries.length :=
    (List.kerase_sublist i _).length_le
  exact Nat.succ_le_succ hle

/-- The two maps are mutually inverse: a key has an id exactly when the id has the key. -/
def Inverse (t : BiMap κ ι) : Prop := ∀ k i, t.id? k = some i ↔ t.key? i = some k

variable {t : BiMap κ ι} {k k' : κ} {i i' : ι}

theorem Inverse.empty : (BiMap.empty : BiMap κ ι).Inverse := by
  intro k i
  simp

theorem Inverse.key_inj (h : t.Inverse) (hk : t.id? k = some i) (hk' : t.id? k' = some i) :
    k = k' := by
  rw [h] at hk hk'
  exact Option.some.inj (hk.symm.trans hk')

theorem Inverse.insert (h : t.Inverse) (hk : t.id? k = none) (hi : t.key? i = none) :
    (t.insert k i).Inverse := by
  intro k' i'
  rw [id?_insert, key?_insert]
  by_cases hkk : k' = k <;> by_cases hii : i' = i
  · simp [hkk, hii]
  · subst hkk
    simp only [if_true, hii, if_false, Option.some.injEq]
    constructor
    · rintro rfl
      exact absurd rfl hii
    · intro hc
      rw [← h, hk] at hc
      cases hc
  · subst hii
    simp only [hkk, if_false, if_true, Option.some.injEq]
    constructor
    · intro hc
      rw [h, hi] at hc
      cases hc
    · rintro rfl
      exact absurd rfl hkk
  · simp only [hkk, hii, if_false]
    exact h k' i'

theorem Inverse.erase (h : t.Inverse) (hk : t.id? k = some i) :
    (⟨t.byKey.erase k, t.byId.erase i⟩ : BiMap κ ι).Inverse := by
  intro k' i'
  show (t.byKey.erase k).lookup k' = some i' ↔ (t.byId.erase i).lookup i' = some k'
  rw [AList.lookup_erase_eq_ite, AList.lookup_erase_eq_ite]
  have hi : t.key? i = some k := (h k i).mp hk
  by_cases hkk : k' = k <;> by_cases hii : i' = i
  · simp [hkk, hii]
  · subst hkk
    simp only [if_true, hii, if_false, reduceCtorEq, false_iff]
    intro hc
    exact hii (Option.some.inj (((h k' i').mpr hc).symm.trans hk))
  · subst hii
    simp only [hkk, if_false, if_true, reduceCtorEq, iff_false]
    intro hc
    exact hkk (h.key_inj hc hk)
  · simp only [hkk, hii, if_false]
    exact h k' i'

theorem Inverse.eraseKey (h : t.Inverse) (k : κ) : (t.eraseKey k).Inverse := by
  unfold BiMap.eraseKey
  split
  · exact h
  · next i hi => exact h.erase hi

theorem Inverse.eraseId (h : t.Inverse) (i : ι) : (t.eraseId i).Inverse := by
  unfold BiMap.eraseId
  split
  · exact h
  · next k hk => exact h.erase ((h k i).mpr hk)

theorem Inverse.key?_eraseKey (h : t.Inverse) (k : κ) (i : ι) :
    (t.eraseKey k).key? i = if t.key? i = some k then none else t.key? i := by
  unfold BiMap.eraseKey
  split
  · next hn =>
    rw [if_neg]
    rw [← h, hn]
    exact fun hc => by cases hc
  · next j hj =>
    show (t.byId.erase j).lookup i = _
    rw [AList.lookup_erase_eq_ite]
    by_cases hij : i = j
    · rw [if_pos hij, if_pos (hij ▸ (h k j).mp hj)]
    · rw [if_neg hij, if_neg]
      · rfl
      · intro hc
        exact hij (Option.some.inj (((h k i).mpr hc).symm.trans hj))

theorem key?_eraseId (t : BiMap κ ι) (i i' : ι) :
    (t.eraseId i).key? i' = if i' = i then none else t.key? i' := by
  unfold eraseId
  split
  · next hn =>
    split
    · next he => rw [he, hn]
    · rfl
  · exact AList.lookup_erase_eq_ite _ _ _

/-- A table that kept the ids of some keys kept exactly those keys. -/
theorem Inverse.id?_filter {t' : BiMap κ ι} {f : κ → Bool} (h : t.Inverse) (h' : t'.Inverse)
    (hf : ∀ i, t'.key? i = (t.key? i).filter f) (k : κ) :
    t'.id? k = if f k = true then t.id? k else none := by
  apply Option.ext
  intro i
  rw [h', hf, Option.filter_eq_some_iff, ← h]
  by_cases hk : f k = true
  · simp [hk]
  · simp [hk]

theorem Inverse.foldl_eraseId (h : t.Inverse) (ids : List ι) :
    (ids.foldl BiMap.eraseId t).Inverse := by
  induction ids generalizing t with
  | nil => exact h
  | cons i ids ih => exact ih (h.eraseId i)

theorem key?_foldl_eraseId (t : BiMap κ ι) (ids : List ι) (i : ι) :
    (ids.foldl eraseId t).key? i = if i ∈ ids then none else t.key? i := by
  induction ids generalizing t with
  | nil => simp
  | cons j ids ih =>
    rw [List.foldl_cons, ih, key?_eraseId]
    by_cases hij : i = j
    · simp [hij]
    · simp [hij]

end BiMap
