import RemoteControl.Settings.OptionsFrame

/-!
# What the settings keep

Settings that were loaded survive being saved and loaded again, and being shown in the
options dialog and saved from there without an edit. The three codecs on the way are
the lists of interfaces (`splitList_joinList`), the upload folder
(`uploadFolderForStorage_idem`, `uploadFolderForStorage_effective`) and the flags.
-/

namespace RemoteControl

/-! ## Lists -/

section Lists

variable {joined item : Bytes} {items : List Bytes} {separator : UInt8}

/-- The loop splits what is left of the string. -/
theorem splitLoop_eq {turns start : Nat} (hturns : joined.length < turns + start) :
    splitLoop joined separator turns start =
      if start ≤ joined.length then ((joined.drop start).splitOn separator).filter (· ≠ [])
      else [] := by
  induction turns generalizing start with
  | zero => rw [splitLoop, if_neg (by omega)]
  | succ turns ih =>
    rw [splitLoop]
    split
    · next hstart =>
      dsimp only
      cases hfind : findByte separator (joined.drop start) with
      | none =>
        rw [splitOn_of_findByte_eq_none hfind, List.filter_cons]
        by_cases hnil : joined.drop start = [] <;> simp [hnil]
      | some n =>
        have hnext : start + n + 1 ≤ joined.length := by
          have hlength := (List.findIdx?_eq_some_iff_getElem.mp hfind).1
          rw [List.length_drop] at hlength
          omega
        have hrest : (joined.drop start).splitOn separator =
            (joined.drop start).take n :: (joined.drop (start + n + 1)).splitOn separator := by
          rw [splitOn_of_findByte_eq_some hfind, List.drop_drop]
          rfl
        dsimp only
        rw [hrest, List.filter_cons, ih (by omega), if_pos hnext]
        by_cases hnil : (joined.drop start).take n = [] <;> simp [hnil]
    · rfl

/-- `SplitList` keeps the parts between the separators that are not empty. -/
theorem splitList_eq : splitList joined separator =
    (joined.splitOn separator).filter (· ≠ []) := by
  rw [splitList, splitLoop_eq (by omega), if_pos (Nat.zero_le _), List.drop_zero]

theorem notMem_of_mem_splitOn (h : item ∈ joined.splitOn separator) : separator ∉ item := by
  induction joined generalizing item with
  | nil =>
    rw [List.splitOn_nil, List.mem_singleton] at h
    rw [h]
    exact List.not_mem_nil
  | cons b joined ih =>
    rw [List.splitOn_cons_eq_if_modifyHead] at h
    split at h
    · rcases List.mem_cons.mp h with rfl | h
      · exact List.not_mem_nil
      · exact ih h
    · next hb =>
      obtain ⟨first, others, hsplit⟩ :=
        List.exists_cons_of_ne_nil (List.splitOn_ne_nil separator joined)
      rw [hsplit, List.modifyHead_cons] at h
      rcases List.mem_cons.mp h with rfl | h
      · rw [List.mem_cons, not_or]
        exact ⟨fun heq => hb (beq_iff_eq.mpr heq.symm), ih (hsplit ▸ List.mem_cons_self)⟩
      · exact ih (hsplit ▸ List.mem_cons_of_mem first h)

theorem joinList_eq (h : ∀ item ∈ items, item ≠ []) :
    joinList items separator = [separator].intercalate items := by
  have hfold : ∀ (items : List Bytes) (joined : Bytes), joined ≠ [] →
      items.foldl (fun joined item => joined ++ (if joined = [] then [] else [separator]) ++ item)
        joined = [separator].intercalate (joined :: items) := by
    intro items
    induction items with
    | nil => intro joined _; simp [List.intercalate]
    | cons item items ih =>
      intro joined hjoined
      rw [List.foldl_cons, if_neg hjoined, ih _ (by simp [hjoined])]
      cases items <;> simp [List.intercalate]
  cases items with
  | nil => rfl
  | cons item items =>
    rw [joinList, List.foldl_cons, if_pos rfl]
    exact hfold items _ (h item List.mem_cons_self)

theorem splitList_joinList (hne : ∀ item ∈ items, item ≠ [])
    (hseparator : ∀ item ∈ items, separator ∉ item) (hitems : items ≠ []) :
    splitList (joinList items separator) separator = items := by
  rw [splitList_eq, joinList_eq hne, List.splitOn_intercalate separator hseparator hitems]
  exact List.filter_eq_self.mpr fun item hitem => decide_eq_true (hne item hitem)

theorem mem_splitList (h : item ∈ splitList joined separator) : item ≠ [] ∧ separator ∉ item := by
  rw [splitList_eq, List.mem_filter] at h
  exact ⟨of_decide_eq_true h.2, notMem_of_mem_splitOn h.1⟩

end Lists

/-! ## The upload folder -/

section UploadFolder

variable (platform : Platform)

theorem uploadFolderForStorage_idem (folder : Bytes) :
    uploadFolderForStorage platform (uploadFolderForStorage platform folder) =
      uploadFolderForStorage platform folder := by
  by_cases h : folder = [] ∨
      canonicalFolder platform folder = canonicalFolder platform platform.defaultUploadFolder
  · rw [uploadFolderForStorage, uploadFolderForStorage, if_pos h, if_pos (.inl rfl)]
  · have hkeep : uploadFolderForStorage platform folder = folder := if_neg h
    rw [hkeep, hkeep]

/-- The folder the dialog shows is stored as the folder it was shown for. -/
theorem uploadFolderForStorage_effective (f : FeatureSettings)
    (h : uploadFolderForStorage platform f.uploadFolder = f.uploadFolder) :
    uploadFolderForStorage platform (f.effectiveUploadFolder platform) = f.uploadFolder := by
  unfold FeatureSettings.effectiveUploadFolder
  split
  · next hnil =>
    rw [hnil, uploadFolderForStorage, if_pos (.inr rfl)]
  · exact h

end UploadFolder

/-! ## Load and Save -/

namespace Settings

variable (platform : Platform)

/-- What `Load` gives: a folder as it is stored, and a list that can be joined. -/
structure Storable (s : Settings) : Prop where
  folder : uploadFolderForStorage platform s.features.uploadFolder = s.features.uploadFolder
  nonempty : ∀ item ∈ s.excludedInterfaces, item ≠ []
  separated : ∀ item ∈ s.excludedInterfaces, interfaceListSeparator ∉ item

theorem load_storable (store : ConfigStore) : Storable platform (load platform store) where
  folder := uploadFolderForStorage_idem platform _
  nonempty _ h := (mem_splitList h).1
  separated _ h := (mem_splitList h).2

theorem load_save_features (s : Settings) (store : ConfigStore) (h : Storable platform s) :
    (load platform (s.save platform store)).features = s.features := by
  obtain ⟨auth, ⟨deletion, upload, scheduler, browse, folder⟩, excluded⟩ := s
  have hfolder : uploadFolderForStorage platform folder = folder := h.folder
  have hload : (load platform (Settings.save platform
      ⟨auth, ⟨deletion, upload, scheduler, browse, folder⟩, excluded⟩ store)).features =
      ⟨boolInt deletion ≠ 0, boolInt upload ≠ 0, boolInt scheduler ≠ 0, boolInt browse ≠ 0,
        uploadFolderForStorage platform (uploadFolderForStorage platform folder)⟩ := by
    unfold save
    dsimp only
    split <;> rfl
  rw [hload, hfolder, hfolder]
  cases deletion <;> cases upload <;> cases scheduler <;> cases browse <;> rfl

/-- A list of proper items is read back as it was saved. -/
theorem load_excluded_of_save {s : Settings} {store : ConfigStore}
    (h : ∀ item ∈ s.excludedInterfaces, item ≠ [] ∧ interfaceListSeparator ∉ item) :
    (load platform (s.save platform store)).excludedInterfaces = s.excludedInterfaces := by
  unfold save
  dsimp only
  split
  · next hnil =>
    rw [hnil]
    rfl
  · next hne =>
    exact splitList_joinList (fun item hitem => (h item hitem).1)
      (fun item hitem => (h item hitem).2) hne

theorem load_save_excluded (s : Settings) (store : ConfigStore) (h : Storable platform s) :
    (load platform (s.save platform store)).excludedInterfaces = s.excludedInterfaces :=
  load_excluded_of_save platform fun item hitem => ⟨h.nonempty item hitem, h.separated item hitem⟩

theorem load_save (s : Settings) (store : ConfigStore) (h : Storable platform s) :
    load platform (s.save platform store) = s := by
  have hauth := load_save_auth platform s store
  have hfeatures := load_save_features platform s store h
  have hexcluded := load_save_excluded platform s store h
  revert hauth hfeatures hexcluded
  generalize load platform (s.save platform store) = loaded
  obtain ⟨auth, features, excluded⟩ := loaded
  rintro rfl rfl rfl
  rfl

end Settings

/-! ## The dialog -/

namespace OptionsFrame

variable (md5Hex : Bytes → Bytes) (platform : Platform)

/-- The check boxes that settings are read from exist; an edit that does not leaves its
setting alone. -/
structure Controls.Present (c : Controls) : Prop where
  authGroup : c.authGroup.isSome = true
  physicalDeletion : c.physicalDeletionCheck.isSome = true
  browseFiles : c.browseFilesCheck.isSome = true
  uploadTracks : c.uploadTracksCheck.isSome = true
  scheduler : c.schedulerCheck.isSome = true

theorem isChecked_map {control : Option Bool} (h : control.isSome = true) (b : Bool) :
    isChecked (control.map fun _ => b) = b := by
  obtain ⟨checked, rfl⟩ := Option.isSome_iff_exists.mp h
  rfl

/-- Check boxes that show the exclusion list do not change it. -/
theorem foldl_editExcluded (excluded : List Bytes) (checks : List (Bytes × Bool)) :
    (checks.map fun check => (check.1, decide (check.1 ∉ excluded))).foldl editExcluded excluded =
      excluded := by
  induction checks with
  | nil => rfl
  | cons check checks ih =>
    rw [List.map_cons, List.foldl_cons]
    have hsame : editExcluded excluded (check.1, decide (check.1 ∉ excluded)) = excluded := by
      by_cases hmem : check.1 ∈ excluded <;> simp [editExcluded, hmem]
    rw [hsame]
    exact ih

theorem editedAuth_showSettings (s : Settings) {c : Controls} (h : Controls.Present c) :
    editedAuth md5Hex s (showSettings platform s c) = s.auth := by
  have husername : editedUsername s (showSettings platform s c) = s.auth.username := by
    unfold editedUsername showSettings
    cases c.userEdit <;> rfl
  have hpassword : editedPassword (showSettings platform s c) = [] := by
    unfold editedPassword showSettings
    cases c.passEdit <;> rfl
  unfold editedAuth
  rw [husername, hpassword]
  dsimp only [showSettings]
  rw [isChecked_map h.authGroup]
  simp

theorem editedSettings_showSettings (s : Settings) {c : Controls} (h : Controls.Present c)
    (hs : s.Storable platform) :
    editedSettings md5Hex platform s (showSettings platform s c) = s := by
  unfold editedSettings
  rw [editedAuth_showSettings md5Hex platform s h]
  dsimp only [showSettings]
  rw [isChecked_map h.physicalDeletion, isChecked_map h.browseFiles, isChecked_map h.uploadTracks,
    isChecked_map h.scheduler, foldl_editExcluded]
  cases c.uploadFolderEdit with
  | none => rfl
  | some text =>
    dsimp only [Option.map_some]
    rw [uploadFolderForStorage_effective platform s.features hs.folder]

/-- **Settings survive persistence.** Loading, saving and loading again gives the same
settings, whatever the store holds; and so does opening the options dialog and saving it
without an edit, whichever interfaces it shows. -/
theorem settings_survive (store : ConfigStore) :
    (Settings.load platform ((Settings.load platform store).save platform store) =
      Settings.load platform store) ∧
    ∀ (frame : OptionsFrame) (c : Controls), frame.form = some c → Controls.Present c →
      ∃ store' frame', saveToSettings md5Hex platform store (loadFromSettings platform store frame) =
          some (store', frame', Settings.load platform store) ∧
        frame'.settings = Settings.load platform store ∧
        Settings.load platform store' = Settings.load platform store := by
  have hs := Settings.load_storable platform store
  refine ⟨Settings.load_save platform _ store hs, ?_⟩
  intro frame c hform hpresent
  have hedited := editedSettings_showSettings md5Hex platform _ hpresent hs
  unfold saveToSettings loadFromSettings
  rw [hform]
  dsimp only [Option.map_some]
  rw [hedited]
  exact ⟨_, _, rfl, rfl, Settings.load_save platform _ store hs⟩

/-- A hand-edited store: a list with empty parts, and flags that are neither 0 nor 1. -/
def sampleStore : ConfigStore :=
  (ConfigStore.empty.setString .netExcludedInterfaces (ascii "|eth0||lo|")).setInt .authEnabled (-7)

def sampleControls : Controls :=
  ⟨some false, none, some [], some true, some true, some false, some [], some false,
    [(ascii "eth0", true), (ascii "wlan0", false)]⟩

theorem settings_survive_sample :
    ∃ store' frame', saveToSettings id ⟨id, ascii "/home/u/Music"⟩ sampleStore
        (loadFromSettings ⟨id, ascii "/home/u/Music"⟩ sampleStore ⟨some sampleControls, {}⟩) =
          some (store', frame', Settings.load ⟨id, ascii "/home/u/Music"⟩ sampleStore) ∧
      Settings.load ⟨id, ascii "/home/u/Music"⟩ store' =
        Settings.load ⟨id, ascii "/home/u/Music"⟩ sampleStore := by
  obtain ⟨store', frame', hsave, -, hload⟩ :=
    (settings_survive id ⟨id, ascii "/home/u/Music"⟩ sampleStore).2 ⟨some sampleControls, {}⟩
      sampleControls rfl ⟨rfl, rfl, rfl, rfl, rfl⟩
  exact ⟨store', frame', hsave, hload⟩

end OptionsFrame

end RemoteControl
