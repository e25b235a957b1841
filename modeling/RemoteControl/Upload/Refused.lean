import RemoteControl.Commands.SuccessReplies

/-!
# What a refused upload leaves behind

The statuses 400 and 403 and the 404 of the playlist check come before anything is
written. The last task can answer 404 again, and by then the parts are there.

* `saveParts_length`: every saved part is one more file.
* `refused_upload_untouched_iff`: when a refused upload has written nothing.
-/

namespace RemoteControl

variable {ι : Type}

/-! ## Counting the files -/

section Counting

variable {fs : FileSystem} {path source target content folder : Bytes}

theorem fst_ne_of_notMem (h : path ∉ fs.objects) : ∀ f ∈ fs.files, f.1 ≠ path := by
  rintro f hf rfl
  exact h (List.mem_append_left _ (List.mem_map_of_mem hf))

theorem fst_ne_of_free (hfree : fs.exists path = false) : ∀ f ∈ fs.files, f.1 ≠ path := by
  refine fst_ne_of_notMem fun h => ?_
  rw [FileSystem.exists_of_mem_objects h] at hfree
  cases hfree

/-- A file that is created is one file more, and the only one of its name. -/
theorem write_files (hfree : fs.exists path = false) :
    (fs.write path content).files = (fs.place path, content) :: fs.files := by
  have hkept : fs.files.filter (·.1 != fs.place path) = fs.files :=
    List.filter_eq_self.mpr fun f hf =>
      bne_iff_ne.mpr (fst_ne_of_notMem (FileSystem.not_exists_iff.mp hfree).2 f hf)
  rw [FileSystem.write]
  dsimp only
  rw [hkept]

/-- A file just made keeps its place under a name that is free. -/
theorem rename_files {files : List (Bytes × Bytes)}
    (hfiles : fs.files = (source, content) :: files)
    (hother : ∀ f ∈ files, f.1 ≠ source) (hfree : fs.exists target = false) :
    (fs.rename source target).files = (target, content) :: files := by
  have hkept : fs.files.filter (fun f => f.1 != source && f.1 != target) = files := by
    rw [hfiles, List.filter_cons_of_neg (by simp)]
    refine List.filter_eq_self.mpr ?_
    intro f hf
    have htarget := fst_ne_of_free hfree f (hfiles ▸ List.mem_cons_of_mem _ hf)
    rw [Bool.and_eq_true, bne_iff_ne, bne_iff_ne]
    exact ⟨hother f hf, htarget⟩
  have hfind : fs.files.find? (·.1 == source) = some (source, content) := by
    rw [hfiles, List.find?_cons_of_pos (by simp)]
  rw [FileSystem.rename, hfind]
  dsimp only
  rw [hkept]

/-- A link that is moved to a free name takes no file away. -/
theorem rename_link_files (hsource : ∀ f ∈ fs.files, f.1 ≠ source)
    (hfree : fs.exists target = false) : (fs.rename source target).files = fs.files := by
  have hnone : fs.files.find? (·.1 == source) = none :=
    List.find?_eq_none.mpr fun f hf heq => hsource f hf (eq_of_beq heq)
  rw [FileSystem.rename, hnone]
  dsimp only
  split
  · rfl
  · exact List.filter_eq_self.mpr fun f hf => bne_iff_ne.mpr (fst_ne_of_free hfree f hf)

/-- The last file written, or the link it was written through, is renamed. -/
theorem restoreName_length {moment : Moment ι} {renamed : Bool} {place : Bytes}
    {files : List (Bytes × Bytes)} (hfiles : fs.files = (place, content) :: files)
    (hother : ∀ f ∈ files, f.1 ≠ source) :
    (restoreName moment renamed fs folder source).1.files.length = fs.files.length := by
  unfold restoreName
  dsimp only
  split
  · rfl
  · split
    · have hfree := uniqueTarget_free fs folder
        ((runOnMainThread [] moment fun core _ => (tagBasedName core source, [])).value ++
          Path.extension source)
      by_cases hplace : place = source
      · subst hplace
        rw [rename_files hfiles hother hfree, hfiles]
        rfl
      · rw [rename_link_files (hfiles ▸ List.forall_mem_cons.mpr ⟨hplace, hother⟩) hfree]
    · rfl

theorem savePart_length {moment : Moment ι} {renamed : Bool} {name : Bytes}
    (hfree : fs.exists target = false) :
    (if 63 ∈ name then restoreName moment renamed (fs.write target content) folder target
      else (fs.write target content, target)).1.files.length = fs.files.length + 1 := by
  have hfiles : (fs.write target content).files = _ := write_files hfree
  split
  · rw [restoreName_length hfiles (fst_ne_of_free hfree), hfiles, List.length_cons]
  · rw [hfiles, List.length_cons]

theorem saveParts_length {world : UploadWorld ι} {i : Nat} {files : List HttpUploadedFile}
    {saved : List Bytes} (h : (saveParts world folder i fs files).2 = some saved) :
    (saveParts world folder i fs files).1.files.length = fs.files.length + files.length := by
  induction files generalizing i fs saved with
  | nil => rfl
  | cons file files ih =>
    unfold saveParts at h ⊢
    cases hgood : (world.writes i).good with
    | false => simp [writeFile, hgood] at h
    | true =>
      obtain ⟨bytes, hleaves⟩ := WriteOutcome.leaves_of_good hgood file.content
      simp only [writeFile, hgood, hleaves, Option.elim_some, if_true] at h ⊢
      obtain ⟨rest, hrest, -⟩ := Option.map_eq_some_iff.mp h
      rw [ih hrest, savePart_length (uniqueTarget_free fs folder _), List.length_cons]
      omega

end Counting

/-! ## When nothing is written -/

/-- The task that adds the files finds no playlist, or AIMP answers `E_INVALIDARG` to it. -/
def AddRefused (moment : Moment ι) (playlistId : PluginId) (saved : List Bytes) : Prop :=
  moment.scheduling.Runs ∧
    match findPlaylist moment.core moment.idManager playlistId with
    | none => True
    | some playlist => moment.core.createObjectList = true ∧
      playlist.addList (saved.filter fun uri =>
        moment.core.createString uri && moment.core.objectListAdd uri) = eInvalidArg

/-- The statuses of a refusal. -/
def Reply.Refused (reply : Reply) : Prop :=
  reply = .http 400 ∨ reply = .http 403 ∨ reply = .http 404

theorem addStatus_refused_iff {value : HRESULT} :
    (Reply.http (if value = eInvalidArg then 404 else if failed value then 500 else 200)).Refused ↔
      value = eInvalidArg := by
  split
  · next h => exact iff_of_true (.inr (.inr rfl)) h
  · next h =>
    refine iff_of_false ?_ h
    split <;> simp [Reply.Refused]

theorem addUploaded_refused_iff {moment : Moment ι} {playlistId : PluginId} {saved : List Bytes} :
    (addUploaded moment playlistId saved).reply.Refused ↔ AddRefused moment playlistId saved := by
  have heFail : eFail ≠ eInvalidArg := by decide
  rw [addUploaded, addStatus_refused_iff, AddRefused]
  by_cases hruns : moment.scheduling.Runs
  · simp only [runOnMainThread_of_runs hruns, addFilesToPlaylist, hruns, true_and]
    cases findPlaylist moment.core moment.idManager playlistId with
    | none => simp
    | some playlist =>
      cases moment.core.createObjectList with
      | false => simp [heFail]
      | true => simp
  · rw [runOnMainThread_of_not_runs hruns]
    exact iff_of_false zero_reads_as_success.1 fun h => hruns h.1

/-- An upload, and what it meets. -/
structure UploadRequest (ι : Type) where
  features : FeatureSettings
  platform : Platform
  groups : List Bytes
  files : List HttpUploadedFile
  world : UploadWorld ι

namespace UploadRequest

def run (r : UploadRequest ι) : FileSystem × Outcome ι :=
  uploadTrack r.features r.platform r.groups r.files r.world

/-- A refusal, and a file system as it was. -/
def Untouched (r : UploadRequest ι) : Prop :=
  r.run.2.reply.Refused → r.run.1 = r.world.fileSystem

/-- The loop over the parts, once the playlist has been found. -/
def savedParts (r : UploadRequest ι) : FileSystem × Option (List Bytes) :=
  let folder := r.features.effectiveUploadFolder r.platform
  let fs :=
    if r.world.foldersCreated then r.world.fileSystem.createDirectories folder
    else r.world.fileSystem
  saveParts r.world folder 0 fs r.files

/-- The parts are all saved, and then the playlist is gone or does not take them. -/
def RefusedAfterSaving (r : UploadRequest ι) : Prop :=
  r.features.uploadTracks = true ∧ r.files ≠ [] ∧
    ∃ n, r.groups.head?.bind stoll = some n ∧ r.world.check.scheduling.Runs ∧
      (findPlaylist r.world.check.core r.world.check.idManager (BitVec.ofInt 32 n)).isSome ∧
      ∃ saved, r.savedParts.2 = some saved ∧ AddRefused r.world.add (BitVec.ofInt 32 n) saved

theorem savedParts_length {r : UploadRequest ι} {saved : List Bytes}
    (h : r.savedParts.2 = some saved) :
    r.savedParts.1.files.length = r.world.fileSystem.files.length + r.files.length := by
  refine (saveParts_length h).trans ?_
  split <;> rfl

theorem run_of_saved {r : UploadRequest ι} {n : Int} (hfeature : r.features.uploadTracks = true)
    (hfiles : r.files ≠ []) (hnumber : r.groups.head?.bind stoll = some n)
    (hruns : r.world.check.scheduling.Runs)
    (hfound : (findPlaylist r.world.check.core r.world.check.idManager
      (BitVec.ofInt 32 n)).isSome) :
    r.run = finishUpload r.world.add (BitVec.ofInt 32 n) r.savedParts := by
  obtain ⟨number, hhead, hstoll⟩ := Option.bind_eq_some_iff.mp hnumber
  obtain ⟨groups, hgroups⟩ := List.head?_eq_some_iff.mp hhead
  unfold run uploadTrack
  rw [if_neg (by simp [hfeature]), hgroups]
  dsimp only
  rw [if_neg hfiles, hstoll]
  dsimp only
  rw [runOnMainThread_of_runs hruns]
  exact if_pos hfound

/-- Up to the check of the playlist a request leaves the file system as it is. -/
theorem run_early {r : UploadRequest ι} (h : ¬(r.features.uploadTracks = true ∧ r.files ≠ [] ∧
    ∃ n, r.groups.head?.bind stoll = some n ∧ r.world.check.scheduling.Runs ∧
      (findPlaylist r.world.check.core r.world.check.idManager (BitVec.ofInt 32 n)).isSome)) :
    r.run.1 = r.world.fileSystem := by
  unfold run uploadTrack
  split
  · rfl
  · next hfeature =>
    split
    · rfl
    · next number groups hgroups =>
      split
      · rfl
      · next hfiles =>
        split
        · rfl
        · next n hstoll =>
          dsimp only
          split
          · next hfound =>
            refine absurd ⟨by simpa using hfeature, hfiles, n, ?_, ?_⟩ h
            · rw [hgroups, List.head?_cons, Option.bind_some, hstoll]
            · by_cases hruns : r.world.check.scheduling.Runs
              · rw [runOnMainThread_of_runs hruns] at hfound
                exact ⟨hruns, hfound⟩
              · rw [runOnMainThread_of_not_runs hruns] at hfound
                cases hfound
          · rfl

/-- **A refused upload writes nothing** unless the playlist is gone, or AIMP does not take
the files, when the parts have been saved. -/
theorem refused_upload_untouched_iff (r : UploadRequest ι) :
    r.Untouched ↔ ¬r.RefusedAfterSaving := by
  by_cases hreach : r.features.uploadTracks = true ∧ r.files ≠ [] ∧
      ∃ n, r.groups.head?.bind stoll = some n ∧ r.world.check.scheduling.Runs ∧
        (findPlaylist r.world.check.core r.world.check.idManager (BitVec.ofInt 32 n)).isSome
  · obtain ⟨hfeature, hfiles, n, hnumber, hruns, hfound⟩ := hreach
    have hrun := run_of_saved hfeature hfiles hnumber hruns hfound
    have hafter : r.RefusedAfterSaving ↔
        ∃ saved, r.savedParts.2 = some saved ∧ AddRefused r.world.add (BitVec.ofInt 32 n) saved := by
      simp [RefusedAfterSaving, hfeature, hfiles, hnumber, hruns, hfound]
    rw [hafter, Untouched, hrun]
    rcases hparts : r.savedParts with ⟨fs, _ | saved⟩
    · refine iff_of_true (fun hrefused => ?_) (by rintro ⟨saved, ⟨⟩, -⟩)
      simp [finishUpload, refuseUpload, Reply.Refused] at hrefused
    · have hsaved : fs ≠ r.world.fileSystem := by
        have hlength := savedParts_length (congrArg Prod.snd hparts)
        have hpos := List.length_pos_iff.mpr hfiles
        rw [hparts] at hlength
        intro heq
        dsimp only at hlength
        rw [heq] at hlength
        omega
      simp only [finishUpload, addUploaded_refused_iff, Option.some.injEq, exists_eq_left', hsaved]
  · refine iff_of_true (fun _ => run_early hreach) ?_
    rintro ⟨hfeature, hfiles, n, hnumber, hruns, hfound, -⟩
    exact hreach ⟨hfeature, hfiles, n, hnumber, hruns, hfound⟩

/-- The playlist is closed while its one part is written. -/
def closedMeanwhile : UploadRequest Unit where
  features := { uploadTracks := true, uploadFolder := ascii "/m" }
  platform := { lexicallyNormal := id, defaultUploadFolder := ascii "/d" }
  groups := [ascii "1"]
  files := [⟨ascii "a.mp3", ascii "a.mp3", ascii "x"⟩]
  world := {
    check := oneTrackMoment
    restore := fun _ => oneTrackMoment
    add := ⟨emptyPlayer, oneTrackMoment.idManager, .noService⟩
    fileSystem := {}
    foldersCreated := true
    writes := fun _ => .written
    renames := fun _ => true }

theorem closed_meanwhile_writes :
    closedMeanwhile.run.2.reply = .http 404 ∧
      closedMeanwhile.run.1.files = [(ascii "/m/a.mp3", ascii "x")] ∧
      ¬closedMeanwhile.Untouched := by
  have hreply : closedMeanwhile.run.2.reply = .http 404 := rfl
  have hfiles : closedMeanwhile.run.1.files = [(ascii "/m/a.mp3", ascii "x")] := by decide +kernel
  refine ⟨hreply, hfiles, ?_⟩
  intro huntouched
  have hsame := huntouched (.inr (.inr hreply))
  rw [hsame] at hfiles
  cases hfiles

end UploadRequest

end RemoteControl
