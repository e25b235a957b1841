import RemoteControl.Upload.UploadTrack

/-!
# When a success reply means that the work was done

* `Task.Sound`: the result of a task's body is an error, or what its one call answered.
* `finish_honest`, `addUploaded_honest`: a command that has come to its task is honest
  exactly when the task is run.
* `honest_iff`: the eight commands.
-/

namespace RemoteControl

variable {ι α : Type}

/-! ## Running a task -/

theorem runOnMainThread_of_runs {initial : α} {moment : Moment ι} {task : Task ι α}
    (h : moment.scheduling.Runs) :
    runOnMainThread initial moment task =
      ⟨(task moment.core moment.idManager).1, true, (task moment.core moment.idManager).2⟩ := by
  unfold runOnMainThread
  cases hscheduling : moment.scheduling with
  | noService | executed answer => rfl
  | refused answer =>
    rw [hscheduling] at h
    exact h.elim

theorem runOnMainThread_of_not_runs {initial : α} {moment : Moment ι} {task : Task ι α}
    (h : ¬moment.scheduling.Runs) : runOnMainThread initial moment task = ⟨initial, false, []⟩ := by
  unfold runOnMainThread
  cases hscheduling : moment.scheduling with
  | noService | executed answer =>
    rw [hscheduling] at h
    exact absurd trivial h
  | refused answer => rfl

theorem failed_eFail : failed eFail = true := by decide

theorem zero_reads_as_success : (0 : HRESULT) ≠ eInvalidArg ∧ ¬failed 0 = true := by decide

/-- The result is an error or what the one call answered. -/
def Task.Sound (task : Task ι HRESULT) : Prop :=
  ∀ core idManager, (task core idManager).1 = eInvalidArg ∨
    failed (task core idManager).1 = true ∨
    ∃ operation, (task core idManager).2 = [⟨operation, (task core idManager).1⟩]

theorem addFilesToPlaylist_sound (playlistId : PluginId) (files : List Bytes) :
    (addFilesToPlaylist playlistId files : Task ι HRESULT).Sound := by
  intro core idManager
  unfold addFilesToPlaylist
  split
  · exact Or.inl rfl
  · split
    · exact Or.inr (Or.inr ⟨_, rfl⟩)
    · exact Or.inr (Or.inl failed_eFail)

theorem renameTask_sound (playlistId : PluginId) (newName : Bytes) :
    (renameTask playlistId newName : Task ι HRESULT).Sound := by
  intro core idManager
  unfold renameTask
  split
  · exact Or.inl rfl
  · split
    · exact Or.inr (Or.inr ⟨_, rfl⟩)
    · exact Or.inr (Or.inl failed_eFail)

theorem removePlaylistTask_sound (playlistId : PluginId) :
    (removePlaylistTask playlistId : Task ι HRESULT).Sound := by
  intro core idManager
  unfold removePlaylistTask
  split
  · exact Or.inl rfl
  · exact Or.inr (Or.inr ⟨_, rfl⟩)

theorem enqueueTask_sound (trackId : PluginId) (atBeginning : Bool) :
    (enqueueTask trackId atBeginning : Task ι HRESULT).Sound := by
  intro core idManager
  unfold enqueueTask
  split
  · exact Or.inl rfl
  · split
    · exact Or.inr (Or.inl failed_eFail)
    · exact Or.inr (Or.inr ⟨_, rfl⟩)

theorem dequeueTask_sound (trackId : PluginId) : (dequeueTask trackId : Task ι HRESULT).Sound := by
  intro core idManager
  unfold dequeueTask
  split
  · exact Or.inl rfl
  · split
    · exact Or.inr (Or.inl failed_eFail)
    · exact Or.inr (Or.inr ⟨_, rfl⟩)

theorem removeTrackTask_sound (trackId : PluginId) (physically : Bool) :
    (removeTrackTask trackId physically : Task ι HRESULT).Sound := by
  intro core idManager
  unfold removeTrackTask
  split
  · exact Or.inl rfl
  · split <;> exact Or.inr (Or.inr ⟨_, rfl⟩)

theorem Task.Sound.call_of_success {task : Task ι HRESULT} (h : task.Sound) {core : Core ι}
    {idManager : RemoteControlIdManager} (harg : (task core idManager).1 ≠ eInvalidArg)
    (hfail : ¬failed (task core idManager).1 = true) :
    ∃ call, (task core idManager).2 = [call] ∧ succeeded call.answer = true := by
  obtain ⟨operation, hcalls⟩ := ((h core idManager).resolve_left harg).resolve_left hfail
  exact ⟨_, hcalls, (not_failed_iff _).mp (Bool.not_eq_true _ ▸ hfail)⟩

/-! ## Commands that have come to their task -/

section

variable {moment : Moment ι}

theorem refuse_honest (failure : Failure) : (refuse failure : Outcome ι).Honest :=
  fun h => h.elim

theorem refuseUpload_honest {status : Int} (h : status ≠ 200) :
    (refuseUpload status : Outcome ι).Honest :=
  fun hstatus => absurd hstatus h

/-- A task that is not run leaves `S_OK`, which reads as success. -/
theorem finish_honest {notFound operationFailed : Failure} {result : Json}
    {task : Task ι HRESULT} (h : task.Sound) :
    (finish notFound operationFailed result moment task).Honest ↔ moment.scheduling.Runs := by
  by_cases hruns : moment.scheduling.Runs
  · refine iff_of_true (fun hsuccess => ?_) hruns
    simp only [finish, runOnMainThread_of_runs hruns] at hsuccess ⊢
    split at hsuccess
    · exact hsuccess.elim
    · split at hsuccess
      · exact hsuccess.elim
      · next harg hfail => exact ⟨trivial, h.call_of_success harg hfail⟩
  · refine iff_of_false (fun hhonest => ?_) hruns
    simp only [finish, runOnMainThread_of_not_runs hruns, if_neg zero_reads_as_success.1,
      if_neg zero_reads_as_success.2] at hhonest
    cases (hhonest trivial).1

theorem addUploaded_honest (playlistId : PluginId) (saved : List Bytes) :
    (addUploaded moment playlistId saved).Honest ↔ moment.scheduling.Runs := by
  by_cases hruns : moment.scheduling.Runs
  · refine iff_of_true (fun hsuccess => ?_) hruns
    simp only [addUploaded, runOnMainThread_of_runs hruns, Reply.IsSuccess] at hsuccess ⊢
    split at hsuccess
    · cases hsuccess
    · split at hsuccess
      · cases hsuccess
      · next harg hfail =>
        exact ⟨trivial, (addFilesToPlaylist_sound playlistId saved).call_of_success harg hfail⟩
  · refine iff_of_false (fun hhonest => ?_) hruns
    simp only [addUploaded, runOnMainThread_of_not_runs hruns, if_neg zero_reads_as_success.1,
      if_neg zero_reads_as_success.2] at hhonest
    cases (hhonest rfl).1

theorem finishUpload_honest (playlistId : PluginId) (saved : FileSystem × Option (List Bytes)) :
    (finishUpload moment playlistId saved).2.Honest ↔
      (saved.2.isSome = true → moment.scheduling.Runs) := by
  obtain ⟨fs, saved⟩ := saved
  cases saved with
  | none => simp [finishUpload, refuseUpload_honest]
  | some saved => simp [finishUpload, addUploaded_honest]

end

theorem saveParts_isSome_iff {world : UploadWorld ι} {folder : Bytes} {i : Nat}
    {fs : FileSystem} {files : List HttpUploadedFile} :
    (saveParts world folder i fs files).2.isSome = true ↔
      ∀ j < files.length, (world.writes (i + j)).good = true := by
  induction files generalizing i fs with
  | nil => simp [saveParts]
  | cons file files ih =>
    have hcons : (∀ j < (file :: files).length, (world.writes (i + j)).good = true) ↔
        (world.writes i).good = true ∧
          ∀ j < files.length, (world.writes (i + 1 + j)).good = true := by
      rw [List.length_cons, Nat.forall_lt_succ_left]
      simp only [Nat.add_zero, Nat.add_assoc, Nat.add_comm 1]
    rw [hcons]
    unfold saveParts writeFile
    cases hgood : (world.writes i).good with
    | false => simp
    | true => simp [ih]

/-! ## The eight commands -/

/-- A request to one of the commands, with what it meets. -/
inductive Mutation (ι : Type)
  | addFiles (moment : Moment ι) (params : Json)
  | addURLToPlaylist (moment : Moment ι) (params : Json)
  | playlistRename (moment : Moment ι) (params : Json)
  | playlistRemove (moment : Moment ι) (params : Json)
  | enqueueTrack (moment : Moment ι) (params : Json)
  | removeTrackFromPlayQueue (moment : Moment ι) (params : Json)
  | removeTrack (physicalDeletion : Bool) (moment : Moment ι) (params : Json)
  | uploadTrack (features : FeatureSettings) (platform : Platform) (groups : List Bytes)
      (files : List HttpUploadedFile) (world : UploadWorld ι)

namespace Mutation

def outcome : Mutation ι → Outcome ι
  | .addFiles moment params => RemoteControl.addFiles moment params
  | .addURLToPlaylist moment params => RemoteControl.addURLToPlaylist moment params
  | .playlistRename moment params => RemoteControl.playlistRename moment params
  | .playlistRemove moment params => RemoteControl.playlistRemove moment params
  | .enqueueTrack moment params => RemoteControl.enqueueTrack moment params
  | .removeTrackFromPlayQueue moment params =>
    RemoteControl.removeTrackFromPlayQueue moment params
  | .removeTrack physicalDeletion moment params =>
    RemoteControl.removeTrack physicalDeletion moment params
  | .uploadTrack features platform groups files world =>
    (RemoteControl.uploadTrack features platform groups files world).2

/-- What becomes of the task that does the work, where the request comes to it. -/
def scheduling : Mutation ι → Scheduling
  | .addFiles moment _ | .addURLToPlaylist moment _ | .playlistRename moment _
  | .playlistRemove moment _ | .enqueueTrack moment _ | .removeTrackFromPlayQueue moment _
  | .removeTrack _ moment _ => moment.scheduling
  | .uploadTrack _ _ _ _ world => world.add.scheduling

/-- Nothing stands between the request and the task that does the work. -/
def ReachesTask : Mutation ι → Prop
  | .addFiles _ params => (params.int32 (ascii "playlist_id")).isSome ∧
      ((params.array (ascii "files")).bind Json.strings).isSome
  | .addURLToPlaylist _ params => (params.int32 (ascii "playlist_id")).isSome ∧
      (params.string (ascii "url")).isSome
  | .playlistRename _ params => (params.int32 (ascii "playlist_id")).isSome ∧
      (params.string (ascii "new_name")).isSome
  | .playlistRemove _ params => (params.int32 (ascii "playlist_id")).isSome
  | .enqueueTrack _ params => (params.int32 (ascii "track_id")).isSome ∧
      (params.boolValue (ascii "insert_at_queue_beginning") false).isSome
  | .removeTrackFromPlayQueue _ params => (params.int32 (ascii "track_id")).isSome
  | .removeTrack physicalDeletion _ params => (params.int32 (ascii "track_id")).isSome ∧
      ∃ physically, params.boolValue (ascii "physically") false = some physically ∧
        (physically = true → physicalDeletion = true)
  | .uploadTrack features _ groups files world => features.uploadTracks = true ∧ files ≠ [] ∧
      ∃ n, groups.head?.bind stoll = some n ∧ world.check.scheduling.Runs ∧
        (findPlaylist world.check.core world.check.idManager (BitVec.ofInt 32 n)).isSome ∧
        ∀ i < files.length, (world.writes i).good = true

theorem addFiles_honest (moment : Moment ι) (params : Json) :
    (addFiles moment params).outcome.Honest ↔
      ((addFiles moment params).ReachesTask → moment.scheduling.Runs) := by
  simp only [outcome, ReachesTask, RemoteControl.addFiles]
  cases params.int32 (ascii "playlist_id") with
  | none => simp [refuse_honest]
  | some playlistId =>
    cases params.array (ascii "files") with
    | none => simp [refuse_honest]
    | some files =>
      cases hstrings : Json.strings files with
      | none => simp [refuse_honest, hstrings]
      | some files => simp [finish_honest (addFilesToPlaylist_sound playlistId files), hstrings]

theorem enqueueTrack_honest (moment : Moment ι) (params : Json) :
    (enqueueTrack moment params).outcome.Honest ↔
      ((enqueueTrack moment params).ReachesTask → moment.scheduling.Runs) := by
  simp only [outcome, ReachesTask, RemoteControl.enqueueTrack]
  cases params.int32 (ascii "track_id") with
  | none => simp [refuse_honest]
  | some trackId =>
    cases params.boolValue (ascii "insert_at_queue_beginning") false with
    | none => simp [refuse_honest]
    | some atBeginning => simp [finish_honest (enqueueTask_sound trackId atBeginning)]

theorem removeTrack_honest (physicalDeletion : Bool) (moment : Moment ι) (params : Json) :
    (removeTrack physicalDeletion moment params).outcome.Honest ↔
      ((removeTrack physicalDeletion moment params).ReachesTask → moment.scheduling.Runs) := by
  simp only [outcome, ReachesTask, RemoteControl.removeTrack]
  cases params.int32 (ascii "track_id") with
  | none => simp [refuse_honest]
  | some trackId =>
    cases params.boolValue (ascii "physically") false with
    | none => simp [refuse_honest]
    | some physically =>
      by_cases hforbidden : physically ∧ physicalDeletion = false
      · simp [hforbidden, refuse_honest]
      · have hallowed : physically = true → physicalDeletion = true := by simpa using hforbidden
        simp only [if_neg hforbidden, finish_honest (removeTrackTask_sound trackId physically)]
        exact ⟨fun h _ => h, fun h => h ⟨rfl, physically, rfl, hallowed⟩⟩

theorem uploadTrack_honest (features : FeatureSettings) (platform : Platform)
    (groups : List Bytes) (files : List HttpUploadedFile) (world : UploadWorld ι) :
    (uploadTrack features platform groups files world).outcome.Honest ↔
      ((uploadTrack features platform groups files world).ReachesTask →
        world.add.scheduling.Runs) := by
  simp only [outcome, ReachesTask, RemoteControl.uploadTrack]
  by_cases hupload : features.uploadTracks = false
  · simp [hupload, refuseUpload_honest]
  cases groups with
  | nil => simp [hupload, refuseUpload_honest]
  | cons number groups =>
    by_cases hfiles : files = []
    · simp [hupload, hfiles, refuseUpload_honest]
    cases hnumber : stoll number with
    | none => simp [hupload, hfiles, hnumber, refuseUpload_honest]
    | some n =>
      by_cases hcheck : world.check.scheduling.Runs
      · cases hfind : (findPlaylist world.check.core world.check.idManager
            (BitVec.ofInt 32 n)).isSome with
        | false =>
          simp [hupload, hfiles, hnumber, runOnMainThread_of_runs hcheck, playlistExists, hfind,
            refuseUpload_honest]
        | true =>
          simp [hupload, hfiles, hnumber, runOnMainThread_of_runs hcheck, playlistExists, hfind,
            hcheck, finishUpload_honest, saveParts_isSome_iff]
      · simp [hupload, hfiles, hnumber, runOnMainThread_of_not_runs hcheck, hcheck,
          refuseUpload_honest]

/-- A command is honest exactly when its task is run, if it comes to that. -/
theorem honest_iff (m : Mutation ι) : m.outcome.Honest ↔ (m.ReachesTask → m.scheduling.Runs) := by
  cases m with
  | addFiles moment params => exact addFiles_honest moment params
  | addURLToPlaylist moment params =>
    simp only [outcome, scheduling, ReachesTask, RemoteControl.addURLToPlaylist]
    cases params.int32 (ascii "playlist_id") with
    | none => simp [refuse_honest]
    | some playlistId =>
      cases params.string (ascii "url") with
      | none => simp [refuse_honest]
      | some url => simp [finish_honest (addFilesToPlaylist_sound playlistId [url])]
  | playlistRename moment params =>
    simp only [outcome, scheduling, ReachesTask, RemoteControl.playlistRename]
    cases params.int32 (ascii "playlist_id") with
    | none => simp [refuse_honest]
    | some playlistId =>
      cases params.string (ascii "new_name") with
      | none => simp [refuse_honest]
      | some newName => simp [finish_honest (renameTask_sound playlistId newName)]
  | playlistRemove moment params =>
    simp only [outcome, scheduling, ReachesTask, RemoteControl.playlistRemove]
    cases params.int32 (ascii "playlist_id") with
    | none => simp [refuse_honest]
    | some playlistId => simp [finish_honest (removePlaylistTask_sound playlistId)]
  | enqueueTrack moment params => exact enqueueTrack_honest moment params
  | removeTrackFromPlayQueue moment params =>
    simp only [outcome, scheduling, ReachesTask, RemoteControl.removeTrackFromPlayQueue]
    cases params.int32 (ascii "track_id") with
    | none => simp [refuse_honest]
    | some trackId => simp [finish_honest (dequeueTask_sound trackId)]
  | removeTrack physicalDeletion moment params =>
    exact removeTrack_honest physicalDeletion moment params
  | uploadTrack features platform groups files world =>
    exact uploadTrack_honest features platform groups files world

end Mutation

/-! ## A task that is not run -/

/-- A player with nothing loaded. -/
def emptyPlayer : Core Unit where
  playlistManager := none
  playlistQueue := none
  player := none
  createString _ := true
  createObjectList := true
  fileUriService := none
  messageProperty _ := none
  find _ _ := none
  itemIndex _ := none
  itemPlaylist _ := none
  itemFileInfo _ := none
  itemFileName _ := none
  itemMark _ := none
  itemPlayingSwitch _ := none

def onlyPlaylist : Playlist Unit where
  hasProperties := true
  id := ascii "P"
  name := []
  readonly := none
  focusedObject := none
  playbackCursor := none
  items := [some ()]
  files := none
  setName _ := sOk
  addList _ := sOk
  close := sOk
  delete _ := sOk
  delete3 _ := sOk

/-- A player with one playlist that has one track. -/
def oneTrackPlayer : Core Unit :=
  { emptyPlayer with
    playlistManager := some {
      loaded := [some onlyPlaylist]
      getLoadedPlaylistByID := fun id => if id = ascii "P" then some onlyPlaylist else none
      playingPlaylist := none
      activePlaylist := none
      createPlaylist := fun _ => none } }

/-- The playlist has the id 1. -/
def oneTrackMoment : Moment Unit where
  core := oneTrackPlayer
  idManager := { RemoteControlIdManager.empty with playlists := BiMap.empty.insert (ascii "P") 1 }
  scheduling := .noService

/-- `ExecuteInMainThread` answers `E_FAIL` and does not run the task. -/
def refusingMoment : Moment Unit := ⟨emptyPlayer, .empty, .refused eFail⟩

def removeRequest : Json := .obj [(ascii "playlist_id", .int 7)]

/-- `PlaylistRemove` of a playlist that does not exist answers success. -/
theorem refused_task_reported_done :
    ¬(Mutation.playlistRemove refusingMoment removeRequest).outcome.Honest := by
  have hid : removeRequest.int32 (ascii "playlist_id") = some 7 := by decide
  simp only [Mutation.outcome, playlistRemove, hid,
    finish_honest (removePlaylistTask_sound 7)]
  exact id

end RemoteControl
