import RemoteControl.Commands.IdCommands

/-!
# The codes of failed changes

Seven commands run a task whose `HRESULT` is `E_INVALIDARG` where the id was not found and
the player's own answer where it was. `finish` tells the two apart by the value alone.

* `RpcCommand.answer`: the player's answer, for an id that resolves.
* `finish_classifies_iff`: what `finish` makes of it.
* `failures_classified_iff`: the seven commands.
-/

namespace RemoteControl

variable {ι : Type}

/-! ## How a command ends -/

section Finish

variable {notFound operationFailed : Int} {message message' : Bytes} {result : Json}
  {moment : Moment ι} {task : Task ι HRESULT} {answer : Option HRESULT}

theorem finish_of_runs (failure failure' : Failure) (hruns : moment.scheduling.Runs) :
    (finish failure failure' result moment task).reply =
      .rpc (if (task moment.core moment.idManager).1 = eInvalidArg then .error failure
        else if failed (task moment.core moment.idManager).1 then .error failure'
        else .ok result) := by
  rw [finish, runOnMainThread_of_runs hruns]

theorem finish_of_not_runs (failure failure' : Failure) (hruns : ¬moment.scheduling.Runs) :
    (finish failure failure' result moment task).reply = .rpc (.ok result) := by
  rw [finish, runOnMainThread_of_not_runs hruns]
  dsimp only
  rw [if_neg zero_reads_as_success.1, if_neg zero_reads_as_success.2]

theorem finish_notFound_iff (hcodes : notFound ≠ operationFailed) (hruns : moment.scheduling.Runs) :
    (finish (.rpcError notFound message) (.rpcError operationFailed message') result moment
        task).reply.Fails notFound ↔ (task moment.core moment.idManager).1 = eInvalidArg := by
  rw [finish_of_runs _ _ hruns]
  split
  · next harg => exact iff_of_true rfl harg
  · next harg =>
    split
    · exact iff_of_false hcodes.symm harg
    · exact iff_of_false id harg

theorem finish_operationFailed_iff (hcodes : notFound ≠ operationFailed)
    (hruns : moment.scheduling.Runs) :
    (finish (.rpcError notFound message) (.rpcError operationFailed message') result moment
        task).reply.Fails operationFailed ↔
      (task moment.core moment.idManager).1 ≠ eInvalidArg ∧
        failed (task moment.core moment.idManager).1 = true := by
  rw [finish_of_runs _ _ hruns]
  split
  · next harg => exact iff_of_false hcodes fun h => h.1 harg
  · next harg =>
    split
    · next hfailed => exact iff_of_true rfl ⟨harg, hfailed⟩
    · next hfailed => exact iff_of_false id fun h => hfailed h.2

/-- The codes are right unless the player itself answers `E_INVALIDARG`, or the task is not
run, which reads as success. -/
theorem finish_classifies_iff (hcodes : notFound ≠ operationFailed)
    (htask : (task moment.core moment.idManager).1 = answer.getD eInvalidArg) :
    ((finish (.rpcError notFound message) (.rpcError operationFailed message') result moment
          task).reply.Fails notFound ↔ answer = none) ∧
      ((finish (.rpcError notFound message) (.rpcError operationFailed message') result moment
          task).reply.Fails operationFailed ↔ ∃ hr, answer = some hr ∧ failed hr = true) ↔
    (moment.scheduling.Runs → answer ≠ some eInvalidArg) ∧
      (¬moment.scheduling.Runs → ∃ hr, answer = some hr ∧ succeeded hr = true) := by
  by_cases hruns : moment.scheduling.Runs
  · rw [finish_notFound_iff hcodes hruns, finish_operationFailed_iff hcodes hruns, htask,
      forall_prop_of_true hruns, and_iff_left fun h => absurd hruns h]
    cases answer with
    | none => simp
    | some hr =>
      have harg : failed eInvalidArg = true := by decide
      by_cases h : hr = eInvalidArg <;> simp [h, harg]
  · rw [finish_of_not_runs _ _ hruns, forall_prop_of_true hruns,
      and_iff_right fun h => absurd h hruns]
    cases answer with
    | none => simp [Reply.Fails]
    | some hr => simp [Reply.Fails]

end Finish

/-! ## What the player answers -/

def addListAnswer (core : Core ι) (files : List Bytes) (playlist : Playlist ι) : HRESULT :=
  if core.createObjectList then
    playlist.addList (files.filter fun uri => core.createString uri && core.objectListAdd uri)
  else eFail

def setNameAnswer (core : Core ι) (newName : Bytes) (playlist : Playlist ι) : HRESULT :=
  if playlist.hasProperties ∧ core.createString newName then playlist.setName newName else eFail

def enqueueAnswer (core : Core ι) (atBeginning : Bool) (item : ι) : HRESULT :=
  match core.playlistQueue with
  | none => eFail
  | some queue => queue.add item atBeginning

def dequeueAnswer (core : Core ι) (item : ι) : HRESULT :=
  match core.playlistQueue with
  | none => eFail
  | some queue => queue.delete item

def removeAnswer (core : Core ι) (physically : Bool) (track : ι × Playlist ι) : HRESULT :=
  if physically then track.2.delete3 (deleteOnlyIndex core (readIndex core track.1))
  else track.2.delete track.1

section Answers

variable {core : Core ι} {idManager : RemoteControlIdManager} {id : PluginId}

theorem addFilesToPlaylist_answer (files : List Bytes) :
    (addFilesToPlaylist id files core idManager).1 =
      ((findPlaylist core idManager id).map (addListAnswer core files)).getD eInvalidArg := by
  unfold addFilesToPlaylist
  cases findPlaylist core idManager id with
  | none => rfl
  | some playlist =>
    dsimp only [Option.map_some, Option.getD_some, addListAnswer]
    split <;> rfl

theorem renameTask_answer (newName : Bytes) :
    (renameTask id newName core idManager).1 =
      ((findPlaylist core idManager id).map (setNameAnswer core newName)).getD eInvalidArg := by
  unfold renameTask
  cases findPlaylist core idManager id with
  | none => rfl
  | some playlist =>
    dsimp only [Option.map_some, Option.getD_some, setNameAnswer]
    split <;> rfl

theorem removePlaylistTask_answer :
    (removePlaylistTask id core idManager).1 =
      ((findPlaylist core idManager id).map Playlist.close).getD eInvalidArg := by
  unfold removePlaylistTask
  cases findPlaylist core idManager id with
  | none => rfl
  | some playlist => rfl

theorem enqueueTask_answer (atBeginning : Bool) :
    (enqueueTask id atBeginning core idManager).1 =
      ((findPlaylistItem core idManager id).map fun track =>
        enqueueAnswer core atBeginning track.1).getD eInvalidArg := by
  unfold enqueueTask
  cases findPlaylistItem core idManager id with
  | none => rfl
  | some track =>
    dsimp only [Option.map_some, Option.getD_some, enqueueAnswer]
    cases core.playlistQueue with
    | none => rfl
    | some queue => rfl

theorem dequeueTask_answer :
    (dequeueTask id core idManager).1 =
      ((findPlaylistItem core idManager id).map fun track =>
        dequeueAnswer core track.1).getD eInvalidArg := by
  unfold dequeueTask
  cases findPlaylistItem core idManager id with
  | none => rfl
  | some track =>
    dsimp only [Option.map_some, Option.getD_some, dequeueAnswer]
    cases core.playlistQueue with
    | none => rfl
    | some queue => rfl

theorem removeTrackTask_answer (physically : Bool) :
    (removeTrackTask id physically core idManager).1 =
      ((findPlaylistItem core idManager id).map (removeAnswer core physically)).getD
        eInvalidArg := by
  unfold removeTrackTask
  cases findPlaylistItem core idManager id with
  | none => rfl
  | some track =>
    dsimp only [Option.map_some, Option.getD_some, removeAnswer]
    split <;> rfl

end Answers

/-! ## The seven commands -/

namespace RpcCommand

/-- The command's own code, for the commands that end in `finish`. -/
def operationCode : RpcCommand ι → Option Int
  | addFiles | addURLToPlaylist => some 27
  | playlistRename => some 29
  | playlistRemove => some 31
  | enqueueTrack => some 18
  | removeTrackFromPlayQueue => some 19
  | removeTrack _ => some 28
  | _ => none

/-- The parameters besides the id are as the command wants them. -/
def WellFormed (c : RpcCommand ι) (params : Json) : Prop :=
  match c with
  | removeTrack _ => (params.boolValue (ascii "physically") false).isSome
  | c => c.Reaches params

/-- The files are to be deleted and the settings do not allow it. -/
def Forbids (c : RpcCommand ι) (params : Json) : Prop :=
  match c with
  | removeTrack physicalDeletion =>
    params.boolValue (ascii "physically") false = some true ∧ physicalDeletion = false
  | _ => False

/-- What the player answers to the operation, for an id that resolves. -/
def answer (c : RpcCommand ι) (scene : Scene ι) (params : Json) (id : PluginId) :
    Option HRESULT :=
  let core := scene.core
  let playlist := findPlaylist core scene.session.manager id
  let track := findPlaylistItem core scene.session.manager id
  match c with
  | addFiles =>
    playlist.map (addListAnswer core (((params.array (ascii "files")).bind Json.strings).getD []))
  | addURLToPlaylist =>
    playlist.map (addListAnswer core [(params.string (ascii "url")).getD []])
  | playlistRename =>
    playlist.map (setNameAnswer core ((params.string (ascii "new_name")).getD []))
  | playlistRemove => playlist.map Playlist.close
  | enqueueTrack =>
    track.map fun track => enqueueAnswer core
      ((params.boolValue (ascii "insert_at_queue_beginning") false).getD false) track.1
  | removeTrackFromPlayQueue => track.map fun track => dequeueAnswer core track.1
  | removeTrack _ =>
    track.map (removeAnswer core ((params.boolValue (ascii "physically") false).getD false))
  | _ => none

def FailsWith (c : RpcCommand ι) (scene : Scene ι) (params : Json) (code : Int) : Prop :=
  ∃ outcome, c.run scene params = some outcome ∧ outcome.reply.Fails code

/-- The not-found code is for the ids that do not resolve and the command's own code for
the operations that fail; a deletion that is not allowed is one of these. -/
structure Classifies (c : RpcCommand ι) (scene : Scene ι) (params : Json) (id : PluginId)
    (code : Int) : Prop where
  notFound : ¬c.Forbids params → (c.FailsWith scene params c.notFoundCode ↔ ¬c.Names scene id)
  failed : c.FailsWith scene params code ↔
    c.Forbids params ∨ ∃ hr, c.answer scene params id = some hr ∧ failed hr = true

section Classified

variable {c : RpcCommand ι} {scene : Scene ι} {params : Json} {id : PluginId} {code : Int}

/-- The player does not answer `E_INVALIDARG` itself; and a task that is not run, which is
reported as done, would have been. -/
def Unambiguous (c : RpcCommand ι) (scene : Scene ι) (params : Json) (id : PluginId) : Prop :=
  (scene.scheduling.Runs → c.answer scene params id ≠ some eInvalidArg) ∧
    (¬scene.scheduling.Runs → ∃ hr, c.answer scene params id = some hr ∧ succeeded hr = true)

/-- For a command that has come to its task. -/
theorem classifies_iff_of_finish {task : Task ι HRESULT} {answer : Option HRESULT}
    (hanswer : c.answer scene params id = answer)
    (htask : (task scene.core scene.session.manager).1 = answer.getD eInvalidArg)
    (hnames : answer = none ↔ ¬c.Names scene id)
    (hrun : ∃ message message' result, c.run scene params = some (finish
      (.rpcError c.notFoundCode message) (.rpcError code message') result scene.moment task))
    (hforbids : ¬c.Forbids params) (hcodes : c.notFoundCode ≠ code) :
    c.Classifies scene params id code ↔ c.Forbids params ∨ c.Unambiguous scene params id := by
  subst hanswer
  obtain ⟨message, message', result, hrun⟩ := hrun
  have hfails : ∀ code', c.FailsWith scene params code' ↔
      (finish (.rpcError c.notFoundCode message) (.rpcError code message') result scene.moment
        task).reply.Fails code' := by
    intro code'
    rw [FailsWith, hrun]
    simp
  have hfinish := @finish_classifies_iff ι c.notFoundCode code message message' result
    scene.moment task _ hcodes htask
  rw [← hfails, ← hfails, hnames] at hfinish
  rw [or_iff_right hforbids]
  refine Iff.trans ?_ hfinish
  constructor
  · intro h
    exact ⟨h.notFound hforbids, h.failed.trans (or_iff_right hforbids)⟩
  · intro ⟨hnotFound, hfailed⟩
    exact ⟨fun _ => hnotFound, hfailed.trans (or_iff_right hforbids).symm⟩

theorem playlist_names_iff {β : Type} {core : Core ι} {idManager : RemoteControlIdManager}
    (f : Playlist ι → β) :
    (findPlaylist core idManager id).map f = none ↔ ¬PlaylistFound id core idManager := by
  rw [Option.map_eq_none_iff, PlaylistFound, Option.not_isSome_iff_eq_none]

theorem track_names_iff {β : Type} {core : Core ι} {idManager : RemoteControlIdManager}
    (f : ι × Playlist ι → β) :
    (findPlaylistItem core idManager id).map f = none ↔ ¬TrackFound id core idManager := by
  rw [Option.map_eq_none_iff, TrackFound, Option.not_isSome_iff_eq_none]

theorem playlistRename_classifies_iff (hid : params.int32 (ascii "playlist_id") = some id)
    (hparams : (params.string (ascii "new_name")).isSome = true) :
    (playlistRename : RpcCommand ι).Classifies scene params id 29 ↔
      (playlistRename : RpcCommand ι).Forbids params ∨
        playlistRename.Unambiguous scene params id := by
  obtain ⟨newName, hname⟩ := Option.isSome_iff_exists.1 hparams
  have hanswer : playlistRename.answer scene params id =
      (findPlaylist scene.core scene.session.manager id).map
        (setNameAnswer scene.core newName) := by
    simp only [answer, hname, Option.getD_some]
  refine classifies_iff_of_finish hanswer (renameTask_answer newName)
    (playlist_names_iff _) ?_ (fun h => h) (show (20 : Int) ≠ 29 by decide)
  simp only [run, RemoteControl.playlistRename, hid, hname]
  exact ⟨_, _, _, rfl⟩

theorem removeTrack_classifies_iff {physicalDeletion : Bool}
    (hid : params.int32 (ascii "track_id") = some id)
    (hparams : (params.boolValue (ascii "physically") false).isSome = true) :
    (removeTrack physicalDeletion : RpcCommand ι).Classifies scene params id 28 ↔
      (removeTrack physicalDeletion : RpcCommand ι).Forbids params ∨
        (removeTrack physicalDeletion).Unambiguous scene params id := by
  obtain ⟨physically, hphysically⟩ := Option.isSome_iff_exists.1 hparams
  by_cases hforbids : physically = true ∧ physicalDeletion = false
  · have hrun : ∃ message, (removeTrack physicalDeletion : RpcCommand ι).run scene params =
        some (refuse (rpcError 28 message)) := by
      simp only [run, RemoteControl.removeTrack, hid, hphysically, if_pos hforbids]
      exact ⟨_, rfl⟩
    have hnot : (removeTrack physicalDeletion : RpcCommand ι).Forbids params :=
      ⟨hphysically.trans (congrArg some hforbids.1), hforbids.2⟩
    obtain ⟨message, hrun⟩ := hrun
    refine iff_of_true ⟨fun h => absurd hnot h, iff_of_true ⟨_, hrun, rfl⟩ (.inl hnot)⟩ (.inl hnot)
  · have hanswer : (removeTrack physicalDeletion).answer scene params id =
        (findPlaylistItem scene.core scene.session.manager id).map
          (removeAnswer scene.core physically) := by
      simp only [answer, hphysically, Option.getD_some]
    refine classifies_iff_of_finish hanswer (removeTrackTask_answer physically)
      (track_names_iff _) ?_
      (fun h => hforbids ⟨Option.some.inj (hphysically.symm.trans h.1), h.2⟩)
      (show (21 : Int) ≠ 28 by decide)
    simp only [run, RemoteControl.removeTrack, hid, hphysically, if_neg hforbids]
    exact ⟨_, _, _, rfl⟩

/-- **The codes of failed changes** are right unless the player answers `E_INVALIDARG`, or
the task is not run and would not have succeeded. -/
theorem failures_classified_iff (hcode : c.operationCode = some code)
    (hid : params.int32 c.key = some id) (hparams : c.WellFormed params) :
    c.Classifies scene params id code ↔ c.Forbids params ∨ c.Unambiguous scene params id := by
  cases c with
  | addFiles =>
    cases hcode
    simp only [key] at hid
    obtain ⟨files, hfiles⟩ := Option.isSome_iff_exists.1 hparams
    obtain ⟨array, harray, hstrings⟩ := Option.bind_eq_some_iff.1 hfiles
    have hanswer : addFiles.answer scene params id =
        (findPlaylist scene.core scene.session.manager id).map
          (addListAnswer scene.core files) := by
      simp only [answer, hfiles, Option.getD_some]
    refine classifies_iff_of_finish hanswer (addFilesToPlaylist_answer files)
      (playlist_names_iff _) ?_ (fun h => h) (show (20 : Int) ≠ 27 by decide)
    simp only [run, RemoteControl.addFiles, hid, harray, hstrings]
    exact ⟨_, _, _, rfl⟩
  | addURLToPlaylist =>
    cases hcode
    simp only [key] at hid
    obtain ⟨url, hurl⟩ := Option.isSome_iff_exists.1 hparams
    have hanswer : addURLToPlaylist.answer scene params id =
        (findPlaylist scene.core scene.session.manager id).map
          (addListAnswer scene.core [url]) := by
      simp only [answer, hurl, Option.getD_some]
    refine classifies_iff_of_finish hanswer (addFilesToPlaylist_answer [url])
      (playlist_names_iff _) ?_ (fun h => h) (show (20 : Int) ≠ 27 by decide)
    simp only [run, RemoteControl.addURLToPlaylist, hid, hurl]
    exact ⟨_, _, _, rfl⟩
  | playlistRename =>
    cases hcode
    exact playlistRename_classifies_iff hid hparams
  | playlistRemove =>
    cases hcode
    simp only [key] at hid
    refine classifies_iff_of_finish rfl removePlaylistTask_answer
      (playlist_names_iff _) ?_ (fun h => h) (show (20 : Int) ≠ 31 by decide)
    simp only [run, RemoteControl.playlistRemove, hid]
    exact ⟨_, _, _, rfl⟩
  | enqueueTrack =>
    cases hcode
    simp only [key] at hid
    obtain ⟨atBeginning, hplace⟩ := Option.isSome_iff_exists.1 hparams
    have hanswer : enqueueTrack.answer scene params id =
        (findPlaylistItem scene.core scene.session.manager id).map fun track =>
          enqueueAnswer scene.core atBeginning track.1 := by
      simp only [answer, hplace, Option.getD_some]
    refine classifies_iff_of_finish hanswer (enqueueTask_answer atBeginning)
      (track_names_iff _) ?_ (fun h => h) (show (21 : Int) ≠ 18 by decide)
    simp only [run, RemoteControl.enqueueTrack, hid, hplace]
    exact ⟨_, _, _, rfl⟩
  | removeTrackFromPlayQueue =>
    cases hcode
    simp only [key] at hid
    refine classifies_iff_of_finish rfl dequeueTask_answer
      (track_names_iff _) ?_ (fun h => h) (show (21 : Int) ≠ 19 by decide)
    simp only [run, RemoteControl.removeTrackFromPlayQueue, hid]
    exact ⟨_, _, _, rfl⟩
  | removeTrack physicalDeletion =>
    cases hcode
    exact removeTrack_classifies_iff hid hparams
  | _ => cases hcode

end Classified

/-! ## A playlist that is not renamed -/

/-- A player with one playlist, which answers so to a new name. -/
def renamingPlayer (answer : HRESULT) : Core Unit :=
  let playlist := { onlyPlaylist with setName := fun _ => answer }
  { emptyPlayer with
    playlistManager := some {
      loaded := [some playlist]
      getLoadedPlaylistByID := fun id => if id = ascii "P" then some playlist else none
      playingPlaylist := none
      activePlaylist := none
      createPlaylist := fun _ => none } }

def renameRequest (id : PluginId) : Json :=
  .obj [(ascii "playlist_id", .int id.toInt), (ascii "new_name", .str [])]

theorem renameRequest_int32 (id : PluginId) :
    (renameRequest id).int32 (playlistRename : RpcCommand Unit).key = some id :=
  congrArg some (BitVec.ofInt_toInt)

theorem onlyPlaylist_issued :
    ∃ id session, playlistId (ascii "P") .empty = some (id, session) := by
  obtain ⟨⟨id, session⟩, hissued⟩ : ∃ issued, playlistId (ascii "P") .empty = some issued :=
    Option.isSome_iff_exists.1 (by decide +kernel)
  exact ⟨id, session, hissued⟩

theorem renaming_answer {id : PluginId} {session : IdSession}
    (hissued : playlistId (ascii "P") .empty = some (id, session)) (hr : HRESULT) :
    playlistRename.answer ⟨renamingPlayer hr, session, .noService⟩ (renameRequest id) id =
      some hr := by
  have hkey := IdSession.playlistGetKey_of_issued (playlistId_grows (ascii "P") _ _ _ hissued).2
  simp only [answer, findPlaylist, hkey]
  rfl

/-- A name the player finds invalid is reported as a playlist that does not exist. -/
theorem invalid_name_reported_not_found : ∃ id session,
    playlistId (ascii "P") .empty = some (id, session) ∧
      playlistRename.Names ⟨renamingPlayer eInvalidArg, session, .noService⟩ id ∧
      ¬playlistRename.Classifies ⟨renamingPlayer eInvalidArg, session, .noService⟩
        (renameRequest id) id 29 := by
  obtain ⟨id, session, hissued⟩ := onlyPlaylist_issued
  have hnames : playlistRename.Names ⟨renamingPlayer eInvalidArg, session, .noService⟩ id := by
    have hkey := IdSession.playlistGetKey_of_issued (playlistId_grows (ascii "P") _ _ _ hissued).2
    simp only [Names, PlaylistFound, findPlaylist, hkey]
    rfl
  refine ⟨id, session, hissued, hnames, ?_⟩
  intro h
  rcases (playlistRename_classifies_iff (renameRequest_int32 id) rfl).1 h with hforbids | hanswer
  · exact hforbids
  · exact hanswer.1 trivial (renaming_answer hissued eInvalidArg)

theorem failed_name_classified : ∃ id session,
    playlistId (ascii "P") .empty = some (id, session) ∧
      playlistRename.Classifies ⟨renamingPlayer eFail, session, .noService⟩
        (renameRequest id) id 29 := by
  obtain ⟨id, session, hissued⟩ := onlyPlaylist_issued
  have hambiguous : playlistRename.Unambiguous ⟨renamingPlayer eFail, session, .noService⟩
      (renameRequest id) id := by
    rw [Unambiguous, renaming_answer hissued]
    exact ⟨fun _ => by decide, fun h => absurd trivial h⟩
  exact ⟨id, session, hissued, (failures_classified_iff rfl (renameRequest_int32 id)
    rfl).2 (.inr hambiguous)⟩

end RpcCommand

end RemoteControl
