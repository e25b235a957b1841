import RemoteControl.Commands.IdTargets

/-!
# The commands that are given an id

Every command narrows the integer it is given to a 32-bit id, in its own place.

* `RpcCommand.actsOn`: the calls a command makes are made on the object with that id, and a
  success tells of that object.
* `RpcCommand.answersNotFound_iff`: when it is answered that the id names nothing.
-/

namespace RemoteControl

variable {ι : Type}

/-! ## The commands -/

/-- The commands that are given an id, with what else they work on. -/
inductive RpcCommand (ι : Type)
  | addFiles
  | addURLToPlaylist
  | playlistRename
  | playlistRemove
  | getPlaylistEntries
  | enqueueTrack
  | removeTrackFromPlayQueue
  | removeTrack (physicalDeletion : Bool)
  | play (controls : PlayerControls ι)
  | getPlaylistEntryInfo
  | setTrackRating (controls : PlayerControls ι)
  | setTrackEnabled (controls : PlayerControls ι)
  | lyrics (sources : LyricsSources ι)
  | getCover (art : AlbumArt ι)
  | status (sources : StatusSources)

namespace RpcCommand

/-- `none` is an id manager that looks for a free id for ever. -/
def run (c : RpcCommand ι) (scene : Scene ι) (params : Json) : Option (Outcome ι) :=
  match c with
  | addFiles => some (RemoteControl.addFiles scene.moment params)
  | addURLToPlaylist => some (RemoteControl.addURLToPlaylist scene.moment params)
  | playlistRename => some (RemoteControl.playlistRename scene.moment params)
  | playlistRemove => some (RemoteControl.playlistRemove scene.moment params)
  | getPlaylistEntries =>
    (getPlaylistEntriesCommand scene.core scene.scheduling params scene.session).map Prod.fst
  | enqueueTrack => some (RemoteControl.enqueueTrack scene.moment params)
  | removeTrackFromPlayQueue => some (RemoteControl.removeTrackFromPlayQueue scene.moment params)
  | removeTrack physicalDeletion =>
    some (RemoteControl.removeTrack physicalDeletion scene.moment params)
  | play controls =>
    (RemoteControl.play controls scene.core scene.scheduling params scene.session).map Prod.fst
  | getPlaylistEntryInfo =>
    (RemoteControl.getPlaylistEntryInfo scene.core scene.scheduling params scene.session).map
      Prod.fst
  | setTrackRating controls => some (RemoteControl.setTrackRating controls scene.moment params)
  | setTrackEnabled controls => some (RemoteControl.setTrackEnabled controls scene.moment params)
  | lyrics sources => some (RemoteControl.lyrics sources scene.moment params)
  | getCover art => some (RemoteControl.getCover art scene.moment params)
  | status sources => some (RemoteControl.status sources scene.moment params)

def key : RpcCommand ι → Bytes
  | addFiles | addURLToPlaylist | playlistRename | playlistRemove | getPlaylistEntries =>
    ascii "playlist_id"
  | status _ => ascii "status_id"
  | _ => ascii "track_id"

/-- The code for an id that names nothing, as the protocol lists it. -/
def notFoundCode : RpcCommand ι → Int
  | addFiles | addURLToPlaylist | playlistRename | playlistRemove | getPlaylistEntries => 20
  | getCover _ => 22
  | status _ => -32602
  | _ => 21

/-- The parameters besides the id let the request come to its task. -/
def Reaches (c : RpcCommand ι) (params : Json) : Prop :=
  match c with
  | addFiles => ((params.array (ascii "files")).bind Json.strings).isSome
  | addURLToPlaylist => (params.string (ascii "url")).isSome
  | playlistRename => (params.string (ascii "new_name")).isSome
  | getPlaylistEntries => (params.stringsValue (ascii "fields")).isSome ∧
      (params.stringValue (ascii "search_string")).isSome
  | enqueueTrack => (params.boolValue (ascii "insert_at_queue_beginning") false).isSome
  | removeTrack physicalDeletion =>
      ∃ physically, params.boolValue (ascii "physically") false = some physically ∧
        (physically = true → physicalDeletion = true)
  | setTrackRating _ => (params.number (ascii "rating")).isSome
  | setTrackEnabled _ => (params.boolean (ascii "enabled")).isSome
  | playlistRemove | removeTrackFromPlayQueue | play _ | getPlaylistEntryInfo | lyrics _
  | getCover _ | status _ => True

/-- There is an object with this id. -/
def Names (c : RpcCommand ι) (scene : Scene ι) (id : PluginId) : Prop :=
  match c with
  | addFiles | addURLToPlaylist | playlistRename | playlistRemove =>
    PlaylistFound id scene.core scene.session.manager
  | getPlaylistEntries => playlistsToList scene.core scene.session.manager (some id) ≠ []
  | status _ => knownStatus id.toInt
  | _ => TrackFound id scene.core scene.session.manager

/-- The object with this id. -/
def target (c : RpcCommand ι) (scene : Scene ι) (id : PluginId) : Option (Target ι) :=
  match c with
  | addFiles | addURLToPlaylist | playlistRename | playlistRemove | getPlaylistEntries =>
    playlistTarget scene.core scene.session.manager id
  | status _ => some (.status id.toInt)
  | _ => trackTarget scene.core scene.session.manager id

/-- The result is what there is to tell of the object with this id; the commands that only
change it tell nothing. A listing whose task is not run is `null`. -/
def Tells (c : RpcCommand ι) (scene : Scene ι) (params : Json) (id : PluginId) (result : Json) :
    Prop :=
  match c with
  | getPlaylistEntries => result = .null ∨ ∃ searchString fields total found session,
      collectAll scene.core searchString (findPlaylist scene.core scene.session.manager id).toList
        scene.session = some ((total, found), session) ∧
      result = EntriesReply.json scene.core fields
        { countOfFoundEntries := found.length, found, totalEntriesCount := some total }
  | getPlaylistEntryInfo => ∃ item owner listId,
      findPlaylistItem scene.core scene.session.manager id = some (item, owner) ∧
      result = .obj (infoFields.map fun field =>
        (field, playlistEntryField scene.core field (.of scene.core item id listId)))
  | setTrackRating controls => ∃ item owner rating,
      findPlaylistItem scene.core scene.session.manager id = some (item, owner) ∧
      params.number (ascii "rating") = some rating ∧
      result = .obj [(ascii "rating", .float ((controls.markAfter item (clamp 0 5 rating)).getD 0))]
  | lyrics sources => ∃ item owner,
      findPlaylistItem scene.core scene.session.manager id = some (item, owner) ∧
      result = .obj [(ascii "text", .str (itemLyrics sources scene.core item))]
  | getCover art => ∃ item owner cover,
      findPlaylistItem scene.core scene.session.manager id = some (item, owner) ∧
      coverOf art scene.core item = some cover ∧
      result = .obj [(ascii "album_cover_uri", .str (albumCoverUri id cover))]
  | status sources => ∃ written value,
      (access sources id.toInt written : Option Int × List (Call ι)).1 = some value ∧
      result = .obj [(ascii "value", .int value)]
  | addFiles | addURLToPlaylist | playlistRename | playlistRemove | enqueueTrack
  | removeTrackFromPlayQueue | removeTrack _ | play _ | setTrackEnabled _ => True

/-- All that the request does, it does to objects with these ids. -/
structure ActsOn (c : RpcCommand ι) (scene : Scene ι) (params : Json) (ids : PluginId → Prop) :
    Prop where
  calls : ∀ outcome, c.run scene params = some outcome → ∀ call ∈ outcome.calls,
    ∃ id object, ids id ∧ c.target scene id = some object ∧ call.operation.On scene.core object
  result : ∀ outcome json, c.run scene params = some outcome → outcome.reply = .rpc (.ok json) →
    ∃ id, ids id ∧ c.Tells scene params id json

/-- The error for an id that names nothing, and no call that changes the player. -/
def AnswersNotFound (c : RpcCommand ι) (scene : Scene ι) (params : Json) : Prop :=
  ∃ outcome, c.run scene params = some outcome ∧ outcome.FindsNothing c.notFoundCode

/-- When an id is answered as one that names nothing, for want of an object, or of its cover.
Lyrics and GetPlaylistEntries have no such answer; for a task that is not run, the commands that
check an `HRESULT` answer success, and the others as if there were no object. -/
def Misses (c : RpcCommand ι) (scene : Scene ι) (params : Json) (id : PluginId) : Prop :=
  match c with
  | lyrics _ | getPlaylistEntries => False
  | addFiles | addURLToPlaylist | playlistRename | playlistRemove | enqueueTrack
  | removeTrackFromPlayQueue | removeTrack _ =>
    c.Reaches params ∧ scene.scheduling.Runs ∧ ¬c.Names scene id
  | play _ | getPlaylistEntryInfo | setTrackRating _ | setTrackEnabled _ | status _ =>
    c.Reaches params ∧ (scene.scheduling.Runs → ¬c.Names scene id)
  | getCover art => scene.scheduling.Runs → ∀ item owner,
      findPlaylistItem scene.core scene.session.manager id = some (item, owner) →
      coverOf art scene.core item = none

end RpcCommand

/-! ## The commands that answer by an HRESULT -/

namespace RpcCommand

section

variable {c : RpcCommand ι} {scene : Scene ι} {params : Json} {id : PluginId}
  {ids : PluginId → Prop}

/-- The commands that answer by an HRESULT. -/
def Finishes : RpcCommand ι → Prop
  | addFiles | addURLToPlaylist | playlistRename | playlistRemove | enqueueTrack
  | removeTrackFromPlayQueue | removeTrack _ => True
  | _ => False

/-- Refused before its task. -/
def RefusedEarly (c : RpcCommand ι) (scene : Scene ι) (params : Json) : Prop :=
  ∃ failure, c.run scene params = some (refuse failure) ∧
    ¬(Reply.rpc (.error failure)).Fails c.notFoundCode

/-- Come to its task, which acts on the object with this id. -/
def ComesToTask (c : RpcCommand ι) (scene : Scene ι) (params : Json) (id : PluginId) : Prop :=
  ∃ task code message message' result,
    c.run scene params = some (finish (.rpcError c.notFoundCode message)
      (.rpcError code message') result scene.moment task) ∧
    code ≠ c.notFoundCode ∧
    RemoteControl.ActsOn scene.core (task scene.core scene.session.manager) (c.target scene id)

theorem refusedEarly_or_comesToTask (hc : c.Finishes) (hid : params.int32 c.key = some id) :
    ¬c.Reaches params ∧ c.RefusedEarly scene params ∨
      c.Reaches params ∧ c.ComesToTask scene params id := by
  cases c with
  | play _ | getPlaylistEntryInfo | setTrackRating _ | setTrackEnabled _ | lyrics _ | getCover _
  | status _ | getPlaylistEntries => exact hc.elim
  | addFiles =>
    simp only [key] at hid
    simp only [Reaches, RefusedEarly, ComesToTask, notFoundCode, run, RemoteControl.addFiles, hid]
    cases params.array (ascii "files") with
    | none => exact .inl ⟨(fun h => by cases h), _, rfl, (by decide : ¬(-32602 : Int) = 20)⟩
    | some files =>
      dsimp only [Option.bind_some]
      cases Json.strings files with
      | none => exact .inl ⟨(fun h => by cases h), _, rfl, fun h => h⟩
      | some files =>
        exact .inr ⟨rfl, _, _, _, _, _, rfl, by decide, addFilesToPlaylist_actsOn files⟩
  | addURLToPlaylist =>
    simp only [key] at hid
    simp only [Reaches, RefusedEarly, ComesToTask, notFoundCode, run,
      RemoteControl.addURLToPlaylist, hid]
    cases params.string (ascii "url") with
    | none => exact .inl ⟨(fun h => by cases h), _, rfl, (by decide : ¬(-32602 : Int) = 20)⟩
    | some url => exact .inr ⟨rfl, _, _, _, _, _, rfl, by decide, addFilesToPlaylist_actsOn [url]⟩
  | playlistRename =>
    simp only [key] at hid
    simp only [Reaches, RefusedEarly, ComesToTask, notFoundCode, run,
      RemoteControl.playlistRename, hid]
    cases params.string (ascii "new_name") with
    | none => exact .inl ⟨(fun h => by cases h), _, rfl, (by decide : ¬(-32602 : Int) = 20)⟩
    | some newName => exact .inr ⟨rfl, _, _, _, _, _, rfl, by decide, renameTask_actsOn newName⟩
  | playlistRemove =>
    simp only [key] at hid
    simp only [Reaches, ComesToTask, notFoundCode, run, RemoteControl.playlistRemove, hid]
    exact .inr ⟨trivial, _, _, _, _, _, rfl, by decide, removePlaylistTask_actsOn⟩
  | enqueueTrack =>
    simp only [key] at hid
    simp only [Reaches, RefusedEarly, ComesToTask, notFoundCode, run, RemoteControl.enqueueTrack,
      hid]
    cases params.boolValue (ascii "insert_at_queue_beginning") false with
    | none => exact .inl ⟨(fun h => by cases h), _, rfl, fun h => h⟩
    | some atBeginning =>
      exact .inr ⟨rfl, _, _, _, _, _, rfl, by decide, enqueueTask_actsOn atBeginning⟩
  | removeTrackFromPlayQueue =>
    simp only [key] at hid
    simp only [Reaches, ComesToTask, notFoundCode, run, RemoteControl.removeTrackFromPlayQueue,
      hid]
    exact .inr ⟨trivial, _, _, _, _, _, rfl, by decide, dequeueTask_actsOn⟩
  | removeTrack physicalDeletion =>
    simp only [key] at hid
    simp only [Reaches, RefusedEarly, ComesToTask, notFoundCode, run, RemoteControl.removeTrack,
      hid]
    cases params.boolValue (ascii "physically") false with
    | none => exact .inl ⟨(fun h => by obtain ⟨_, heq, -⟩ := h; cases heq), _, rfl, fun h => h⟩
    | some physically =>
      by_cases hforbidden : physically ∧ physicalDeletion = false
      · refine .inl ⟨?_, _, congrArg some (if_pos hforbidden), (by decide : ¬(28 : Int) = 21)⟩
        rintro ⟨_, heq, hallowed⟩
        cases heq
        rw [hallowed hforbidden.1] at hforbidden
        exact absurd hforbidden.2 (by decide)
      · refine .inr ⟨⟨physically, rfl, by simpa using hforbidden⟩, _, _, _, _, _,
          congrArg some (if_neg hforbidden), by decide, removeTrackTask_actsOn physically⟩

theorem tells_of_finishes (hc : c.Finishes) {result : Json} : c.Tells scene params id result := by
  cases c <;> first | exact hc.elim | trivial

theorem actsOn_of_finishes (hc : c.Finishes) (hid : params.int32 c.key = some id)
    (hids : ids id) : c.ActsOn scene params ids := by
  have hends : _ ∧ c.RefusedEarly scene params ∨ _ := refusedEarly_or_comesToTask hc hid
  rcases hends with
    ⟨-, failure, hrun, -⟩ | ⟨-, task, code, message, message', result, hrun, -, htask⟩
  · constructor
    · rintro outcome houtcome call hcall
      cases hrun.symm.trans houtcome
      cases hcall
    · rintro outcome json houtcome hreply
      cases hrun.symm.trans houtcome
      cases hreply
  · constructor
    · rintro outcome houtcome call hcall
      cases hrun.symm.trans houtcome
      obtain ⟨object, htarget, hon⟩ := runOnMainThread_calls htask call hcall
      exact ⟨id, object, hids, htarget, hon⟩
    · intro outcome json _ _
      exact ⟨id, hids, tells_of_finishes hc⟩

theorem target_eq_none_iff (hc : c.Finishes) :
    c.target scene id = none ↔ ¬c.Names scene id := by
  cases c <;> first
    | exact hc.elim
    | simp [target, Names, playlistTarget, trackTarget, PlaylistFound, TrackFound]

theorem answersNotFound_iff_of_finishes (hc : c.Finishes) (hid : params.int32 c.key = some id) :
    c.AnswersNotFound scene params ↔
      c.Reaches params ∧ scene.scheduling.Runs ∧ ¬c.Names scene id := by
  have hends : _ ∧ c.RefusedEarly scene params ∨ _ := refusedEarly_or_comesToTask hc hid
  rcases hends with
    ⟨hreaches, failure, hrun, hfails⟩ |
    ⟨hreaches, task, code, message, message', result, hrun, hcodes, htask⟩
  · refine iff_of_false ?_ fun h => hreaches h.1
    rintro ⟨outcome, houtcome, hnothing⟩
    cases hrun.symm.trans houtcome
    exact hfails hnothing.1
  · rw [and_iff_right hreaches, AnswersNotFound, hrun, ← target_eq_none_iff hc]
    simp only [Option.some.injEq, exists_eq_left']
    exact finish_findsNothing_iff hcodes htask

end

end RpcCommand

/-! ## The other commands -/

namespace RpcCommand

section

variable {scene : Scene ι} {params : Json} {id : PluginId} {ids : PluginId → Prop}

/-- A command that makes no call. -/
theorem ActsOn.of_noCalls {c : RpcCommand ι} (hids : ids id)
    (h : ∀ outcome, c.run scene params = some outcome → outcome.calls = [] ∧
      ∀ json, outcome.reply = .rpc (.ok json) → c.Tells scene params id json) :
    c.ActsOn scene params ids := by
  constructor
  · intro outcome hrun call hcall
    rw [(h outcome hrun).1] at hcall
    cases hcall
  · intro outcome json hrun hreply
    exact ⟨id, hids, (h outcome hrun).2 json hreply⟩

variable (hid : params.int32 (ascii "track_id") = some id)

include hid in
theorem play_actsOn (controls : PlayerControls ι) (hids : ids id) :
    (play controls).ActsOn scene params ids := by
  have hcases : ∀ outcome, (play controls).run scene params = some outcome →
      outcome.calls = [] ∨ ∃ item owner,
        findPlaylistItem scene.core scene.session.manager id = some (item, owner) ∧
        ∀ call ∈ outcome.calls, call.operation = .play2 item := by
    intro outcome hrun
    simp only [run, RemoteControl.play, hid] at hrun
    obtain ⟨⟨outcome', t⟩, hissued, rfl⟩ := Option.map_eq_some_iff.mp hrun
    obtain ⟨done, rfl, ⟨-, rfl⟩ | ⟨-, htask⟩⟩ := issued hissued
    · exact .inl rfl
    · rcases playTask_cases htask with ⟨-, -, hcalls⟩ | ⟨item, owner, hfound, -, hcalls⟩
      · exact .inl hcalls
      · exact .inr ⟨item, owner, hfound, hcalls⟩
  constructor
  · intro outcome hrun call hcall
    rcases hcases outcome hrun with hnone | ⟨item, owner, hfound, hcalls⟩
    · rw [hnone] at hcall
      cases hcall
    · refine ⟨id, .track item owner, hids, trackTarget_of_found hfound, ?_⟩
      rw [hcalls call hcall]
      rfl
  · intro outcome json _ _
    exact ⟨id, hids, trivial⟩

include hid in
theorem getPlaylistEntryInfo_actsOn (hids : ids id) :
    (getPlaylistEntryInfo : RpcCommand ι).ActsOn scene params ids := by
  refine .of_noCalls hids fun outcome hrun => ?_
  simp only [run, RemoteControl.getPlaylistEntryInfo, hid] at hrun
  obtain ⟨⟨outcome', t⟩, hissued, rfl⟩ := Option.map_eq_some_iff.mp hrun
  obtain ⟨done, rfl, ⟨-, rfl⟩ | ⟨-, htask⟩⟩ := issued hissued
  · refine ⟨rfl, fun json hreply => ?_⟩
    cases hreply
  · obtain ⟨hcalls, hvalue⟩ := entryInfoTask_cases htask
    refine ⟨hcalls, fun json hreply => ?_⟩
    obtain ⟨context, hcontext, rfl⟩ := answerFound_ok hreply
    rcases hvalue with ⟨-, hnone⟩ | ⟨item, owner, listId, hfound, hsome⟩
    · rw [hnone] at hcontext
      cases hcontext
    · rw [hsome] at hcontext
      cases hcontext
      exact ⟨item, owner, listId, hfound, rfl⟩

include hid in
theorem setTrackRating_actsOn (controls : PlayerControls ι) (hids : ids id) :
    (setTrackRating controls).ActsOn scene params ids := by
  have hrun : ∀ outcome, (setTrackRating controls).run scene params = some outcome →
      (outcome.calls = [] ∧ ∀ json, outcome.reply ≠ .rpc (.ok json)) ∨
      ∃ item owner rating, findPlaylistItem scene.core scene.session.manager id =
          some (item, owner) ∧
        params.number (ascii "rating") = some rating ∧
        (∀ call ∈ outcome.calls, call.operation = .setMark item (clamp 0 5 rating)) ∧
        ∀ json, outcome.reply = .rpc (.ok json) → json = .obj [(ascii "rating",
          .float ((controls.markAfter item (clamp 0 5 rating)).getD 0))] := by
    intro outcome hrun
    simp only [run, RemoteControl.setTrackRating, hid] at hrun
    cases hrating : params.number (ascii "rating") with
    | none =>
      rw [hrating] at hrun
      cases hrun
      exact .inl ⟨rfl, fun json h => by cases h⟩
    | some rating =>
      rw [hrating] at hrun
      cases hrun
      rcases runOnMainThread_cases none scene.moment (setRatingTask controls id (clamp 0 5 rating))
        with ⟨-, hdone⟩ | ⟨-, hdone⟩
      · dsimp only
        rw [hdone, setRatingTask_eq]
        cases hfound : findPlaylistItem scene.moment.core scene.moment.idManager id with
        | none => exact .inl ⟨rfl, fun json h => by cases h⟩
        | some found =>
          refine .inr
            ⟨found.1, found.2, rating, hfound, rfl, fun call hcall => ?_, fun json h => ?_⟩
          · cases List.mem_singleton.mp hcall
            rfl
          · cases h
            rfl
      · dsimp only
        rw [hdone]
        exact .inl ⟨rfl, fun json h => by cases h⟩
  constructor
  · intro outcome houtcome call hcall
    rcases hrun outcome houtcome with ⟨hnone, -⟩ | ⟨item, owner, rating, hfound, -, hcalls, -⟩
    · rw [hnone] at hcall
      cases hcall
    · refine ⟨id, .track item owner, hids, trackTarget_of_found hfound, ?_⟩
      rw [hcalls call hcall]
      rfl
  · intro outcome json houtcome hreply
    rcases hrun outcome houtcome with ⟨-, hnone⟩ | ⟨item, owner, rating, hfound, hrating, -, hjson⟩
    · exact absurd hreply (hnone json)
    · exact ⟨id, hids, item, owner, rating, hfound, hrating, hjson json hreply⟩

include hid in
theorem setTrackEnabled_actsOn (controls : PlayerControls ι) (hids : ids id) :
    (setTrackEnabled controls).ActsOn scene params ids := by
  constructor
  · intro outcome hrun call hcall
    simp only [run, RemoteControl.setTrackEnabled, hid] at hrun
    cases henabled : params.boolean (ascii "enabled") with
    | none =>
      rw [henabled] at hrun
      cases hrun
      cases hcall
    | some enabled =>
      rw [henabled] at hrun
      cases hrun
      dsimp only at hcall
      rcases runOnMainThread_cases false scene.moment (setEnabledTask controls id enabled)
        with ⟨-, hdone⟩ | ⟨-, hdone⟩
      · rw [hdone] at hcall
        unfold setEnabledTask at hcall
        cases hfound : findPlaylistItem scene.moment.core scene.moment.idManager id with
        | none =>
          simp only [hfound] at hcall
          cases hcall
        | some found =>
          simp only [hfound] at hcall
          cases List.mem_singleton.mp hcall
          exact ⟨id, .track found.1 found.2, hids, trackTarget_of_found hfound, rfl⟩
      · rw [hdone] at hcall
        cases hcall
  · intro outcome json _ _
    exact ⟨id, hids, trivial⟩

include hid in
theorem lyrics_actsOn (sources : LyricsSources ι) (hids : ids id) :
    (lyrics sources).ActsOn scene params ids := by
  refine .of_noCalls hids fun outcome hrun => ?_
  simp only [run, RemoteControl.lyrics, hid] at hrun
  cases hrun
  rcases runOnMainThread_cases ([], none) scene.moment (lyricsTask sources id)
    with ⟨-, hdone⟩ | ⟨-, hdone⟩
  · rw [hdone]
    unfold lyricsTask
    cases hfound : findPlaylistItem scene.moment.core scene.moment.idManager id with
    | none => exact ⟨rfl, fun json h => by cases h⟩
    | some found =>
      refine ⟨rfl, fun json h => ⟨found.1, found.2, hfound, ?_⟩⟩
      dsimp only at h
      unfold itemLyrics
      cases hinfo : (scene.core.itemFileInfo found.1).isSome with
      | false =>
        simp only [Scene.moment, hinfo, Bool.false_eq_true, if_false, and_false] at h ⊢
        split at h
        · cases h
        · cases h
          rfl
      | true =>
        simp only [Scene.moment, hinfo, if_true, and_true] at h ⊢
        generalize (if lyricsFromTags sources scene.core found.1 = [] then
          sources.ofService found.1 else lyricsFromTags sources scene.core found.1) = text at h ⊢
        split at h
        · cases h
        · cases h
          rfl
  · rw [hdone]
    exact ⟨rfl, fun json h => by cases h⟩

include hid in
theorem getCover_actsOn (art : AlbumArt ι) (hids : ids id) :
    (getCover art).ActsOn scene params ids := by
  refine .of_noCalls hids fun outcome hrun => ?_
  simp only [run, RemoteControl.getCover, hid] at hrun
  cases hrun
  dsimp only
  rcases runOnMainThread_cases none scene.moment (trackFileInfo id) with ⟨-, hdone⟩ | ⟨-, hdone⟩
  · rw [hdone]
    unfold trackFileInfo
    cases hfound : findPlaylistItem scene.moment.core scene.moment.idManager id with
    | none => exact ⟨rfl, fun json h => by cases h⟩
    | some found =>
      refine ⟨rfl, fun json h => ?_⟩
      cases hcover : coverOf art scene.core found.1 with
      | none =>
        have hnone : loadCover art ⟨if (scene.moment.core.itemFileInfo found.1).isSome then
          some found.1 else none, true, []⟩ = none := hcover
        rw [hnone] at h
        cases h
      | some cover =>
        have hsome : loadCover art ⟨if (scene.moment.core.itemFileInfo found.1).isSome then
          some found.1 else none, true, []⟩ = some cover := hcover
        rw [hsome] at h
        cases h
        exact ⟨found.1, found.2, cover, hfound, hcover, rfl⟩
  · rw [hdone]
    exact ⟨rfl, fun json h => by cases h⟩

omit hid in
theorem status_actsOn (sources : StatusSources) (hid : params.int32 (ascii "status_id") = some id)
    (hids : ids id) : (status sources).ActsOn scene params ids := by
  constructor
  · intro outcome hrun call hcall
    simp only [run, RemoteControl.status, hid] at hrun
    cases hrun
    dsimp only at hcall
    rcases runOnMainThread_cases none scene.moment (fun _ _ => access sources id.toInt
        ((params.number (ascii "value")).map fun x => (BitVec.ofInt 32 (lround x)).toInt))
      with ⟨-, hdone⟩ | ⟨-, hdone⟩
    · rw [hdone] at hcall
      exact ⟨id, _, hids, rfl, access_calls call hcall⟩
    · rw [hdone] at hcall
      cases hcall
  · intro outcome json hrun hreply
    simp only [run, RemoteControl.status, hid] at hrun
    cases hrun
    dsimp only at hreply
    rcases runOnMainThread_cases none scene.moment (fun _ _ => access sources id.toInt
        ((params.number (ascii "value")).map fun x => (BitVec.ofInt 32 (lround x)).toInt))
      with ⟨-, hdone⟩ | ⟨-, hdone⟩
    · rw [hdone] at hreply
      dsimp only at hreply
      split at hreply
      · cases hreply
      · next value hvalue =>
        cases hreply
        exact ⟨id, hids, _, value, hvalue, rfl⟩
    · rw [hdone] at hreply
      cases hreply

omit hid in
theorem getPlaylistEntries_actsOn (hid : params.int32 (ascii "playlist_id") = some id)
    (hids : ids id) : (getPlaylistEntries : RpcCommand ι).ActsOn scene params ids := by
  refine .of_noCalls hids fun outcome hrun => ?_
  simp only [run, getPlaylistEntriesCommand, hid] at hrun
  obtain ⟨⟨outcome', t⟩, hcommand, rfl⟩ := Option.map_eq_some_iff.mp hrun
  cases hfields : params.stringsValue (ascii "fields") with
  | none =>
    simp only [hfields] at hcommand
    cases hcommand
    exact ⟨rfl, fun json h => by cases h⟩
  | some fields =>
    cases hsearch : params.stringValue (ascii "search_string") with
    | none =>
      simp only [hfields, hsearch] at hcommand
      cases hcommand
      exact ⟨rfl, fun json h => by cases h⟩
    | some search =>
      simp only [hfields, hsearch] at hcommand
      obtain ⟨done, rfl, ⟨-, rfl⟩ | ⟨-, htask⟩⟩ := issued hcommand
      · refine ⟨rfl, fun json h => .inl ?_⟩
        cases h
        rfl
      · obtain ⟨⟨reply, u⟩, hreply, hdone⟩ := Option.bind_eq_some_iff.mp htask
        obtain ⟨value, ran, calls⟩ := done
        cases hdone
        refine ⟨rfl, fun json h => .inr ?_⟩
        cases h
        rw [RemoteControl.getPlaylistEntries] at hreply
        dsimp only at hreply
        rw [get_bind_apply, playlistsToList_eq] at hreply
        obtain ⟨⟨⟨total, found⟩, v⟩, hlisted, hmade⟩ := Option.bind_eq_some_iff.mp hreply
        cases hmade
        exact ⟨_, fields, total, found, _, hlisted, rfl⟩

end

/-- **What a command does, it does to the object with the id it narrows to.** -/
theorem actsOn {scene : Scene ι} {params : Json} {id : PluginId} {ids : PluginId → Prop}
    (c : RpcCommand ι) (hid : params.int32 c.key = some id) (hids : ids id) :
    c.ActsOn scene params ids := by
  cases c with
  | addFiles | addURLToPlaylist | playlistRename | playlistRemove | enqueueTrack
  | removeTrackFromPlayQueue | removeTrack _ => exact actsOn_of_finishes trivial hid hids
  | getPlaylistEntries => exact getPlaylistEntries_actsOn hid hids
  | play controls => exact play_actsOn hid controls hids
  | getPlaylistEntryInfo => exact getPlaylistEntryInfo_actsOn hid hids
  | setTrackRating controls => exact setTrackRating_actsOn hid controls hids
  | setTrackEnabled controls => exact setTrackEnabled_actsOn hid controls hids
  | lyrics sources => exact lyrics_actsOn hid sources hids
  | getCover art => exact getCover_actsOn hid art hids
  | status sources => exact status_actsOn sources hid hids

/-! ## When a command answers that it finds nothing -/

section

variable {scene : Scene ι} {params : Json} {id : PluginId}

theorem play_answersNotFound_iff (controls : PlayerControls ι)
    (hid : params.int32 (ascii "track_id") = some id) :
    (play controls).AnswersNotFound scene params ↔ (play controls).Misses scene params id := by
  simp only [Misses, Reaches, Names, true_and]
  constructor
  · rintro ⟨outcome, hrun, hfails, -⟩ hruns hnames
    simp only [run, RemoteControl.play, hid] at hrun
    obtain ⟨⟨outcome', t⟩, hissued, rfl⟩ := Option.map_eq_some_iff.mp hrun
    obtain ⟨done, rfl, ⟨hnot, -⟩ | ⟨-, htask⟩⟩ := issued hissued
    · exact hnot hruns
    · have hvalue := value_of_answerFound_fails hfails
      rcases playTask_cases htask with ⟨hnone, -, -⟩ | ⟨item, owner, -, hsome, -⟩
      · rw [TrackFound, hnone] at hnames
        cases hnames
      · rw [hvalue] at hsome
        cases hsome
  · intro hmiss
    obtain ⟨ran, hdone⟩ := runIssuing_default scene (playTask_unfound controls) hmiss
    simp only [AnswersNotFound, run, RemoteControl.play, hid]
    rw [hdone]
    exact ⟨_, rfl, rfl, rfl⟩

theorem getPlaylistEntryInfo_answersNotFound_iff
    (hid : params.int32 (ascii "track_id") = some id) :
    (getPlaylistEntryInfo : RpcCommand ι).AnswersNotFound scene params ↔
      getPlaylistEntryInfo.Misses scene params id := by
  simp only [Misses, Reaches, Names, true_and]
  constructor
  · rintro ⟨outcome, hrun, hfails, -⟩ hruns hnames
    simp only [run, RemoteControl.getPlaylistEntryInfo, hid] at hrun
    obtain ⟨⟨outcome', t⟩, hissued, rfl⟩ := Option.map_eq_some_iff.mp hrun
    obtain ⟨done, rfl, ⟨hnot, -⟩ | ⟨-, htask⟩⟩ := issued hissued
    · exact hnot hruns
    · have hvalue := value_of_answerFound_fails hfails
      rcases (entryInfoTask_cases htask).2 with ⟨hnone, -⟩ | ⟨item, owner, listId, -, hsome⟩
      · rw [TrackFound, hnone] at hnames
        cases hnames
      · rw [hvalue] at hsome
        cases hsome
  · intro hmiss
    obtain ⟨ran, hdone⟩ := runIssuing_default scene entryInfoTask_unfound hmiss
    simp only [AnswersNotFound, run, RemoteControl.getPlaylistEntryInfo, hid]
    rw [hdone]
    exact ⟨_, rfl, rfl, rfl⟩

theorem setTrackRating_answersNotFound_iff (controls : PlayerControls ι)
    (hid : params.int32 (ascii "track_id") = some id) :
    (setTrackRating controls).AnswersNotFound scene params ↔
      (setTrackRating controls).Misses scene params id := by
  simp only [AnswersNotFound, run, RemoteControl.setTrackRating, hid, Misses, Reaches, Names,
    notFoundCode]
  cases params.number (ascii "rating") with
  | none => simp [refuse, Outcome.FindsNothing, Reply.Fails, invalidParams]
  | some rating =>
    simp only [Option.isSome_some, true_and, Option.some.injEq, exists_eq_left']
    constructor
    · rintro ⟨hfails, -⟩ hruns hnames
      have hvalue := value_of_answerFound_fails hfails
      obtain ⟨found, hfound⟩ := Option.isSome_iff_exists.mp hnames
      rw [runOnMainThread_of_runs hruns, setRatingTask_eq] at hvalue
      rw [show findPlaylistItem scene.moment.core scene.moment.idManager id = some found
        from hfound] at hvalue
      cases hvalue
    · intro hmiss
      obtain ⟨ran, hdone⟩ :=
        runOnMainThread_default scene.moment (setRatingTask_unfound controls _) hmiss
      rw [hdone]
      exact answerFound_findsNothing

theorem setTrackEnabled_answersNotFound_iff (controls : PlayerControls ι)
    (hid : params.int32 (ascii "track_id") = some id) :
    (setTrackEnabled controls).AnswersNotFound scene params ↔
      (setTrackEnabled controls).Misses scene params id := by
  simp only [AnswersNotFound, run, RemoteControl.setTrackEnabled, hid, Misses, Reaches, Names,
    notFoundCode]
  cases params.boolean (ascii "enabled") with
  | none => simp [refuse, Outcome.FindsNothing, Reply.Fails, invalidParams]
  | some enabled =>
    simp only [Option.isSome_some, true_and, Option.some.injEq, exists_eq_left']
    constructor
    · rintro ⟨hfails, -⟩ hruns hnames
      obtain ⟨found, hfound⟩ := Option.isSome_iff_exists.mp hnames
      have hfound' : findPlaylistItem scene.moment.core scene.moment.idManager id = some found :=
        hfound
      rw [runOnMainThread_of_runs hruns, setEnabledTask, hfound'] at hfails
      exact hfails
    · intro hmiss
      obtain ⟨ran, hdone⟩ :=
        runOnMainThread_default scene.moment (setEnabledTask_unfound controls enabled) hmiss
      rw [hdone]
      exact ⟨rfl, rfl⟩

theorem getCover_answersNotFound_iff (art : AlbumArt ι)
    (hid : params.int32 (ascii "track_id") = some id) :
    (getCover art).AnswersNotFound scene params ↔ (getCover art).Misses scene params id := by
  have hcalls : (runOnMainThread none scene.moment (trackFileInfo id)).calls = [] := by
    rcases runOnMainThread_cases none scene.moment (trackFileInfo id) with ⟨-, hdone⟩ | ⟨-, hdone⟩
    · rw [hdone, trackFileInfo]
      dsimp only
      split <;> rfl
    · rw [hdone]
  have hloaded := loadCover_eq_none_iff art scene.moment id
  simp only [AnswersNotFound, run, RemoteControl.getCover, hid, Misses, Option.some.injEq,
    exists_eq_left', Outcome.FindsNothing, hcalls, and_true, notFoundCode]
  refine Iff.trans ?_ hloaded
  cases loadCover art (runOnMainThread none scene.moment (trackFileInfo id)) with
  | none => exact iff_of_true rfl rfl
  | some cover => exact iff_of_false (fun h => h) (Option.some_ne_none _)

theorem status_answersNotFound_iff (sources : StatusSources)
    (hid : params.int32 (ascii "status_id") = some id) :
    (status sources : RpcCommand ι).AnswersNotFound scene params ↔
      (status sources).Misses scene params id := by
  simp only [AnswersNotFound, run, RemoteControl.status, hid, Misses, Reaches, Names, true_and,
    Option.some.injEq, exists_eq_left', notFoundCode]
  constructor
  · rintro ⟨hfails, -⟩ hruns hknown
    have hsome : ((access sources id.toInt ((params.number (ascii "value")).map fun x =>
        (BitVec.ofInt 32 (lround x)).toInt)) : Option Int × List (Call ι)).1.isSome :=
      access_isSome_iff.mpr hknown
    obtain ⟨value, hvalue⟩ := Option.isSome_iff_exists.mp hsome
    rw [runOnMainThread_of_runs (show scene.moment.scheduling.Runs from hruns)] at hfails
    dsimp only at hfails
    rw [hvalue] at hfails
    exact hfails
  · intro hmiss
    obtain ⟨ran, hdone⟩ := runOnMainThread_default scene.moment access_unfound hmiss
    rw [hdone]
    exact ⟨rfl, rfl⟩

theorem getPlaylistEntries_findsSomething {core : Core ι} {scheduling : Scheduling}
    {s t : IdSession} {outcome : Outcome ι} {code : Int}
    (h : getPlaylistEntriesCommand core scheduling params s = some (outcome, t)) :
    ¬outcome.FindsNothing code := by
  rintro ⟨hfails, -⟩
  unfold getPlaylistEntriesCommand at h
  cases hfields : params.stringsValue (ascii "fields") with
  | none =>
    simp only [hfields] at h
    cases h
    exact hfails
  | some fields =>
    cases hsearch : params.stringValue (ascii "search_string") with
    | none =>
      simp only [hfields, hsearch] at h
      cases h
      exact hfails
    | some search =>
      simp only [hfields, hsearch] at h
      obtain ⟨⟨done, u⟩, -, hdone⟩ := Option.bind_eq_some_iff.mp h
      cases hdone
      exact hfails

theorem lyricsReply_not_fails (text : Bytes) :
    ¬(Reply.rpc (if text = [] then .error (rpcError 35 "Lyrics not available")
      else .ok (.obj [(ascii "text", .str text)]))).Fails 21 := by
  split
  · exact (by decide : ¬(35 : Int) = 21)
  · exact fun h => h

theorem answersNotFound_iff (c : RpcCommand ι) (hid : params.int32 c.key = some id) :
    c.AnswersNotFound scene params ↔ c.Misses scene params id := by
  cases c with
  | addFiles | addURLToPlaylist | playlistRename | playlistRemove | enqueueTrack
  | removeTrackFromPlayQueue | removeTrack _ => exact answersNotFound_iff_of_finishes trivial hid
  | play controls => exact play_answersNotFound_iff controls hid
  | getPlaylistEntryInfo => exact getPlaylistEntryInfo_answersNotFound_iff hid
  | setTrackRating controls => exact setTrackRating_answersNotFound_iff controls hid
  | setTrackEnabled controls => exact setTrackEnabled_answersNotFound_iff controls hid
  | getCover art => exact getCover_answersNotFound_iff art hid
  | status sources => exact status_answersNotFound_iff sources hid
  | getPlaylistEntries =>
    refine iff_of_false ?_ (fun h => h)
    rintro ⟨outcome, hrun, hnothing⟩
    obtain ⟨⟨outcome', t⟩, hcommand, rfl⟩ := Option.map_eq_some_iff.mp hrun
    exact getPlaylistEntries_findsSomething hcommand hnothing
  | lyrics sources =>
    refine iff_of_false ?_ (fun h => h)
    simp only [key] at hid
    rintro ⟨outcome, hrun, hfails, -⟩
    simp only [run, RemoteControl.lyrics, hid] at hrun
    cases hrun
    exact lyricsReply_not_fails _ hfails

/-- Who answers so has done nothing. -/
theorem ActsOn.of_answersNotFound {c : RpcCommand ι} (h : c.AnswersNotFound scene params)
    (ids : PluginId → Prop) : c.ActsOn scene params ids := by
  obtain ⟨outcome, hrun, hfails, hcalls⟩ := h
  constructor
  · intro outcome' hrun' call hcall
    cases hrun.symm.trans hrun'
    rw [hcalls] at hcall
    cases hcall
  · intro outcome' json hrun' hreply
    cases hrun.symm.trans hrun'
    rw [hreply] at hfails
    exact hfails.elim

end

end RpcCommand

end RemoteControl
