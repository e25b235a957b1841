import RemoteControl.Commands.NotFound

/-!
# The object an id names

* `Operation.On`: a call is made on an object.
* `ActsOn`: a task that answers by an `HRESULT` acts on the object it finds, and on nothing else.
* `itemLyrics`, `coverOf`, `localNameOf`: what the reading commands answer with, for an item.
-/

namespace RemoteControl

variable {ι α : Type}

/-- What an id can name: a playlist, an item with the playlist that owns it, or a value of
Status. -/
inductive Target (ι : Type)
  | playlist (playlist : Playlist ι)
  | track (item : ι) (owner : Playlist ι)
  | status (id : Int)

def playlistTarget (core : Core ι) (idManager : RemoteControlIdManager) (id : PluginId) :
    Option (Target ι) :=
  (findPlaylist core idManager id).map .playlist

def trackTarget (core : Core ι) (idManager : RemoteControlIdManager) (id : PluginId) :
    Option (Target ι) :=
  (findPlaylistItem core idManager id).map fun found => .track found.1 found.2

/-- The dispatcher's property that an id of Status sets, with its high word. -/
def controlled (id : Int) : Option (DispatcherProperty × Nat) :=
  match rangeFor id, boolPropertyFor id with
  | some range, _ => some (range.property, 0)
  | none, some property => some (property, 0)
  | none, none =>
    if 11 ≤ id ∧ id ≤ 11 + equalizerBandCount - 1 then some (.equalizerBand, (id - 11).toNat)
    else if id = 31 then some (.playerPosition, 0)
    else if id = 33 then some (.actionOnEndOfPlaylist, 0)
    else none

/-- The call is made on this object. -/
def Operation.On (core : Core ι) : Operation ι → Target ι → Prop
  | .setName id _, .playlist playlist | .addList id _, .playlist playlist
  | .close id, .playlist playlist => id = playlist.id
  | .enqueue item' _, .track item _ | .dequeue item', .track item _ | .play2 item', .track item _
  | .setMark item' _, .track item _ | .setPlayingSwitch item' _, .track item _ => item' = item
  | .delete id item', .track item owner => id = owner.id ∧ item' = item
  | .delete3 id index, .track item owner => id = owner.id ∧ index = readIndex core item
  | .setProperty property hiWord _, .status id => controlled id = some (property, hiWord)
  | _, _ => False

theorem trackTarget_of_found {core : Core ι} {idManager : RemoteControlIdManager} {id : PluginId}
    {item : ι} {owner : Playlist ι} (h : findPlaylistItem core idManager id = some (item, owner)) :
    trackTarget core idManager id = some (.track item owner) := by
  rw [trackTarget, h, Option.map_some]

/-! ## Tasks that answer by an HRESULT -/

/-- The one call such a task makes, if any, is made on its object. -/
def ActsOn (core : Core ι) (result : HRESULT × List (Call ι)) : Option (Target ι) → Prop
  | none => result = (eInvalidArg, [])
  | some target => result = (eFail, []) ∨
      ∃ operation hr, operation.On core target ∧ result = (hr, [⟨operation, hr⟩])

theorem ActsOn.fails {core : Core ι} {target : Target ι} :
    ActsOn core (eFail, []) (some target) := .inl rfl

theorem ActsOn.calls {core : Core ι} {target : Target ι} {operation : Operation ι} (hr : HRESULT)
    (h : operation.On core target) : ActsOn core (hr, [⟨operation, hr⟩]) (some target) :=
  .inr ⟨operation, hr, h, rfl⟩

section Tasks

variable {core : Core ι} {idManager : RemoteControlIdManager} {id : PluginId}

theorem addFilesToPlaylist_actsOn (files : List Bytes) :
    ActsOn core (addFilesToPlaylist id files core idManager)
      (playlistTarget core idManager id) := by
  unfold addFilesToPlaylist playlistTarget
  cases findPlaylist core idManager id with
  | none => rfl
  | some playlist =>
    dsimp only
    split
    · exact .calls _ rfl
    · exact .fails

theorem renameTask_actsOn (newName : Bytes) :
    ActsOn core (renameTask id newName core idManager) (playlistTarget core idManager id) := by
  unfold renameTask playlistTarget
  cases findPlaylist core idManager id with
  | none => rfl
  | some playlist =>
    dsimp only
    split
    · exact .calls _ rfl
    · exact .fails

theorem removePlaylistTask_actsOn :
    ActsOn core (removePlaylistTask id core idManager) (playlistTarget core idManager id) := by
  unfold removePlaylistTask playlistTarget
  cases findPlaylist core idManager id with
  | none => rfl
  | some playlist =>
    exact .calls _ rfl

theorem enqueueTask_actsOn (atBeginning : Bool) :
    ActsOn core (enqueueTask id atBeginning core idManager) (trackTarget core idManager id) := by
  unfold enqueueTask trackTarget
  cases findPlaylistItem core idManager id with
  | none => rfl
  | some found =>
    cases core.playlistQueue with
    | none => exact .fails
    | some queue => exact .calls _ rfl

theorem dequeueTask_actsOn :
    ActsOn core (dequeueTask id core idManager) (trackTarget core idManager id) := by
  unfold dequeueTask trackTarget
  cases findPlaylistItem core idManager id with
  | none => rfl
  | some found =>
    cases core.playlistQueue with
    | none => exact .fails
    | some queue => exact .calls _ rfl

theorem removeTrackTask_actsOn (physically : Bool) :
    ActsOn core (removeTrackTask id physically core idManager) (trackTarget core idManager id) := by
  unfold removeTrackTask trackTarget
  cases findPlaylistItem core idManager id with
  | none => rfl
  | some found =>
    cases physically with
    | true | false => exact .calls _ ⟨rfl, rfl⟩

end Tasks

/-! ## How such a command ends -/

section Finish

variable {moment : Moment ι} {task : Task ι HRESULT} {target : Option (Target ι)}
  {code code' : Int} {message message' : Bytes} {result : Json}

theorem runOnMainThread_calls
    (h : ActsOn moment.core (task moment.core moment.idManager) target) :
    ∀ call ∈ (runOnMainThread 0 moment task).calls,
      ∃ object, target = some object ∧ call.operation.On moment.core object := by
  intro call hcall
  by_cases hruns : moment.scheduling.Runs
  · rw [runOnMainThread_of_runs hruns] at hcall
    cases target with
    | none =>
      rw [h] at hcall
      cases hcall
    | some object =>
      rcases h with hnone | ⟨operation, hr, hon, hcalls⟩
      · rw [hnone] at hcall
        cases hcall
      · rw [hcalls] at hcall
        cases List.mem_singleton.mp hcall
        exact ⟨object, rfl, hon⟩
  · rw [runOnMainThread_of_not_runs hruns] at hcall
    cases hcall

/-- It finds nothing where its task runs and there is no object; an answer `E_INVALIDARG` of the
player comes with a call. -/
theorem finish_findsNothing_iff (hcodes : code' ≠ code)
    (h : ActsOn moment.core (task moment.core moment.idManager) target) :
    (finish (.rpcError code message) (.rpcError code' message') result moment task).FindsNothing
        code ↔ moment.scheduling.Runs ∧ target = none := by
  by_cases hruns : moment.scheduling.Runs
  · rw [and_iff_right hruns]
    simp only [finish, runOnMainThread_of_runs hruns, Outcome.FindsNothing]
    cases target with
    | none =>
      rw [h]
      exact iff_of_true ⟨rfl, rfl⟩ rfl
    | some object =>
      refine iff_of_false ?_ (Option.some_ne_none _)
      rintro ⟨hfails, hcalls⟩
      rcases h with hnone | ⟨operation, hr, -, hone⟩
      · rw [hnone] at hfails
        dsimp only at hfails
        rw [if_neg (by decide), if_pos (by decide)] at hfails
        exact hcodes hfails
      · rw [hone] at hcalls
        cases hcalls
  · refine iff_of_false (fun hnothing => ?_) fun h => hruns h.1
    have hfails := hnothing.1
    simp only [finish, runOnMainThread_of_not_runs hruns, if_neg zero_reads_as_success.1,
      if_neg zero_reads_as_success.2] at hfails
    exact hfails

end Finish

/-! ## What there is to read of an item -/

/-- The text of the tags, or else what the lyrics service finds. -/
def itemLyrics (sources : LyricsSources ι) (core : Core ι) (item : ι) : Bytes :=
  let text := lyricsFromTags sources core item
  if text = [] ∧ (core.itemFileInfo item).isSome then sources.ofService item else text

def coverOf (art : AlbumArt ι) (core : Core ι) (item : ι) : Option HttpContent :=
  loadCover art ⟨if (core.itemFileInfo item).isSome then some item else none, true, []⟩

/-- The local file behind an item; empty where there is none. -/
def localNameOf (localFiles : LocalFiles) (core : Core ι) (item : ι) : Bytes :=
  match core.itemFileName item, core.fileUriService with
  | some uri, some fileUri => if fileUri.isUrl uri then [] else (localFiles.container uri).getD uri
  | _, _ => []

/-- What Status sets is the property of the id it is given. -/
theorem access_calls {core : Core ι} {sources : StatusSources} {id : Int} {value : Option Int} :
    ∀ call ∈ (access sources id value : Option Int × List (Call ι)).2,
      call.operation.On core (.status id) := by
  have hset : ∀ (property : DispatcherProperty) (hiWord : Nat) (written : Option Rat),
      controlled id = some (property, hiWord) →
      ∀ call ∈ (sources.set property hiWord written : List (Call ι)),
        call.operation.On core (.status id) := by
    intro property hiWord written hcontrolled call hcall
    unfold StatusSources.set at hcall
    split at hcall
    · cases List.mem_singleton.mp hcall
      exact hcontrolled
    · cases hcall
  unfold access
  split
  · next range hrange => exact hset _ _ _ (by rw [controlled, hrange])
  · next hrange =>
    split
    · next property hbool => exact hset _ _ _ (by rw [controlled, hrange, hbool])
    · next hbool =>
      split
      · next hband =>
        exact hset _ _ _ (by simp only [controlled, hrange, hbool]; exact if_pos hband)
      · unfold accessOther
        split
        all_goals first
          | exact hset _ _ _ rfl
          | exact List.forall_mem_nil _

/-! ## What the tasks find -/

section Found

variable {id : PluginId} {moment : Moment ι} {content : HttpContent}

/-- The task's result where it runs, and what it starts from where it does not. -/
theorem runOnMainThread_cases {α : Type} (initial : α) (moment : Moment ι) (task : Task ι α) :
    (moment.scheduling.Runs ∧ runOnMainThread initial moment task =
      ⟨(task moment.core moment.idManager).1, true, (task moment.core moment.idManager).2⟩) ∨
    (¬moment.scheduling.Runs ∧ runOnMainThread initial moment task = ⟨initial, false, []⟩) := by
  by_cases hruns : moment.scheduling.Runs
  · exact .inl ⟨hruns, runOnMainThread_of_runs hruns⟩
  · exact .inr ⟨hruns, runOnMainThread_of_not_runs hruns⟩

theorem setRatingTask_eq (controls : PlayerControls ι) (core : Core ι)
    (idManager : RemoteControlIdManager) (rating : Rat) :
    setRatingTask controls id rating core idManager =
      match findPlaylistItem core idManager id with
      | none => (none, [])
      | some (item, _) => (some ((controls.markAfter item rating).getD 0),
          [⟨.setMark item rating, controls.setMark item rating⟩]) := rfl

theorem issued {α : Type} {initial : α} {scheduling : Scheduling} {task : IdM (α × List (Call ι))}
    {answer : TaskResult ι α → Outcome ι} {session t : IdSession} {outcome : Outcome ι}
    (h : (runIssuing initial scheduling task >>= fun done => pure (answer done)) session =
      some (outcome, t)) :
    ∃ done, outcome = answer done ∧
      (¬scheduling.Runs ∧ done = ⟨initial, false, []⟩ ∨
        scheduling.Runs ∧ task session = some ((done.value, done.calls), t)) := by
  obtain ⟨⟨done, u⟩, hrun, hanswer⟩ := Option.bind_eq_some_iff.mp h
  cases hanswer
  refine ⟨done, rfl, ?_⟩
  cases scheduling with
  | refused answer =>
    cases hrun
    exact .inl ⟨fun h => h, rfl⟩
  | noService | executed answer =>
    obtain ⟨⟨⟨value, calls⟩, v⟩, htask, hdone⟩ := Option.bind_eq_some_iff.mp hrun
    cases hdone
    exact .inr ⟨trivial, htask⟩

theorem answerFound_ok {α : Type} {failure : Failure} {reply : α → Json}
    {done : TaskResult ι (Option α)} {json : Json}
    (h : (answerFound failure reply done).reply = .rpc (.ok json)) :
    ∃ value, done.value = some value ∧ json = reply value := by
  unfold answerFound at h
  cases hvalue : done.value with
  | none =>
    rw [hvalue] at h
    cases h
  | some value =>
    rw [hvalue] at h
    cases h
    exact ⟨value, rfl, rfl⟩

theorem value_of_answerFound_fails {α : Type} {failure : Failure} {reply : α → Json}
    {done : TaskResult ι (Option α)} {code : Int}
    (h : (answerFound failure reply done).reply.Fails code) : done.value = none := by
  unfold answerFound at h
  cases hvalue : done.value with
  | none => rfl
  | some value =>
    rw [hvalue] at h
    exact h.elim

/-- Play calls the player for the item it finds, and for no other. -/
theorem playTask_cases {controls : PlayerControls ι} {core : Core ι} {session t : IdSession}
    {value : Option (Bytes × PluginId × PluginId)} {calls : List (Call ι)}
    (h : playTask controls core id session = some ((value, calls), t)) :
    findPlaylistItem core session.manager id = none ∧ value = none ∧ calls = [] ∨
    ∃ item owner, findPlaylistItem core session.manager id = some (item, owner) ∧
      value.isSome = true ∧ ∀ call ∈ calls, call.operation = .play2 item := by
  rw [playTask, get_bind_apply] at h
  cases hfound : findPlaylistItem core session.manager id with
  | none =>
    rw [hfound] at h
    cases h
    exact .inl ⟨rfl, rfl, rfl⟩
  | some found =>
    rw [hfound] at h
    obtain ⟨⟨panel, u⟩, -, h⟩ := Option.bind_eq_some_iff.mp h
    dsimp only at h
    have hone : ∀ call ∈ (if core.player.isSome then
        [(⟨.play2 found.1, controls.play2 found.1⟩ : Call ι)] else []),
        call.operation = .play2 found.1 := by
      intro call hcall
      split at hcall
      · cases List.mem_singleton.mp hcall
        rfl
      · cases hcall
    cases htrack : (panelBefore panel).2 with
    | some shown =>
      rw [htrack] at h
      cases h
      exact .inr ⟨found.1, found.2, rfl, rfl, hone⟩
    | none =>
      rw [htrack] at h
      obtain ⟨⟨shown, v⟩, -, h⟩ := Option.bind_eq_some_iff.mp h
      cases h
      exact .inr ⟨found.1, found.2, rfl, rfl, hone⟩

theorem entryInfoTask_cases {core : Core ι} {session t : IdSession}
    {value : Option (PlaylistEntryContext ι)} {calls : List (Call ι)}
    (h : entryInfoTask core id session = some ((value, calls), t)) :
    calls = [] ∧ (findPlaylistItem core session.manager id = none ∧ value = none ∨
      ∃ item owner listId, findPlaylistItem core session.manager id = some (item, owner) ∧
        value = some (.of core item id listId)) := by
  rw [entryInfoTask, get_bind_apply] at h
  cases hfound : findPlaylistItem core session.manager id with
  | none =>
    rw [hfound] at h
    cases h
    exact ⟨rfl, .inl ⟨rfl, rfl⟩⟩
  | some found =>
    rw [hfound] at h
    obtain ⟨⟨listId, u⟩, -, h⟩ := Option.bind_eq_some_iff.mp h
    cases h
    exact ⟨rfl, .inr ⟨found.1, found.2, listId, rfl, rfl⟩⟩

theorem playlistsToList_eq (core : Core ι) (idManager : RemoteControlIdManager) (id : PluginId) :
    playlistsToList core idManager (some id) = (findPlaylist core idManager id).toList := by
  rw [playlistsToList]
  split
  · rfl
  · next hnone =>
    have hmanager : core.playlistManager = none := Option.not_isSome_iff_eq_none.mp hnone
    have hlost : findPlaylist core idManager id = none := by
      unfold findPlaylist loadedPlaylistByAIMPId
      split
      · rfl
      · rw [hmanager]
    rw [hlost]
    rfl

/-- The cover that is loaded is that of the item the task finds. -/
theorem loadCover_eq_none_iff (art : AlbumArt ι) (moment : Moment ι) (id : PluginId) :
    loadCover art (runOnMainThread none moment (trackFileInfo id)) = none ↔
      (moment.scheduling.Runs → ∀ item owner,
        findPlaylistItem moment.core moment.idManager id = some (item, owner) →
        coverOf art moment.core item = none) := by
  by_cases hruns : moment.scheduling.Runs
  · rw [runOnMainThread_of_runs hruns, trackFileInfo, forall_prop_of_true hruns]
    cases hfound : findPlaylistItem moment.core moment.idManager id with
    | none => exact iff_of_true rfl fun item owner h => by cases h
    | some found =>
      constructor
      · intro hnone item owner h
        cases h
        exact hnone
      · exact fun h => h found.1 found.2 rfl
  · rw [runOnMainThread_of_not_runs hruns]
    exact iff_of_true rfl fun h => absurd h hruns

theorem of_eq_found_iff {found : Option HttpContent} :
    GetReply.of found = .found content ↔ found = some content := by
  cases found with
  | none => exact iff_of_false (fun h => by cases h) (fun h => by cases h)
  | some cover => simp [GetReply.of]

theorem of_eq_notFound_iff {found : Option HttpContent} :
    GetReply.of found = .notFound ↔ found = none := by
  cases found with
  | none => exact iff_of_true rfl rfl
  | some cover => exact iff_of_false (fun h => by cases h) (fun h => by cases h)

theorem loadCover_eq_some {art : AlbumArt ι}
    (h : loadCover art (runOnMainThread none moment (trackFileInfo id)) = some content) :
    ∃ item owner, findPlaylistItem moment.core moment.idManager id = some (item, owner) ∧
      coverOf art moment.core item = some content := by
  by_cases hruns : moment.scheduling.Runs
  · rw [runOnMainThread_of_runs hruns, trackFileInfo] at h
    cases hfound : findPlaylistItem moment.core moment.idManager id with
    | none =>
      rw [hfound] at h
      cases h
    | some found =>
      rw [hfound] at h
      exact ⟨found.1, found.2, rfl, h⟩
  · rw [runOnMainThread_of_not_runs hruns] at h
    cases h

theorem localFileName_value (localFiles : LocalFiles) (core : Core ι)
    (idManager : RemoteControlIdManager) :
    (localFileName localFiles id core idManager).1 =
      match findPlaylistItem core idManager id with
      | none => []
      | some (item, _) => localNameOf localFiles core item := by
  unfold localFileName localNameOf
  cases findPlaylistItem core idManager id with
  | none => rfl
  | some found =>
    obtain ⟨item, owner⟩ := found
    dsimp only
    cases core.itemFileName item <;> cases core.fileUriService <;> rfl

theorem fileContent_nil (localFiles : LocalFiles) : fileContent localFiles [] = none := if_pos rfl

theorem fileContent_eq_some {localFiles : LocalFiles}
    (h : fileContent localFiles (runOnMainThread [] moment (localFileName localFiles id)).value =
      some content) :
    ∃ item owner, findPlaylistItem moment.core moment.idManager id = some (item, owner) ∧
      fileContent localFiles (localNameOf localFiles moment.core item) = some content := by
  by_cases hruns : moment.scheduling.Runs
  · rw [runOnMainThread_of_runs hruns, localFileName_value] at h
    cases hfound : findPlaylistItem moment.core moment.idManager id with
    | none =>
      rw [hfound] at h
      dsimp only at h
      rw [fileContent_nil] at h
      cases h
    | some found =>
      rw [hfound] at h
      exact ⟨found.1, found.2, rfl, h⟩
  · rw [runOnMainThread_of_not_runs hruns, fileContent_nil] at h
    cases h

end Found

end RemoteControl
