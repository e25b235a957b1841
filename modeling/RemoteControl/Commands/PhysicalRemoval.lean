import Mathlib.Data.List.ReduceOption
import RemoteControl.Commands.SuccessReplies
import RemoteControl.IdManager.Session

/-!
# Which files RemoveTrack deletes

The item to delete is passed on as its index, and `DeleteOnlyIndex` compares it with the
index of every item of the playlist, which it reads itself. An index that is read is the item's
position; one that is not read is -1 on both sides. Either read of an item may fail.
-/

namespace RemoteControl

variable {ι : Type}

/-- An `INDEX` that is read, by the task or by the callback, is the position of the item in its
playlist. -/
def ReadsPositions (core : Core ι) (playlist : Playlist ι) : Prop :=
  ∃ position : ι → Nat, ∀ item, some item ∈ playlist.items →
    playlist.items[position item]? = some (some item) ∧
      ∀ i, core.itemIndex item = some i ∨ core.callbackIndex item = some i → i = position item

/-- What a call deletes: `Delete3` asks the callback about every item of the playlist and
deletes those it accepts. -/
def filesDeleted (core : Core ι) (playlist : Playlist ι) (call : Call ι) : List ι :=
  match call.operation with
  | .delete3 _ index => playlist.items.reduceOption.filter (deleteOnlyIndex core index)
  | _ => []

def Outcome.filesDeleted (outcome : Outcome ι) (core : Core ι) (playlist : Playlist ι) : List ι :=
  outcome.calls.flatMap (RemoteControl.filesDeleted core playlist)

/-! ## The callback -/

section Callback

variable {core : Core ι} {playlist : Playlist ι} {item other : ι}

theorem readIndex_of_read {i : Int} (h : core.itemIndex item = some i) :
    readIndex core item = i := by
  rw [readIndex, h, Option.getD_some]

theorem readIndex_of_unread (h : core.itemIndex item = none) : readIndex core item = -1 := by
  rw [readIndex, h, Option.getD_none]

/-- The callback accepts this item where both reads succeed, and every item it cannot read
where the task could not read this one. -/
theorem deleteOnlyIndex_iff (hreads : ReadsPositions core playlist)
    (hitem : some item ∈ playlist.items) (hother : some other ∈ playlist.items) :
    deleteOnlyIndex core (readIndex core item) other = true ↔
      other = item ∧ (core.itemIndex item).isSome = true ∧
          (core.callbackIndex other).isSome = true ∨
        core.itemIndex item = none ∧ core.callbackIndex other = none := by
  obtain ⟨position, hposition⟩ := hreads
  obtain ⟨hat, hread⟩ := hposition item hitem
  obtain ⟨hat', hread'⟩ := hposition other hother
  rw [deleteOnlyIndex, decide_eq_true_eq]
  cases hi : core.itemIndex item with
  | none =>
    rw [readIndex_of_unread hi]
    cases hj : core.callbackIndex other with
    | none => simp
    | some j =>
      have hne : j ≠ -1 := by
        have heq := hread' j (.inr hj)
        omega
      simp [hne]
  | some i =>
    rw [readIndex_of_read hi]
    have hi' := hread i (.inl hi)
    cases hj : core.callbackIndex other with
    | none =>
      have hne : -1 ≠ i := by omega
      simp [hne]
    | some j =>
      have hj' := hread' j (.inr hj)
      -- two items with one position are one item
      have hiff : j = i ↔ other = item := by
        constructor
        · intro heq
          have hsame : position other = position item := by omega
          rw [hsame, hat] at hat'
          exact (Option.some.inj (Option.some.inj hat')).symm
        · rintro rfl
          exact hj'.trans hi'.symm
      simp [hiff]

end Callback

/-! ## The command -/

section Command

variable {moment : Moment ι} {params : Json} {trackId : PluginId} {item : ι}
  {playlist : Playlist ι}

theorem mem_items_of_findPlaylistItem {core : Core ι} {idManager : RemoteControlIdManager}
    (h : findPlaylistItem core idManager trackId = some (item, playlist)) :
    some item ∈ playlist.items := by
  unfold findPlaylistItem at h
  dsimp only at h
  split at h
  · cases h
  · split at h
    · cases h
    · obtain ⟨found, hget, hpair⟩ := Option.map_eq_some_iff.1 h
      cases hpair
      exact List.mem_of_getElem? (Option.join_eq_some_iff.1 hget)

variable (hid : params.int32 (ascii "track_id") = some trackId)
  (hphysically : params.boolValue (ascii "physically") false = some true)

include hid hphysically in
/-- Without the permission nothing is called. -/
theorem removeTrack_not_permitted : (removeTrack false moment params).calls = [] := by
  rw [removeTrack, hid]
  dsimp only
  rw [hphysically]
  rfl

include hid hphysically in
theorem removeTrack_permitted :
    (removeTrack true moment params).calls =
      (runOnMainThread 0 moment (removeTrackTask trackId true)).calls := by
  rw [removeTrack, hid]
  dsimp only
  rw [hphysically]
  rfl

/-- The task that finds its item deletes what the callback accepts for that item. -/
theorem removeTrackTask_calls {core : Core ι} {idManager : RemoteControlIdManager}
    (hfound : findPlaylistItem core idManager trackId = some (item, playlist)) :
    (removeTrackTask trackId true core idManager).2.flatMap (filesDeleted core playlist) =
      playlist.items.reduceOption.filter (deleteOnlyIndex core (readIndex core item)) := by
  simp only [removeTrackTask, hfound, if_true]
  exact List.append_nil _

/-- The deleted files, where the task runs. -/
theorem mem_filesDeleted_iff (hid : params.int32 (ascii "track_id") = some trackId)
    (hphysically : params.boolValue (ascii "physically") false = some true)
    (hfound : findPlaylistItem moment.core moment.idManager trackId = some (item, playlist))
    (hreads : ReadsPositions moment.core playlist) (hruns : moment.scheduling.Runs) {other : ι} :
    other ∈ (removeTrack true moment params).filesDeleted moment.core playlist ↔
      some other ∈ playlist.items ∧
        (other = item ∧ (moment.core.itemIndex item).isSome = true ∧
            (moment.core.callbackIndex other).isSome = true ∨
          moment.core.itemIndex item = none ∧ moment.core.callbackIndex other = none) := by
  rw [Outcome.filesDeleted, removeTrack_permitted hid hphysically, runOnMainThread_of_runs hruns]
  dsimp only
  rw [removeTrackTask_calls hfound, List.mem_filter, List.reduceOption_mem_iff]
  exact and_congr_right fun hother =>
    deleteOnlyIndex_iff hreads (mem_items_of_findPlaylistItem hfound) hother

theorem filesDeleted_of_not_runs (hid : params.int32 (ascii "track_id") = some trackId)
    (hphysically : params.boolValue (ascii "physically") false = some true)
    (hruns : ¬moment.scheduling.Runs) :
    (removeTrack true moment params).filesDeleted moment.core playlist = [] := by
  rw [Outcome.filesDeleted, removeTrack_permitted hid hphysically,
    runOnMainThread_of_not_runs hruns]
  rfl

/-- The task could read the index of this item, or the callback can read that of every other. -/
def TellsApart (core : Core ι) (playlist : Playlist ι) (item : ι) : Prop :=
  (core.itemIndex item).isSome = true ∨
    ∀ other, some other ∈ playlist.items → core.callbackIndex other = none → other = item

theorem no_other_deleted_iff (hid : params.int32 (ascii "track_id") = some trackId)
    (hphysically : params.boolValue (ascii "physically") false = some true)
    (hfound : findPlaylistItem moment.core moment.idManager trackId = some (item, playlist))
    (hreads : ReadsPositions moment.core playlist) (hruns : moment.scheduling.Runs) :
    (∀ other ∈ (removeTrack true moment params).filesDeleted moment.core playlist,
        other = item) ↔ TellsApart moment.core playlist item := by
  simp only [mem_filesDeleted_iff hid hphysically hfound hreads hruns]
  constructor
  · intro honly
    cases hi : moment.core.itemIndex item with
    | some i => exact .inl (by rw [hi]; rfl)
    | none => exact .inr fun other hother hj => honly other ⟨hother, .inr ⟨hi, hj⟩⟩
  · rintro happart other ⟨hother, ⟨heq, -⟩ | ⟨hi, hj⟩⟩
    · exact heq
    · rcases happart with hsome | honly
      · rw [hi] at hsome
        cases hsome
      · exact honly other hother hj

theorem only_item_deleted_iff (hid : params.int32 (ascii "track_id") = some trackId)
    (hphysically : params.boolValue (ascii "physically") false = some true)
    (hfound : findPlaylistItem moment.core moment.idManager trackId = some (item, playlist))
    (hreads : ReadsPositions moment.core playlist)
    (hdistinct : playlist.items.reduceOption.Nodup) (hruns : moment.scheduling.Runs) :
    (removeTrack true moment params).filesDeleted moment.core playlist = [item] ↔
      TellsApart moment.core playlist item ∧
        ((moment.core.itemIndex item).isSome = true ↔
          (moment.core.callbackIndex item).isSome = true) := by
  have hitem := mem_items_of_findPlaylistItem hfound
  rw [← no_other_deleted_iff hid hphysically hfound hreads hruns]
  have hmem : item ∈ (removeTrack true moment params).filesDeleted moment.core playlist ↔
      ((moment.core.itemIndex item).isSome = true ↔
        (moment.core.callbackIndex item).isSome = true) := by
    rw [mem_filesDeleted_iff hid hphysically hfound hreads hruns, and_iff_right hitem]
    cases moment.core.itemIndex item <;> cases moment.core.callbackIndex item <;> simp
  rw [← hmem]
  have hnodup : ((removeTrack true moment params).filesDeleted moment.core playlist).Nodup := by
    rw [Outcome.filesDeleted, removeTrack_permitted hid hphysically,
      runOnMainThread_of_runs hruns]
    dsimp only
    rw [removeTrackTask_calls hfound]
    exact hdistinct.filter _
  constructor
  · intro heq
    rw [heq]
    exact ⟨fun other hother => List.mem_singleton.1 hother, List.mem_singleton_self _⟩
  · rintro ⟨honly, hself⟩
    refine List.perm_singleton.1 ((List.perm_ext_iff_of_nodup hnodup (List.nodup_singleton _)).2 ?_)
    intro other
    rw [List.mem_singleton]
    exact ⟨honly other, fun heq => heq ▸ hself⟩

/-- **No other file is deleted** exactly when the task could read the index of the resolved
item or the callback can read that of every other. The item's own file is then deleted when its
two reads go the same way. -/
theorem physical_removal_iff (hid : params.int32 (ascii "track_id") = some trackId)
    (hphysically : params.boolValue (ascii "physically") false = some true)
    (hfound : findPlaylistItem moment.core moment.idManager trackId = some (item, playlist))
    (hreads : ReadsPositions moment.core playlist) :
    (((removeTrack false moment params).filesDeleted moment.core playlist = [] ∧
        ∀ other ∈ (removeTrack true moment params).filesDeleted moment.core playlist,
          other = item) ↔
      (moment.scheduling.Runs → TellsApart moment.core playlist item)) ∧
    (playlist.items.reduceOption.Nodup →
      ((removeTrack true moment params).filesDeleted moment.core playlist = [item] ↔
        moment.scheduling.Runs ∧ TellsApart moment.core playlist item ∧
          ((moment.core.itemIndex item).isSome = true ↔
            (moment.core.callbackIndex item).isSome = true))) := by
  have hforbidden : (removeTrack false moment params).filesDeleted moment.core playlist = [] := by
    rw [Outcome.filesDeleted, removeTrack_not_permitted hid hphysically, List.flatMap_nil]
  rw [and_iff_right hforbidden]
  by_cases hruns : moment.scheduling.Runs
  · rw [no_other_deleted_iff hid hphysically hfound hreads hruns, forall_prop_of_true hruns,
      and_iff_right hruns]
    exact ⟨Iff.rfl, fun hdistinct =>
      only_item_deleted_iff hid hphysically hfound hreads hdistinct hruns⟩
  · rw [filesDeleted_of_not_runs hid hphysically hruns]
    refine ⟨iff_of_true (fun other hother => by cases hother) fun h => absurd h hruns, fun _ => ?_⟩
    exact iff_of_false (List.cons_ne_nil _ _).symm fun h => hruns h.1

end Command

/-! ## Two tracks -/

def twoTrackPlaylist : Playlist Bool where
  hasProperties := true
  id := ascii "P"
  name := []
  readonly := none
  focusedObject := none
  playbackCursor := none
  items := [some false, some true]
  files := none
  setName _ := sOk
  addList _ := sOk
  close := sOk
  delete _ := sOk
  delete3 _ := sOk

/-- A player with two tracks, whose indices are read as given. -/
def twoTrackPlayer (itemIndex : Bool → Option Int) : Core Bool where
  playlistManager := some {
    loaded := [some twoTrackPlaylist]
    getLoadedPlaylistByID := fun id => if id = ascii "P" then some twoTrackPlaylist else none
    playingPlaylist := none
    activePlaylist := none
    createPlaylist := fun _ => none }
  playlistQueue := none
  player := none
  createString _ := true
  createObjectList := true
  fileUriService := none
  messageProperty _ := none
  find _ _ := none
  itemIndex := itemIndex
  itemPlaylist _ := some twoTrackPlaylist
  itemFileInfo _ := none
  itemFileName _ := none
  itemMark _ := none
  itemPlayingSwitch _ := none

/-- The ids after the first track was listed. -/
theorem firstTrack_issued : ∃ id session, trackId (ascii "P") 0 .empty = some (id, session) := by
  obtain ⟨⟨id, session⟩, hissued⟩ : ∃ issued, trackId (ascii "P") 0 .empty = some issued :=
    Option.isSome_iff_exists.1 (by decide +kernel)
  exact ⟨id, session, hissued⟩

theorem firstTrack_found {id : PluginId} {session : IdSession}
    (hissued : trackId (ascii "P") 0 .empty = some (id, session))
    (itemIndex : Bool → Option Int) :
    findPlaylistItem (twoTrackPlayer itemIndex) session.manager id =
      some (false, twoTrackPlaylist) := by
  rw [findPlaylistItem, IdSession.playlistItemGetKey_of_issued
    (trackId_grows (ascii "P") 0 _ _ _ hissued).2]
  rfl

def physicalRemoval (id : PluginId) : Json :=
  .obj [(ascii "track_id", .int id.toInt), (ascii "physically", .bool true)]

theorem physicalRemoval_int32 (id : PluginId) :
    (physicalRemoval id).int32 (ascii "track_id") = some id :=
  congrArg some (BitVec.ofInt_toInt)

/-- With no index to be read, deleting the first track deletes the second as well. -/
theorem both_files_deleted : ∃ id session,
    trackId (ascii "P") 0 .empty = some (id, session) ∧
      findPlaylistItem (twoTrackPlayer fun _ => none) session.manager id =
        some (false, twoTrackPlaylist) ∧
      ReadsPositions (twoTrackPlayer fun _ => none) twoTrackPlaylist ∧
      ¬∀ other ∈ (removeTrack true
          ⟨twoTrackPlayer fun _ => none, session.manager, .noService⟩
          (physicalRemoval id)).filesDeleted (twoTrackPlayer fun _ => none) twoTrackPlaylist,
        other = false := by
  obtain ⟨id, session, hissued⟩ := firstTrack_issued
  have hfound := firstTrack_found hissued fun _ => none
  have hreads : ReadsPositions (twoTrackPlayer fun _ => none) twoTrackPlaylist :=
    ⟨Bool.toNat, fun item _ => ⟨by cases item <;> rfl, fun i hread => by
      rcases hread with h | h <;> cases h⟩⟩
  refine ⟨id, session, hissued, hfound, hreads, ?_⟩
  have hdeleted : (removeTrack true ⟨twoTrackPlayer fun _ => none, session.manager, .noService⟩
      (physicalRemoval id)).filesDeleted (twoTrackPlayer fun _ => none) twoTrackPlaylist =
      [false, true] := by
    rw [Outcome.filesDeleted, removeTrack_permitted (physicalRemoval_int32 id) rfl]
    exact removeTrackTask_calls hfound
  rw [hdeleted]
  decide

/-- With both indices read, only the first file is deleted. -/
theorem first_file_deleted : ∃ id session,
    trackId (ascii "P") 0 .empty = some (id, session) ∧
      (removeTrack true ⟨twoTrackPlayer fun item => some item.toNat, session.manager, .noService⟩
        (physicalRemoval id)).filesDeleted (twoTrackPlayer fun item => some item.toNat)
          twoTrackPlaylist = [false] := by
  obtain ⟨id, session, hissued⟩ := firstTrack_issued
  have hreads : ReadsPositions (twoTrackPlayer fun item => some item.toNat) twoTrackPlaylist := by
    refine ⟨Bool.toNat, fun item _ => ⟨by cases item <;> rfl, fun i hread => ?_⟩⟩
    rcases hread with hread | hread <;> exact (Option.some.inj hread).symm
  have honly := @physical_removal_iff Bool
    ⟨twoTrackPlayer fun item => some item.toNat, session.manager, .noService⟩
    _ id false twoTrackPlaylist (physicalRemoval_int32 id) rfl (firstTrack_found hissued _) hreads
  exact ⟨id, session, hissued, (honly.2 (by decide)).2 ⟨trivial, .inl rfl, Iff.rfl⟩⟩

end RemoteControl
