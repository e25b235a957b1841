import RemoteControl.Commands.FailureCodes

/-!
# Stale track ids

Eight commands look up a track and each translates a missing one in its own way. Lyrics is
the one that has no code for it.
-/

namespace RemoteControl.RpcCommand

variable {ι : Type}

/-- The command with the ids it leaves. -/
def runIds (c : RpcCommand ι) (scene : Scene ι) (params : Json) : Option (Outcome ι × IdSession) :=
  match c with
  | play controls =>
    RemoteControl.play controls scene.core scene.scheduling params scene.session
  | getPlaylistEntryInfo =>
    RemoteControl.getPlaylistEntryInfo scene.core scene.scheduling params scene.session
  | getPlaylistEntries =>
    getPlaylistEntriesCommand scene.core scene.scheduling params scene.session
  | c => (c.run scene params).map fun outcome => (outcome, scene.session)

theorem runIds_fst (c : RpcCommand ι) (scene : Scene ι) (params : Json) :
    (c.runIds scene params).map Prod.fst = c.run scene params := by
  cases c <;> rfl

/-- The commands that are asked for one track. -/
def OfTrack : RpcCommand ι → Prop
  | play _ | getPlaylistEntryInfo | setTrackRating _ | setTrackEnabled _ | enqueueTrack
  | removeTrackFromPlayQueue | removeTrack _ | lyrics _ => True
  | _ => False

/-- The other parameters are valid, and no file is to be deleted. -/
def Valid (c : RpcCommand ι) (params : Json) : Prop :=
  match c with
  | removeTrack _ => params.boolValue (ascii "physically") false = some false
  | c => c.Reaches params

/-- The track is reported as not found, the player left alone and no id issued. -/
def ReportsStale (c : RpcCommand ι) (scene : Scene ι) (params : Json) : Prop :=
  ∃ outcome, c.runIds scene params = some (outcome, scene.session) ∧ outcome.FindsNothing 21

/-- The command has a code for a missing track, and where it tells it from the task's
`HRESULT` the task is run. -/
def TellsMissing (c : RpcCommand ι) (scheduling : Scheduling) : Prop :=
  match c with
  | lyrics _ => False
  | enqueueTrack | removeTrackFromPlayQueue | removeTrack _ => scheduling.Runs
  | _ => True

section

variable {scene : Scene ι} {params : Json} {id : PluginId}

theorem reportsStale_iff_of_run {c : RpcCommand ι} {outcome : Outcome ι}
    (h : c.runIds scene params = some (outcome, scene.session)) :
    c.ReportsStale scene params ↔ outcome.FindsNothing 21 := by
  rw [ReportsStale, h]
  simp

/-- For a command that ends in `finish`. -/
theorem reportsStale_finish_iff {c : RpcCommand ι} {task : Task ι HRESULT}
    (hrun : ∃ message code message' result, code ≠ 21 ∧ c.runIds scene params =
      some (finish (.rpcError 21 message) (.rpcError code message') result scene.moment task,
        scene.session))
    (htask : RemoteControl.ActsOn scene.core (task scene.core scene.session.manager)
      (trackTarget scene.core scene.session.manager id))
    (hstale : ¬TrackFound id scene.core scene.session.manager) :
    c.ReportsStale scene params ↔ scene.scheduling.Runs := by
  obtain ⟨message, code, message', result, hcodes, hrun⟩ := hrun
  have hnone : trackTarget scene.core scene.session.manager id = none := by
    rw [trackTarget, findPlaylistItem_of_unfound hstale, Option.map_none]
  have hiff := @finish_findsNothing_iff ι scene.moment task _ 21 code message message' result
    hcodes htask
  rw [reportsStale_iff_of_run hrun, hiff]
  exact and_iff_left hnone

/-- What Lyrics makes of a missing track is what it makes of a track without lyrics. -/
theorem lyrics_stale (sources : LyricsSources ι) (hid : params.int32 (ascii "track_id") = some id)
    (hstale : ¬TrackFound id scene.core scene.session.manager) :
    ∃ ran, RemoteControl.lyrics sources scene.moment params =
      { reply := .rpc (.error (rpcError 35 "Lyrics not available")), ran, calls := [] } := by
  obtain ⟨ran, hdone⟩ := runOnMainThread_default scene.moment
    (show (lyricsTask sources id).Unfound (TrackFound id) ([], none) from fun core idManager h => by
      simp only [lyricsTask, findPlaylistItem_of_unfound h])
    fun _ => hstale
  refine ⟨ran, ?_⟩
  simp only [RemoteControl.lyrics, hid, hdone]
  rfl

/-- **A stale track id is reported as such**, by every command but Lyrics, if the task of a
command that goes by its `HRESULT` is run. -/
theorem stale_track_reported_iff (c : RpcCommand ι) (hc : c.OfTrack)
    (hid : params.int32 c.key = some id) (hvalid : c.Valid params)
    (hstale : ¬TrackFound id scene.core scene.session.manager) :
    c.ReportsStale scene params ↔ c.TellsMissing scene.scheduling := by
  cases c with
  | play controls =>
    refine iff_of_true ?_ trivial
    obtain ⟨ran, hdone⟩ := runIssuing_default scene (playTask_unfound controls) fun _ => hstale
    simp only [key] at hid
    simp only [ReportsStale, runIds, RemoteControl.play, hid]
    rw [hdone]
    exact ⟨_, rfl, rfl, rfl⟩
  | getPlaylistEntryInfo =>
    refine iff_of_true ?_ trivial
    obtain ⟨ran, hdone⟩ := runIssuing_default scene entryInfoTask_unfound fun _ => hstale
    simp only [key] at hid
    simp only [ReportsStale, runIds, RemoteControl.getPlaylistEntryInfo, hid]
    rw [hdone]
    exact ⟨_, rfl, rfl, rfl⟩
  | setTrackRating controls =>
    refine iff_of_true ?_ trivial
    obtain ⟨rating, hrating⟩ := Option.isSome_iff_exists.1 hvalid
    obtain ⟨ran, hdone⟩ := runOnMainThread_default scene.moment
      (setRatingTask_unfound controls (clamp 0 5 rating)) fun _ => hstale
    simp only [key] at hid
    simp only [ReportsStale, runIds, run, RemoteControl.setTrackRating, hid, hrating, hdone]
    exact ⟨_, rfl, rfl, rfl⟩
  | setTrackEnabled controls =>
    refine iff_of_true ?_ trivial
    obtain ⟨enabled, henabled⟩ := Option.isSome_iff_exists.1 hvalid
    obtain ⟨ran, hdone⟩ := runOnMainThread_default scene.moment
      (setEnabledTask_unfound controls enabled) fun _ => hstale
    simp only [key] at hid
    simp only [ReportsStale, runIds, run, RemoteControl.setTrackEnabled, hid, henabled, hdone]
    exact ⟨_, rfl, rfl, rfl⟩
  | enqueueTrack =>
    obtain ⟨atBeginning, hplace⟩ := Option.isSome_iff_exists.1 hvalid
    refine reportsStale_finish_iff ?_ (enqueueTask_actsOn atBeginning) hstale
    simp only [key] at hid
    simp only [runIds, run, RemoteControl.enqueueTrack, hid, hplace]
    exact ⟨_, _, _, _, by decide, rfl⟩
  | removeTrackFromPlayQueue =>
    refine reportsStale_finish_iff ?_ dequeueTask_actsOn hstale
    simp only [key] at hid
    simp only [runIds, run, RemoteControl.removeTrackFromPlayQueue, hid]
    exact ⟨_, _, _, _, by decide, rfl⟩
  | removeTrack physicalDeletion =>
    refine reportsStale_finish_iff ?_ (removeTrackTask_actsOn false) hstale
    simp only [key] at hid
    have hphysically : params.boolValue (ascii "physically") false = some false := hvalid
    simp only [runIds, run, RemoteControl.removeTrack, hid, hphysically]
    exact ⟨_, _, _, _, by decide, rfl⟩
  | lyrics sources =>
    refine iff_of_false (fun h => ?_) (fun h => h)
    simp only [key] at hid
    obtain ⟨ran, hlyrics⟩ := lyrics_stale sources hid hstale
    have hrun : (lyrics sources : RpcCommand ι).runIds scene params = some (_, scene.session) :=
      congrArg (fun outcome => some (outcome, scene.session)) hlyrics
    have hfails := ((reportsStale_iff_of_run hrun).1 h).1
    exact absurd hfails (show ¬(35 : Int) = 21 by decide)
  | _ => cases hc

end

/-! ## An id that was never issued -/

def unknownTrack : Json := .obj [(ascii "track_id", .int 7)]

def emptyScene : Scene Unit := ⟨emptyPlayer, .empty, .noService⟩

theorem unknownTrack_stale : ¬TrackFound 7 emptyScene.core emptyScene.session.manager := by
  intro h
  cases h

/-- Lyrics of an unknown track are reported as not available. -/
theorem lyrics_of_unknown_track :
    ¬(lyrics ⟨fun _ => [], fun _ => [], fun _ => []⟩ : RpcCommand Unit).ReportsStale emptyScene
      unknownTrack := by
  rintro ⟨outcome, hrun, hfails, -⟩
  cases hrun
  exact absurd hfails (show ¬(35 : Int) = 21 by decide)

theorem enqueue_of_unknown_track :
    (enqueueTrack : RpcCommand Unit).ReportsStale emptyScene unknownTrack :=
  (stale_track_reported_iff .enqueueTrack trivial (show unknownTrack.int32 _ = some 7 from rfl) rfl
    unknownTrack_stale).2 trivial

end RemoteControl.RpcCommand
