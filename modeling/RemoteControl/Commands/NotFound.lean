import RemoteControl.Commands.Covers
import RemoteControl.Commands.Status
import RemoteControl.Commands.SuccessReplies
import RemoteControl.Commands.Tracks

/-!
# Ids that name nothing

* `Task.Unfound`: what a task answers when it does not find its object.
* `runOnMainThread_default`, `runIssuing_default`: what becomes
  of it in the reply.
-/

namespace RemoteControl

variable {ι α : Type}

/-! ## Tasks that do not find their object -/

def PlaylistFound (id : PluginId) (core : Core ι) (idManager : RemoteControlIdManager) : Prop :=
  (findPlaylist core idManager id).isSome

def TrackFound (id : PluginId) (core : Core ι) (idManager : RemoteControlIdManager) : Prop :=
  (findPlaylistItem core idManager id).isSome

/-- Where the task does not find its object it makes no call and has this result. -/
def Task.Unfound (task : Task ι α) (found : Core ι → RemoteControlIdManager → Prop) (result : α) :
    Prop :=
  ∀ core idManager, ¬found core idManager → task core idManager = (result, [])

section Unfound

variable {id : PluginId} {core : Core ι} {idManager : RemoteControlIdManager}

theorem findPlaylist_of_unfound (h : ¬PlaylistFound id core idManager) :
    findPlaylist core idManager id = none :=
  Option.not_isSome_iff_eq_none.mp h

theorem findPlaylistItem_of_unfound (h : ¬TrackFound id core idManager) :
    findPlaylistItem core idManager id = none :=
  Option.not_isSome_iff_eq_none.mp h

theorem setRatingTask_unfound (controls : PlayerControls ι) (rating : Rat) :
    (setRatingTask controls id rating).Unfound (TrackFound id) none := by
  intro core idManager h
  simp only [setRatingTask, findPlaylistItem_of_unfound h]

theorem setEnabledTask_unfound (controls : PlayerControls ι) (enabled : Bool) :
    (setEnabledTask controls id enabled).Unfound (TrackFound id) false := by
  intro core idManager h
  simp only [setEnabledTask, findPlaylistItem_of_unfound h]

theorem playlistExists_unfound :
    (playlistExists id : Task ι Bool).Unfound (PlaylistFound id) false := by
  intro core idManager h
  simp only [playlistExists, findPlaylist_of_unfound h, Option.isSome_none]

theorem access_unfound {sources : StatusSources} {value : Option Int} :
    Task.Unfound (fun _ _ => access sources id.toInt value : Task ι (Option Int))
      (fun _ _ => knownStatus id.toInt) none :=
  fun _ _ h => access_unknown h

theorem get_bind_apply (f : IdSession → IdM α) (session : IdSession) :
    (get >>= f : IdM α) session = f session session := rfl

theorem playTask_unfound (controls : PlayerControls ι) {session : IdSession}
    (h : ¬TrackFound id core session.manager) :
    playTask controls core id session = some ((none, []), session) := by
  rw [playTask, get_bind_apply, findPlaylistItem_of_unfound h]
  rfl

theorem entryInfoTask_unfound {session : IdSession}
    (h : ¬TrackFound id core session.manager) :
    entryInfoTask core id session = some ((none, []), session) := by
  rw [entryInfoTask, get_bind_apply, findPlaylistItem_of_unfound h]
  rfl

end Unfound

/-! ## What a command answers to an id that names nothing -/

/-- The player, the ids issued so far, and what becomes of the request's task. -/
structure Scene (ι : Type) where
  core : Core ι
  session : IdSession
  scheduling : Scheduling

def Scene.moment (scene : Scene ι) : Moment ι :=
  ⟨scene.core, scene.session.manager, scene.scheduling⟩

def Reply.Fails (code : Int) : Reply → Prop
  | .rpc (.error (.rpcError c _)) => c = code
  | _ => False

/-- An error with this code, and a player that is left alone. -/
def Outcome.FindsNothing (code : Int) (outcome : Outcome ι) : Prop :=
  outcome.reply.Fails code ∧ outcome.calls = []

section Answers

variable {found : Core ι → RemoteControlIdManager → Prop} {code : Int} {message : Bytes}

theorem runOnMainThread_of_missed {moment : Moment ι} {initial result : α} {task : Task ι α}
    (h : task.Unfound found result) (hruns : moment.scheduling.Runs)
    (hmiss : ¬found moment.core moment.idManager) :
    runOnMainThread initial moment task = ⟨result, true, []⟩ := by
  rw [runOnMainThread_of_runs hruns, h _ _ hmiss]

/-- A task whose result starts as what it is when nothing is found. -/
theorem runOnMainThread_default (moment : Moment ι) {initial : α} {task : Task ι α}
    (h : task.Unfound found initial)
    (hmiss : moment.scheduling.Runs → ¬found moment.core moment.idManager) :
    ∃ ran, runOnMainThread initial moment task = ⟨initial, ran, []⟩ := by
  by_cases hruns : moment.scheduling.Runs
  · exact ⟨true, runOnMainThread_of_missed h hruns (hmiss hruns)⟩
  · exact ⟨false, runOnMainThread_of_not_runs hruns⟩

theorem runIssuing_default (scene : Scene ι) {initial : α} {task : IdM (α × List (Call ι))}
    (h : ¬found scene.core scene.session.manager →
      task scene.session = some ((initial, []), scene.session))
    (hmiss : scene.scheduling.Runs → ¬found scene.core scene.session.manager) :
    ∃ ran, ∀ answer : TaskResult ι α → Outcome ι,
      (runIssuing initial scene.scheduling task >>= fun done => pure (answer done))
        scene.session = some (answer ⟨initial, ran, []⟩, scene.session) := by
  cases hscheduling : scene.scheduling with
  | noService | executed _ =>
    rw [hscheduling] at hmiss
    refine ⟨true, ?_⟩
    intro answer
    change ((task scene.session).bind _).bind _ = _
    rw [h (hmiss trivial)]
    rfl
  | refused _ => exact ⟨false, fun answer => rfl⟩

theorem answerFound_findsNothing {ran : Bool} {reply : α → Json} :
    (answerFound (.rpcError code message) reply ⟨none, ran, []⟩ : Outcome ι).FindsNothing code :=
  ⟨rfl, rfl⟩

end Answers

end RemoteControl
