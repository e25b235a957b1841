import RemoteControl.Commands.HeldReferences
import RemoteControl.Commands.TrackIds
import RemoteControl.Lib.Transition
import RemoteControl.Upload.UploadTrack

/-!
# The references of a server

Requests run their tasks on the main thread one after another; the threads of Lyrics and
of the covers hold a file info meanwhile. Whatever the order, nothing is used or given back
that is not held, and what is held are the file infos of the requests that still run.
-/

namespace RemoteControl.Counted

open References

variable {σ ι : Type} {held : Multiset Nat}

/-! ## Uploads -/

section upload

variable (core : Core ι) (idManager : RemoteControlIdManager)

/-- The check for the playlist, of the upload handler. -/
def playlistExists (playlistId : PluginId) : Counted σ Bool := do
  let playlist ← findPlaylist core idManager playlistId
  releaseIf playlist
  pure playlist.isSome

/-- The tags of a file; an info that cannot be read is as good as none. -/
def tagsOf (service : Ref (Bytes → Option FileInfo)) (file : Bytes) :
    Counted σ (Bytes × Bytes) := do
  let uri ← stringToIAIMPString core file
  withRef uri (pure ([], [])) fun uri => do
    let name ← iaimpStringToString uri
    let info ← query service fun read => read name
    withRef info (pure ([], [])) fun info => do
      let artist ← getPropertyAsString (some info) FileInfo.artist
      let title ← getPropertyAsString (some info) FileInfo.title
      pure (artist, title)

def artistAndTitle (file : Bytes) : Counted σ (Bytes × Bytes) := do
  let service ← take core.fileInfoService
  withRef service (pure ([], [])) fun service => tagsOf core service file

/-- `TagBasedName`. -/
def tagBasedName (file : Bytes) : Counted σ Bytes := do
  let (artist, title) ← artistAndTitle core file
  if title = [] then pure []
  else pure (sanitizeFileName (if artist = [] then title else artist ++ ascii " - " ++ title))

variable {core idManager}

theorem playlistExists_balanced (playlistId : PluginId) :
    Balanced (σ := σ) (playlistExists core idManager playlistId)
      (pure (RemoteControl.findPlaylist core idManager playlistId).isSome) := by
  intro held
  refine Meets.step (findPlaylist_gives core idManager playlistId) fun playlist now hgiven => ?_
  refine Meets.step (Meets.releaseIf hgiven.eq_tokens) ?_
  rintro _ _ rfl
  refine Meets.pure ⟨?_, rfl⟩
  rw [← hgiven.object, Option.isSome_map]

/-- What the plain program reads of the tags. -/
def plainTags (core : Core ι) (file : Bytes) : Option FileInfo :=
  match core.fileInfoService with
  | none => none
  | some service => if core.createString file then service file else none

theorem artistAndTitle_returns (file : Bytes) :
    Returns (σ := σ) held (artistAndTitle core file)
      (pure (((plainTags core file).bind FileInfo.artist).getD [],
        ((plainTags core file).bind FileInfo.title).getD [])) := by
  unfold plainTags
  refine Returns.withRef (Gives.take _) ?_ ?_
  · intro hnone
    rw [hnone]
    exact Returns.pure _
  · intro service token hsome
    simp only [hsome]
    refine Returns.withRef (stringToIAIMPString_gives core file) ?_ ?_
    · intro hnone
      simp only [newString_eq_none.mp hnone]
      exact Returns.pure _
    · intro uri token' huri
      obtain ⟨hcreate, rfl⟩ := newString_eq_some.mp huri
      rw [if_pos hcreate]
      refine Returns.call_step mem_top ?_
      refine Returns.withRef (Gives.query _ (mem_below mem_top)) ?_ ?_
      · intro hnone
        have hread : service file = none := hnone
        rw [hread]
        exact Returns.pure _
      · intro info token'' hinfo
        have hread : service file = some info := hinfo
        have hmem : ∀ ref ∈ some (⟨info, token''⟩ : Ref FileInfo),
            ref.token ∈ token'' ::ₘ token' ::ₘ token ::ₘ held := by
          rintro _ ⟨⟩
          exact mem_top
        rw [hread]
        refine Returns.step (getPropertyAsString_returns FileInfo.artist hmem) ?_
        refine Returns.step (getPropertyAsString_returns FileInfo.title hmem) ?_
        exact Returns.pure _

theorem tagBasedName_balanced (file : Bytes) :
    Balanced (σ := σ) (tagBasedName core file) (pure (RemoteControl.tagBasedName core file)) := by
  intro held
  unfold RemoteControl.tagBasedName
  refine Returns.step (artistAndTitle_returns file) ?_
  exact Returns.ite (fun _ => Returns.pure _) fun _ => Returns.pure _

end upload

/-! ## Requests -/

/-- The tasks that keep nothing, of uploads and of the commands that look for playlists and
tracks. The tasks of Status, GetFormats, BrowseFiles, Pause, Stop, Equalizer, ShowMessage and
of the sleep timer are not among them. -/
inductive Request (ι : Type)
  | addFiles (playlistId : PluginId) (fileUris : List Bytes)
  | rename (playlistId : PluginId) (newName : Bytes)
  | removePlaylist (playlistId : PluginId)
  | createPlaylist (title : Bytes)
  | playlistExists (playlistId : PluginId)
  | enqueue (trackId : PluginId) (atBeginning : Bool)
  | dequeue (trackId : PluginId)
  | removeTrack (trackId : PluginId) (physically : Bool)
  | setRating (trackId : PluginId) (rating : Rat)
  | setEnabled (trackId : PluginId) (enabled : Bool)
  | play (trackId : PluginId)
  | switchTrack (goTo : Operation ι) (delta : Int) (answer : HRESULT)
  | controlPanel
  | playlists (fields : List Bytes)
  | playlistEntries (fields : List Bytes) (search : Bytes) (byPlaylist : Option PluginId)
  | queuedEntries (fields : List Bytes)
  | entryInfo (trackId : PluginId)
  | tagBasedName (file : Bytes)

/-- What a task answers. -/
def Request.Answer : Request ι → Type
  | .addFiles .. | .rename .. | .removePlaylist .. | .enqueue .. | .dequeue .. | .removeTrack .. =>
    HRESULT × List (Call ι)
  | .createPlaylist .. | .tagBasedName .. => Bytes
  | .playlistExists .. => Bool
  | .setRating .. => Option Rat × List (Call ι)
  | .setEnabled .. => Bool × List (Call ι)
  | .play .. => Option (Bytes × PluginId × PluginId) × List (Call ι)
  | .switchTrack .. => SwitchResult ι × List (Call ι)
  | .controlPanel => Option (PlayerPanel ι)
  | .playlists .. => List PlaylistJson
  | .playlistEntries .. | .queuedEntries .. => Json
  | .entryInfo .. => Option Json

variable (core : Core ι) (controls : PlayerControls ι)

/-- A task that only looks ids up. -/
def lookingUp {α : Type} (task : RemoteControlIdManager → Counted IdSession α) :
    Counted IdSession α := do
  let session ← plainly get
  task session.manager

def Request.counted : (request : Request ι) → Counted IdSession request.Answer
  | .addFiles playlistId fileUris =>
    lookingUp fun ids => Counted.addFilesToPlaylist core ids playlistId fileUris
  | .rename playlistId newName => lookingUp fun ids => renameTask core ids playlistId newName
  | .removePlaylist playlistId => lookingUp fun ids => removePlaylistTask core ids playlistId
  | .createPlaylist title => createPlaylistBody core title
  | .playlistExists playlistId => lookingUp fun ids => Counted.playlistExists core ids playlistId
  | .enqueue trackId atBeginning => lookingUp fun ids => enqueueTask core ids trackId atBeginning
  | .dequeue trackId => lookingUp fun ids => dequeueTask core ids trackId
  | .removeTrack trackId physically =>
    lookingUp fun ids => removeTrackTask core ids trackId physically
  | .setRating trackId rating => lookingUp fun ids => setRatingTask core ids controls trackId rating
  | .setEnabled trackId enabled =>
    lookingUp fun ids => setEnabledTask core ids controls trackId enabled
  | .play trackId => playTask core controls trackId
  | .switchTrack goTo delta answer => switchTask core goTo delta answer
  | .controlPanel => buildState core
  | .playlists fields => buildPlaylists core fields
  | .playlistEntries fields search byPlaylist => getPlaylistEntries core fields search byPlaylist
  | .queuedEntries fields => getQueuedEntries core fields
  | .entryInfo trackId => entryInfoTask core trackId
  | .tagBasedName file => Counted.tagBasedName core file

/-- The same, of the model without references. -/
def plainLookingUp {α : Type} (task : Task ι α) : IdM (α × List (Call ι)) := do
  let session ← get
  pure (task core session.manager)

def Request.plain : (request : Request ι) → IdM request.Answer
  | .addFiles playlistId fileUris =>
    plainLookingUp core (RemoteControl.addFilesToPlaylist playlistId fileUris)
  | .rename playlistId newName => plainLookingUp core (RemoteControl.renameTask playlistId newName)
  | .removePlaylist playlistId => plainLookingUp core (RemoteControl.removePlaylistTask playlistId)
  | .createPlaylist title =>
    pure (RemoteControl.getPlaylistAIMPId (RemoteControl.createPlaylistBody core title))
  | .playlistExists playlistId => do
    let session ← get
    pure (RemoteControl.findPlaylist core session.manager playlistId).isSome
  | .enqueue trackId atBeginning =>
    plainLookingUp core (RemoteControl.enqueueTask trackId atBeginning)
  | .dequeue trackId => plainLookingUp core (RemoteControl.dequeueTask trackId)
  | .removeTrack trackId physically =>
    plainLookingUp core (RemoteControl.removeTrackTask trackId physically)
  | .setRating trackId rating =>
    plainLookingUp core (RemoteControl.setRatingTask controls trackId rating)
  | .setEnabled trackId enabled =>
    plainLookingUp core (RemoteControl.setEnabledTask controls trackId enabled)
  | .play trackId => RemoteControl.playTask controls core trackId
  | .switchTrack goTo delta answer => RemoteControl.switchTask goTo delta answer core
  | .controlPanel => RemoteControl.buildState core
  | .playlists fields => List.map Prod.snd <$> RemoteControl.buildPlaylists core fields
  | .playlistEntries fields search byPlaylist =>
    EntriesReply.json core fields <$> RemoteControl.getPlaylistEntries core search byPlaylist
  | .queuedEntries fields => EntriesReply.json core fields <$> RemoteControl.getQueuedEntries core
  | .entryInfo trackId =>
    (fun done => done.1.map (infoJson core)) <$> RemoteControl.entryInfoTask core trackId
  | .tagBasedName file => pure (RemoteControl.tagBasedName core file)

variable {core controls}

theorem lookingUp_balanced {α : Type}
    {task : RemoteControlIdManager → Counted IdSession (α × List (Call ι))} {plain : Task ι α}
    (h : ∀ ids, Balanced (task ids) (pure (plain core ids))) :
    Balanced (lookingUp task) (plainLookingUp core plain) := fun held =>
  Returns.both (Returns.plainly _) fun session => h session.manager held

theorem Request.balanced (core : Core ι) (controls : PlayerControls ι) (request : Request ι) :
    Balanced (request.counted core controls) (request.plain core controls) := by
  cases request with
  | addFiles playlistId fileUris =>
    exact lookingUp_balanced fun ids => addFilesToPlaylist_balanced playlistId fileUris
  | rename playlistId newName =>
    exact lookingUp_balanced fun ids => renameTask_balanced playlistId newName
  | removePlaylist playlistId =>
    exact lookingUp_balanced fun ids => removePlaylistTask_balanced playlistId
  | createPlaylist title => exact createPlaylistBody_balanced title
  | playlistExists playlistId =>
    exact fun held => Returns.both (Returns.plainly _) fun session =>
      playlistExists_balanced playlistId held
  | enqueue trackId atBeginning =>
    exact lookingUp_balanced fun ids => enqueueTask_balanced trackId atBeginning
  | dequeue trackId => exact lookingUp_balanced fun ids => dequeueTask_balanced trackId
  | removeTrack trackId physically =>
    exact lookingUp_balanced fun ids => removeTrackTask_balanced trackId physically
  | setRating trackId rating =>
    exact lookingUp_balanced fun ids => setRatingTask_balanced trackId rating
  | setEnabled trackId enabled =>
    exact lookingUp_balanced fun ids => setEnabledTask_balanced trackId enabled
  | play trackId => exact playTask_balanced trackId
  | switchTrack goTo delta answer => exact switchTask_balanced goTo delta answer
  | controlPanel => exact buildState_balanced
  | playlists fields => exact buildPlaylists_balanced fields
  | playlistEntries fields search byPlaylist =>
    exact getPlaylistEntries_balanced fields search byPlaylist
  | queuedEntries fields => exact getQueuedEntries_balanced fields
  | entryInfo trackId => exact entryInfoTask_balanced trackId
  | tagBasedName file => exact tagBasedName_balanced file

/-- A request, and the player it finds. -/
structure Turn (ι : Type) where
  core : Core ι
  controls : PlayerControls ι
  request : Request ι

/-- The tasks of a run, one after another. -/
def countedRun : List (Turn ι) → Counted IdSession (List (Σ request : Request ι, request.Answer))
  | [] => pure []
  | turn :: turns => do
    let answer ← turn.request.counted turn.core turn.controls
    let answers ← countedRun turns
    pure (⟨turn.request, answer⟩ :: answers)

def plainRun : List (Turn ι) → IdM (List (Σ request : Request ι, request.Answer))
  | [] => pure []
  | turn :: turns => do
    let answer ← turn.request.plain turn.core turn.controls
    let answers ← plainRun turns
    pure (⟨turn.request, answer⟩ :: answers)

/-- In every run of tasks, whatever the player has become in between: they give back what
they get, use nothing they do not hold, and answer what the model without references
answers, with the ids it issues. -/
theorem requests_balanced (turns : List (Turn ι)) :
    Balanced (countedRun turns) (plainRun turns) := by
  induction turns with
  | nil => exact fun held => Returns.pure _
  | cons turn turns ih =>
    intro held
    refine Returns.both (turn.request.balanced turn.core turn.controls held) fun answer => ?_
    refine Returns.both (ih held) fun answers => ?_
    exact Returns.pure _

/-! ## A server at work -/

/-- A request that holds a file info for a service. -/
inductive Pending (ι : Type)
  | lyrics (text : Bytes) (fileInfo : Ref ι)
  | cover (fileInfo : Ref ι)

def Pending.token : Pending ι → Nat
  | .lyrics _ fileInfo | .cover fileInfo => fileInfo.token

structure Server (ι : Type) where
  ledger : Ledger
  ids : IdSession
  pending : List (Pending ι)
  /-- How many downloads were told a part without its container. -/
  losses : Nat

def Server.init : Server ι := ⟨.empty, .empty, [], 0⟩

/-- The services as the thread of a request finds them. -/
structure Services (ι : Type) where
  calls : LyricsCalls
  lyrics : LyricsSources ι
  albumArt : Bool
  art : AlbumArt ι

/-- What happens next, with the player as it then is: one of these tasks, the first half of
Lyrics, of a cover or of a download, or the second half of one of the first two. -/
inductive ServerAction (ι : Type)
  | request (core : Core ι) (controls : PlayerControls ι) (request : Request ι)
  | lyrics (core : Core ι) (services : Services ι) (trackId : PluginId)
  | cover (core : Core ι) (trackId : PluginId)
  | download (core : Core ι) (parse : Bytes → ParseAnswer) (trackId : PluginId)
  /-- The thread of the `i`-th pending request gets to its end. -/
  | finish (i : Nat) (services : Services ι)

/-- Run a program in a server; `none` when it never ends. -/
def Server.exec {α : Type} (s : Server ι) (p : Counted IdSession α)
    (pending : α → List (Pending ι)) : Option (Except Fault (Server ι)) :=
  (p s.ledger s.ids).map fun (result, ids) =>
    result.map fun (a, ledger) => { s with ledger, ids, pending := pending a }

/-- What the thread of a request still has to do. -/
def Pending.finish (services : Services ι) : Pending ι → Counted IdSession Unit
  | .lyrics text fileInfo => do
    let _ ← finishLyrics services.calls services.lyrics text fileInfo
    pure ()
  | .cover fileInfo => do
    let _ ← finishCover services.art services.albumArt fileInfo
    pure ()

/-- The outcome of an action; `none` when it cannot happen or never ends. -/
def Server.outcome (s : Server ι) : ServerAction ι → Option (Except Fault (Server ι))
  | .request core controls request => s.exec (request.counted core controls) fun _ => s.pending
  | .lyrics core services trackId =>
    s.exec (lyricsTask core s.ids.manager services.calls services.lyrics trackId)
      fun answer => s.pending ++ (answer.2.map (Pending.lyrics answer.1)).toList
  | .cover core trackId =>
    s.exec (trackFileInfo core s.ids.manager trackId)
      fun fileInfo => s.pending ++ (fileInfo.map Pending.cover).toList
  | .download core parse trackId =>
    { s with losses := s.losses + lossesOf (parsed core s.ids.manager parse trackId) }.exec
      (Counted.localFileName core s.ids.manager parse trackId) fun _ => s.pending
  | .finish i services =>
    match s.pending[i]? with
    | none => none
    | some pending => s.exec (pending.finish services) fun _ => s.pending.eraseIdx i

def Server.step (s : Server ι) (action : ServerAction ι) : Option (Server ι) :=
  match s.outcome action with
  | some (.ok t) => some t
  | _ => none

/-- What is held are the file infos of the pending requests, and what the downloads lost. -/
def Server.Settled (s : Server ι) : Prop :=
  ∃ lost : Multiset Nat, lost.card = s.losses ∧
    s.ledger.held = lost + Multiset.ofList (s.pending.map Pending.token)

theorem Server.exec_eq_some {α β : Type} {s : Server ι} {p : Counted IdSession β}
    {plain : IdM α} {post : α → β → Multiset Nat → Prop} {pending : β → List (Pending ι)}
    {result : Except Fault (Server ι)} (hp : Meets s.ledger.held p plain post)
    (h : s.exec p pending = some result) :
    ∃ a b t, result = .ok t ∧ post a b t.ledger.held ∧ t.pending = pending b ∧
      t.losses = s.losses := by
  obtain ⟨⟨answer, ids⟩, hrun, rfl⟩ := Option.map_eq_some_iff.mp h
  obtain ⟨a, b, ledger, -, rfl, hpost⟩ := hp.run hrun
  exact ⟨a, b, _, rfl, hpost, rfl, rfl⟩

/-- A task that keeps what it answers, and a request that then holds it. -/
theorem Server.Settled.append {α : Type} {s t : Server ι} {answer : Option α}
    {ref : Option (Ref α)} {make : Ref α → Pending ι} (hs : s.Settled)
    (hmake : ∀ ref, (make ref).token = ref.token)
    (h : Given s.ledger.held answer ref t.ledger.held)
    (hpending : t.pending = s.pending ++ (ref.map make).toList) (hlosses : t.losses = s.losses) :
    t.Settled := by
  obtain ⟨lost, hcard, hheld⟩ := hs
  have htoken : Multiset.ofList ((ref.map make).toList.map Pending.token) = tokens ref := by
    cases ref with
    | none => rfl
    | some ref => rw [Option.map_some, Option.toList_some, List.map_singleton, hmake]; rfl
  refine ⟨lost, hcard.trans hlosses.symm, ?_⟩
  rw [hpending, h.eq_tokens, hheld, List.map_append, ← Multiset.coe_add, htoken,
    Multiset.add_comm, Multiset.add_assoc]

theorem Pending.finish_meets {now rest : Multiset Nat} (services : Services ι)
    (pending : Pending ι) (h : now = pending.token ::ₘ rest) :
    ∃ plain : IdM Unit,
      Meets now (pending.finish services) plain fun _ _ after => after = rest := by
  cases pending with
  | lyrics text fileInfo =>
    refine ⟨pure (), Meets.step (finishLyrics_meets h) ?_⟩
    rintro _ _ ⟨rfl, rfl⟩
    exact Meets.pure rfl
  | cover fileInfo =>
    refine ⟨pure (), Meets.step (finishCover_meets h) ?_⟩
    rintro _ _ ⟨rfl, rfl⟩
    exact Meets.pure rfl

/-- No action faults, and what is held stays what the pending requests hold. -/
theorem Server.outcome_settled {s : Server ι} {action : ServerAction ι}
    {result : Except Fault (Server ι)} (hs : s.Settled) (h : s.outcome action = some result) :
    ∃ t, result = .ok t ∧ t.Settled := by
  cases action with
  | request core controls request =>
    rw [Server.outcome] at h
    obtain ⟨a, b, t, rfl, ⟨-, hheld⟩, hpending, hlosses⟩ :=
      Server.exec_eq_some (request.balanced core controls _) h
    refine ⟨t, rfl, ?_⟩
    unfold Server.Settled
    rw [hheld, hpending, hlosses]
    exact hs
  | lyrics core services trackId =>
    rw [Server.outcome] at h
    obtain ⟨a, b, t, rfl, ⟨-, hheld⟩, hpending, hlosses⟩ :=
      Server.exec_eq_some (lyricsTask_meets trackId) h
    exact ⟨t, rfl, hs.append (fun _ => rfl) hheld hpending hlosses⟩
  | cover core trackId =>
    rw [Server.outcome] at h
    obtain ⟨a, b, t, rfl, hheld, hpending, hlosses⟩ :=
      Server.exec_eq_some (trackFileInfo_gives trackId) h
    exact ⟨t, rfl, hs.append (fun _ => rfl) hheld hpending hlosses⟩
  | download core parse trackId =>
    rw [Server.outcome] at h
    obtain ⟨lost, hcard, hheld⟩ := hs
    obtain ⟨a, b, t, rfl, ⟨-, more, hmore, hafter⟩, hpending, hlosses⟩ :=
      Server.exec_eq_some (localFileName_loses (fun _ => true) trackId) h
    refine ⟨t, rfl, more + lost, ?_, ?_⟩
    · rw [hlosses, Multiset.card_add, hmore.card, hcard, Nat.add_comm]
    · rw [hafter, hpending, hheld, Multiset.add_assoc]
  | finish i services =>
    rw [Server.outcome] at h
    split at h
    · cases h
    · next pending hi =>
      obtain ⟨lost, hcard, hheld⟩ := hs
      obtain ⟨hlt, hget⟩ := List.getElem?_eq_some_iff.mp hi
      have hperm := (List.getElem_cons_eraseIdx_perm hlt).symm.map Pending.token
      rw [hget, List.map_cons] at hperm
      have hnow : s.ledger.held = pending.token ::ₘ
          (lost + Multiset.ofList ((s.pending.eraseIdx i).map Pending.token)) := by
        rw [hheld, Multiset.coe_eq_coe.mpr hperm, ← Multiset.cons_coe, Multiset.add_cons]
      obtain ⟨plain, hfinish⟩ := pending.finish_meets services hnow
      obtain ⟨a, b, t, rfl, hafter, hpending, hlosses⟩ := Server.exec_eq_some hfinish h
      refine ⟨t, rfl, lost, hcard.trans hlosses.symm, ?_⟩
      rw [hafter, hpending]

/-- In every state a server can reach, whatever the player answers meanwhile, it holds the
file infos of its pending requests and one reference for each download that was told a part
without its container; and nothing it can do next uses or gives back what it does not
hold. -/
theorem references_settled {s : Server ι} (h : Transition.Reachable Server.step .init s) :
    (∃ lost : Multiset Nat, lost.card = s.losses ∧
      s.ledger.held = lost + Multiset.ofList (s.pending.map Pending.token)) ∧
      ∀ action fault, s.outcome action ≠ some (.error fault) := by
  have hsettled : s.Settled := by
    refine h.invariant (I := Server.Settled) ⟨0, rfl, rfl⟩ ?_
    intro s action t hs hst
    unfold Server.step at hst
    split at hst
    · next t' houtcome =>
      cases hst
      obtain ⟨_, ⟨⟩, ht⟩ := Server.outcome_settled hs houtcome
      exact ht
    · cases hst
  refine ⟨hsettled, fun action fault houtcome => ?_⟩
  obtain ⟨t, herror, -⟩ := Server.outcome_settled hsettled houtcome
  cases herror

/-- A player whose items have a file. -/
def sampleFiles : Core Nat :=
  { samplePlayer with
    itemFileInfo := fun _ =>
      some ⟨none, none, none, none, none, none, none, none, none, none⟩
    itemFileName := fun _ => some (ascii "/a.mp3")
    fileUriService := some ⟨fun _ => none, fun _ => none, fun _ => false⟩ }

def sampleServices : Services Nat :=
  ⟨⟨true, true, fun _ => true, true⟩, ⟨fun _ => [], fun _ => [], fun _ => []⟩, true,
    ⟨true, fun _ => some (some ⟨some [1]⟩, none)⟩⟩

/-- The id of the queued item. -/
def sampleTrack : PluginId :=
  RemoteControlIdManager.homeId (RemoteControlIdManager.itemSeed ⟨ascii "P1", 1⟩)

/-- Lyrics and a cover at the same time, the cover done first, and a part without its
container. -/
theorem references_settled_sample :
    ∃ s, Transition.run Server.step (.init : Server Nat) [
        .request sampleFiles ⟨fun _ => sOk, fun _ _ => sOk, fun _ _ => none, fun _ _ => sOk⟩
          (.queuedEntries [ascii "id"]),
        .lyrics sampleFiles sampleServices sampleTrack, .cover sampleFiles sampleTrack,
        .finish 1 sampleServices,
        .download sampleFiles (fun _ => some (none, some (ascii "1"))) sampleTrack] = some s ∧
      (s.pending.length = 1 ∧ s.losses = 1) ∧
      (∃ lost : Multiset Nat, lost.card = s.losses ∧
        s.ledger.held = lost + Multiset.ofList (s.pending.map Pending.token)) ∧
        ∀ action fault, s.outcome action ≠ some (.error fault) := by
  obtain ⟨s, hs⟩ := Option.isSome_iff_exists.mp
    (show ((Transition.run Server.step (.init : Server Nat) [
        .request sampleFiles ⟨fun _ => sOk, fun _ _ => sOk, fun _ _ => none, fun _ _ => sOk⟩
          (.queuedEntries [ascii "id"]),
        .lyrics sampleFiles sampleServices sampleTrack, .cover sampleFiles sampleTrack,
        .finish 1 sampleServices,
        .download sampleFiles (fun _ => some (none, some (ascii "1"))) sampleTrack]).filter
          fun s => s.pending.length = 1 ∧ s.losses = 1).isSome = true by decide +kernel)
  obtain ⟨hrun, hsample⟩ := Option.filter_eq_some_iff.mp hs
  exact ⟨s, hrun, of_decide_eq_true hsample, references_settled ⟨_, hrun⟩⟩

end RemoteControl.Counted
