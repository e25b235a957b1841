import RemoteControl.Commands.Covers
import RemoteControl.Commands.ListingReferences

/-!
# References that outlive their task

Lyrics and the covers hand a file info from the main thread to the thread of the request,
which asks a service with it and gives it back. LocalFileName, of a download, is the one
function that can lose a reference.
-/

namespace RemoteControl.Counted

open References

variable {σ ι : Type} {held : Multiset Nat}
variable (core : Core ι) (idManager : RemoteControlIdManager)

/-! ## Lyrics -/

/-- Which of the calls that lead to lyrics succeed. -/
structure LyricsCalls where
  /-- Whether there is an `IAIMPServiceFileInfo`. -/
  fileInfoService : Bool
  /-- Whether `CreateObject(IID_IAIMPFileInfo)` gives an object. -/
  createFileInfo : Bool
  /-- Whether `GetFileInfoFromFileURI` fills it. -/
  readFile : Bytes → Bool
  /-- Whether there is an `IAIMPServiceLyrics`. -/
  lyricsService : Bool

/-- What the sources come to with these calls. -/
def LyricsCalls.sources (calls : LyricsCalls) (sources : LyricsSources ι) : LyricsSources ι where
  ofItem := sources.ofItem
  ofFile uri :=
    if calls.fileInfoService ∧ calls.createFileInfo ∧ calls.readFile uri then sources.ofFile uri
    else []
  ofService item := if calls.lyricsService then sources.ofService item else []

/-- An object that is there or not. -/
def present (there : Bool) : Option Unit := if there then some () else none

/-- A text that cannot be read is empty. -/
def textOf (text : Bytes) : Option Bytes := if text = [] then none else some text

/-- `AIMP_PLAYLISTITEM_PROPID_FILEINFO`; the item stands for its file info. -/
def fileInfoOf (item : Ref ι) : Counted σ (Option (Ref ι)) :=
  query item fun item => (core.itemFileInfo item).map fun _ => item

variable (calls : LyricsCalls) (sources : LyricsSources ι)

/-- The lyrics of the item's own file info. -/
def lyricsOfItem (item : Ref ι) : Counted σ Bytes := do
  let info ← fileInfoOf core item
  withRef info (pure []) fun info =>
    getPropertyAsString (some info) fun item => textOf (sources.ofItem item)

/-- The lyrics of a file info that is read from the file. -/
def lyricsOfFile (uri : Ref Bytes) : Counted σ Bytes := do
  let service ← take (present calls.fileInfoService)
  withRef service (pure []) fun service => do
    let full ← take (present calls.createFileInfo)
    withRef full (pure []) fun full => do
      let uri ← iaimpStringToString uri
      let read ← call service fun _ => calls.readFile uri
      if read then getPropertyAsString (some full) fun _ => textOf (sources.ofFile uri)
      else pure []

/-- `LyricsFromTags`. -/
def lyricsFromTags (item : Ref ι) : Counted σ Bytes := do
  let text ← lyricsOfItem core sources item
  if text ≠ [] then pure text
  else do
    let uri ← query item core.itemFileName
    withRef uri (pure text) (lyricsOfFile calls sources)

/-- The task of Lyrics: the text, and the file info for the service. -/
def lyricsTask (trackId : PluginId) : Counted σ (Bytes × Option (Ref ι)) := do
  let item ← findItem core idManager trackId
  withRef item (pure ([], none)) fun item => do
    let text ← lyricsFromTags core calls sources item
    let info ← fileInfoOf core item
    pure (text, info)

/-- `LyricsFromService`, with the string its callback gets. -/
def lyricsFromService (fileInfo : Ref ι) : Counted σ Bytes := do
  let service ← take (present calls.lyricsService)
  withRef service (pure []) fun service => do
    let item ← call fileInfo fun item => item
    let s ← query service fun _ => textOf (sources.ofService item)
    withRef s (pure []) iaimpStringToString

/-- What the request's own thread does with the file info. -/
def finishLyrics (text : Bytes) (fileInfo : Ref ι) : Counted σ Bytes :=
  releasing fileInfo (if text = [] then lyricsFromService calls sources fileInfo else pure text)

/-! ## Covers -/

/-- `TrackFileInfo`. -/
def trackFileInfo (trackId : PluginId) : Counted σ (Option (Ref ι)) := do
  let item ← findItem core idManager trackId
  withRef item (pure none) (fileInfoOf core)

variable (art : AlbumArt ι)

/-- `EncodePng`. -/
def encodePng (image : Image) : Counted σ (Option HttpContent) := do
  let stream ← take (present art.createStream)
  withRef stream (pure none) fun stream => call stream fun _ =>
    match image.saveToStream with
    | some (c :: data) => some { contentType := ascii "image/png", body := c :: data }
    | _ => none

/-- `OnCoverReceived`; the image and the container belong to the caller. -/
def onCoverReceived (image : Option Image) (container : Option ImageContainer) :
    Counted σ (Option HttpContent) :=
  match container.bind rawContent with
  | some content => pure (some content)
  | none =>
    match image with
    | some image => encodePng art image
    | none => do
      let owned ← take (container.bind ImageContainer.createImage)
      withRef owned (pure none) fun owned => do
        let image ← call owned fun image => image
        encodePng art image

/-- Without the service nothing is got. -/
def albumArtOf (service : Bool) : AlbumArt ι :=
  if service then art else { art with get2 := fun _ => none }

/-- `Get2` with the flag that waits for the callback. -/
def coverOf (service : Bool) (fileInfo : Ref ι) : Counted σ (Option HttpContent) := do
  let service ← take (present service)
  withRef service (pure none) fun service => do
    let item ← call fileInfo fun item => item
    let answer ← call service fun _ => art.get2 item
    match answer with
    | none => pure none
    | some (image, container) => onCoverReceived art image container

/-- `LoadCover`, after the task. -/
def finishCover (service : Bool) (fileInfo : Ref ι) : Counted σ (Option HttpContent) :=
  releasing fileInfo (coverOf art service fileInfo)

/-! ## Downloads -/

/-- What `IAIMPServiceFileURI::Parse` answers: `none` when it fails. -/
abbrev ParseAnswer := Option (Option Bytes × Option Bytes)

def takeParts : ParseAnswer → Counted σ (Option (Ref Bytes) × Option (Ref Bytes))
  | none => pure (none, none)
  | some (container, part) => do
    let container ← take container
    let part ← take part
    pure (container, part)

/-- The name of the container, if there is one, else of the file; the part is given back
with the container. -/
def containerName (uri : Ref Bytes) (container part : Option (Ref Bytes)) : Counted σ Bytes :=
  match container with
  | some container => do
    let result ← iaimpStringToString container
    release container
    releaseIf part
    pure result
  | none => iaimpStringToString uri

/-- `LocalFileName`. -/
def localFileName (parse : Bytes → ParseAnswer) (trackId : PluginId) : Counted σ Bytes := do
  let item ← findItem core idManager trackId
  withRef item (pure []) fun item => do
    let uri ← query item core.itemFileName
    withRef uri (pure []) fun uri => do
      let fileUri ← take core.fileUriService
      withRef fileUri (pure []) fun fileUri => do
        let text ← iaimpStringToString uri
        let isUrl ← call fileUri fun fileUri => fileUri.isUrl text
        if isUrl then pure []
        else do
          let answer ← call fileUri fun _ => parse text
          let (container, part) ← takeParts answer
          containerName uri container part

/-! ## What they keep -/

variable {core idManager calls sources art}

@[simp] theorem getD_textOf (text : Bytes) : (textOf text).getD [] = text := by
  unfold textOf
  split
  · next h => exact h.symm
  · rfl

theorem present_eq_none {there : Bool} : present there = none ↔ there = false := by
  simp [present]

theorem present_eq_some {there : Bool} {object : Unit} :
    present there = some object ↔ there = true := by
  simp [present]

theorem fileInfoOf_gives {item : Ref ι} (h : item.token ∈ held) :
    Gives (σ := σ) held (fileInfoOf core item)
      ((core.itemFileInfo item.object).map fun _ => item.object) := Gives.query _ h

theorem lyricsOfItem_returns {item : Ref ι} (h : item.token ∈ held) :
    Returns (σ := σ) held (lyricsOfItem core sources item)
      (pure (if (core.itemFileInfo item.object).isSome then sources.ofItem item.object
        else [])) := by
  refine Returns.withRef (fileInfoOf_gives h) ?_ ?_
  · intro hnone
    rw [Option.map_eq_none_iff.mp hnone]
    exact Returns.pure _
  · intro info token hsome
    obtain ⟨fileInfo, hinfo, rfl⟩ := Option.map_eq_some_iff.mp hsome
    have htext := @getPropertyAsString_returns σ _ _ (some ⟨item.object, token⟩)
      (fun item => textOf (sources.ofItem item))
      (by rintro _ ⟨⟩; exact Multiset.mem_cons_self token held)
    simp only [Option.map_some, Option.bind_some, getD_textOf] at htext
    rw [hinfo]
    exact htext

theorem lyricsOfFile_returns {uri : Ref Bytes} (h : uri.token ∈ held) :
    Returns (σ := σ) held (lyricsOfFile calls sources uri)
      (pure ((calls.sources sources).ofFile uri.object)) := by
  unfold LyricsCalls.sources
  dsimp only
  refine Returns.withRef (Gives.take _) ?_ ?_
  · intro hnone
    rw [if_neg fun h => by simp [present_eq_none.mp hnone] at h]
    exact Returns.pure _
  · intro service token hsome
    refine Returns.withRef (Gives.take _) ?_ ?_
    · intro hnone
      rw [if_neg fun h => by simp [present_eq_none.mp hnone] at h]
      exact Returns.pure _
    · intro full token' hsome'
      refine Returns.call_step (mem_below (mem_below h)) ?_
      refine Returns.call_step (mem_below mem_top) ?_
      simp only [present_eq_some.mp hsome, present_eq_some.mp hsome', true_and]
      refine Returns.ite (fun _ => ?_) fun _ => Returns.pure _
      have htext := @getPropertyAsString_returns σ _ _ (some ⟨full, token'⟩)
        (fun _ => textOf (sources.ofFile uri.object))
        (by rintro _ ⟨⟩; exact Multiset.mem_cons_self token' (token ::ₘ held))
      simp only [Option.map_some, Option.bind_some, getD_textOf] at htext
      exact htext

theorem lyricsFromTags_returns {item : Ref ι} (h : item.token ∈ held) :
    Returns (σ := σ) held (lyricsFromTags core calls sources item)
      (pure (RemoteControl.lyricsFromTags (calls.sources sources) core item.object)) := by
  unfold RemoteControl.lyricsFromTags
  refine Returns.step (lyricsOfItem_returns h) ?_
  refine Returns.ite (fun _ => Returns.pure _) fun _ => ?_
  refine Returns.withRef (Gives.query _ h) ?_ ?_
  · intro hnone
    rw [hnone]
    exact Returns.pure _
  · intro uri token hsome
    rw [hsome]
    exact lyricsOfFile_returns mem_top

/-- The task keeps the file info it returns, and nothing else. -/
theorem lyricsTask_meets (trackId : PluginId) :
    Meets (σ := σ) held (lyricsTask core idManager calls sources trackId)
      (pure (RemoteControl.lyricsTask (calls.sources sources) trackId core idManager).1)
      fun plain counted after => counted.1 = plain.1 ∧ Given held plain.2 counted.2 after := by
  unfold RemoteControl.lyricsTask
  refine Meets.withRef (findItem_gives core idManager trackId) ?_ ?_
  · intro hnone
    rw [Option.map_eq_none_iff.mp hnone]
    exact Meets.pure ⟨rfl, .none⟩
  · intro item token hsome
    obtain ⟨⟨item, playlist⟩, hfound, rfl⟩ := Option.map_eq_some_iff.mp hsome
    simp only [hfound]
    refine Returns.step (lyricsFromTags_returns mem_top) ?_
    refine Meets.step (fileInfoOf_gives mem_top) ?_
    dsimp only
    cases core.itemFileInfo item with
    | none =>
      rintro _ _ ⟨⟩
      exact Meets.pure ⟨held, rfl, rfl, .none⟩
    | some fileInfo =>
      intro info after hgiven
      rw [Option.map_some] at hgiven
      cases hgiven with
      | some _ token' =>
        exact Meets.pure ⟨token' ::ₘ held, Multiset.cons_swap _ _ _, rfl, .some item token'⟩

theorem lyricsFromService_returns {fileInfo : Ref ι} (h : fileInfo.token ∈ held) :
    Returns (σ := σ) held (lyricsFromService calls sources fileInfo)
      (pure ((calls.sources sources).ofService fileInfo.object)) := by
  unfold LyricsCalls.sources
  dsimp only
  refine Returns.withRef (Gives.take _) ?_ ?_
  · intro hnone
    rw [if_neg fun h => by simp [present_eq_none.mp hnone] at h]
    exact Returns.pure _
  · intro service token hsome
    rw [if_pos (present_eq_some.mp hsome)]
    refine Returns.call_step (mem_below h) ?_
    refine Returns.withRef (Gives.query _ mem_top) ?_ ?_
    · intro hnone
      have htext := getD_textOf (sources.ofService fileInfo.object)
      rw [hnone] at htext
      rw [← htext]
      exact Returns.pure _
    · intro s token' hsome'
      have htext := getD_textOf (sources.ofService fileInfo.object)
      rw [hsome'] at htext
      rw [← htext]
      exact iaimpStringToString_returns mem_top

/-- The thread of the request gives the file info back. -/
theorem finishLyrics_meets {text : Bytes} {fileInfo : Ref ι} {now : Multiset Nat}
    (h : now = fileInfo.token ::ₘ held) :
    Meets (σ := σ) now (finishLyrics calls sources text fileInfo)
      (pure (if text = [] then (calls.sources sources).ofService fileInfo.object else text))
      fun plain counted after => counted = plain ∧ after = held := by
  refine Returns.releasing h (Returns.ite (fun _ => ?_) fun _ => Returns.pure _)
  exact lyricsFromService_returns (h ▸ Multiset.mem_cons_self _ _)

theorem trackFileInfo_gives (trackId : PluginId) :
    Gives (σ := σ) held (trackFileInfo core idManager trackId)
      (RemoteControl.trackFileInfo trackId core idManager).1 := by
  unfold RemoteControl.trackFileInfo
  refine Gives.withRef (findItem_gives core idManager trackId) ?_ ?_
  · intro hnone
    rw [Option.map_eq_none_iff.mp hnone]
    exact Gives.none
  · intro item token hsome
    obtain ⟨⟨item, playlist⟩, hfound, rfl⟩ := Option.map_eq_some_iff.mp hsome
    have hinfo : (if (core.itemFileInfo item).isSome then some item else none) =
        (core.itemFileInfo item).map fun _ => item := by
      cases core.itemFileInfo item with
      | none => rfl
      | some fileInfo => rfl
    simp only [hfound, hinfo]
    exact fileInfoOf_gives mem_top

theorem encodePng_returns (image : Image) :
    Returns (σ := σ) held (encodePng art image) (pure (RemoteControl.encodePng art image)) := by
  unfold RemoteControl.encodePng
  refine Returns.withRef (Gives.take _) ?_ ?_
  · intro hnone
    rw [if_neg fun h => by simp [present_eq_none.mp hnone] at h]
    exact Returns.pure _
  · intro stream token hsome
    rw [if_pos (present_eq_some.mp hsome)]
    exact Returns.call _ mem_top

theorem onCoverReceived_returns (image : Option Image) (container : Option ImageContainer) :
    Returns (σ := σ) held (onCoverReceived art image container)
      (pure (RemoteControl.onCoverReceived art image container)) := by
  unfold onCoverReceived RemoteControl.onCoverReceived
  cases container.bind rawContent with
  | some content => exact Returns.pure _
  | none =>
    cases image with
    | some image => exact encodePng_returns image
    | none =>
      rw [Option.none_or]
      refine Returns.withRef (Gives.take _) ?_ ?_
      · intro hnone
        rw [hnone]
        exact Returns.pure _
      · intro owned token hsome
        rw [hsome]
        exact Returns.call_step mem_top (encodePng_returns owned)

theorem coverOf_returns {service : Bool} {fileInfo : Ref ι} (h : fileInfo.token ∈ held) :
    Returns (σ := σ) held (coverOf art service fileInfo)
      (pure (match (albumArtOf art service).get2 fileInfo.object with
        | none => none
        | some (image, container) => RemoteControl.onCoverReceived art image container)) := by
  unfold albumArtOf
  refine Returns.withRef (Gives.take _) ?_ ?_
  · intro hnone
    rw [if_neg fun h => by simp [present_eq_none.mp hnone] at h]
    exact Returns.pure _
  · intro object token hsome
    rw [if_pos (present_eq_some.mp hsome)]
    refine Returns.call_step (mem_below h) ?_
    refine Returns.call_step mem_top ?_
    cases art.get2 fileInfo.object with
    | none => exact Returns.pure _
    | some answer => exact onCoverReceived_returns answer.1 answer.2

theorem loadCover_albumArtOf (service : Bool) (done : TaskResult ι (Option ι)) :
    loadCover (albumArtOf art service) done =
      match done.value with
      | none => none
      | some fileInfo =>
        match (albumArtOf art service).get2 fileInfo with
        | none => none
        | some (image, container) => RemoteControl.onCoverReceived art image container := by
  unfold loadCover albumArtOf
  cases service with
  | true => rfl
  | false => rfl

/-- The thread of the request gives the file info back. -/
theorem finishCover_meets {service : Bool} {fileInfo : Ref ι} {now : Multiset Nat}
    (h : now = fileInfo.token ::ₘ held) :
    Meets (σ := σ) now (finishCover art service fileInfo)
      (pure (loadCover (albumArtOf art service) ⟨some fileInfo.object, true, []⟩))
      fun plain counted after => counted = plain ∧ after = held := by
  rw [loadCover_albumArtOf]
  exact Returns.releasing h (coverOf_returns (h ▸ Multiset.mem_cons_self _ _))

/-! ## What a download loses -/

section download

variable {parse : Bytes → ParseAnswer}

/-- The local file of the track, and what `Parse` answers for it. -/
def parsed (core : Core ι) (idManager : RemoteControlIdManager) (parse : Bytes → ParseAnswer)
    (trackId : PluginId) : ParseAnswer :=
  match RemoteControl.findPlaylistItem core idManager trackId with
  | none => none
  | some (item, _) =>
    match core.itemFileName item, core.fileUriService with
    | some uri, some fileUri => if fileUri.isUrl uri then none else parse uri
    | _, _ => none

/-- What is lost: the part, when it comes without a container. -/
def Lost (answer : ParseAnswer) (lost : Multiset Nat) : Prop :=
  match answer with
  | some (none, some _) => ∃ token, lost = {token}
  | _ => lost = 0

/-- How many references that is. -/
def lossesOf : ParseAnswer → Nat
  | some (none, some _) => 1
  | _ => 0

theorem Lost.card {answer : ParseAnswer} {lost : Multiset Nat} (h : Lost answer lost) :
    lost.card = lossesOf answer := by
  unfold Lost at h
  split at h
  · obtain ⟨token, rfl⟩ := h
    exact Multiset.card_singleton token
  · next hother =>
    rw [h, Multiset.card_zero, lossesOf]
    exact hother

/-- What the plain download is told. -/
def localFilesOf (parse : Bytes → ParseAnswer) (isRegularFile : Bytes → Bool) : LocalFiles where
  container uri := (parse uri).bind Prod.fst
  isRegularFile := isRegularFile

theorem containerName_meets {uri : Ref Bytes} (answer : ParseAnswer) (h : uri.token ∈ held) :
    Loses (σ := σ) held (Lost answer) (takeParts answer >>= fun parts =>
      containerName uri parts.1 parts.2) (pure ((answer.bind Prod.fst).getD uri.object)) := by
  rcases answer with _ | ⟨container, part⟩
  · exact (iaimpStringToString_returns h).loses rfl
  · rw [takeParts, bind_assoc]
    refine Meets.step (Gives.take container) fun container' now hcontainer => ?_
    rw [bind_assoc]
    refine Meets.step (Gives.take part) fun part' after hpart => ?_
    rw [pure_bind]
    cases hcontainer with
    | none =>
      -- the part is not given back here
      refine Meets.weaken (iaimpStringToString_returns (Multiset.mem_of_le hpart.le h)) ?_
      rintro _ text _ ⟨rfl, rfl⟩
      cases hpart with
      | none => exact ⟨rfl, 0, rfl, (Multiset.zero_add _).symm⟩
      | some name token => exact ⟨rfl, {token}, ⟨token, rfl⟩, (Multiset.singleton_add _ _).symm⟩
    | some name token =>
      have hafter : after = token ::ₘ (tokens part' + held) := by
        rw [hpart.eq_tokens, Multiset.add_cons]
      refine Returns.call_step (hafter ▸ Multiset.mem_cons_self _ _) ?_
      refine Meets.step (Meets.release hafter) ?_
      rintro _ _ rfl
      refine Meets.step (Meets.releaseIf rfl) ?_
      rintro _ _ rfl
      exact Meets.pure ⟨rfl, 0, rfl, (Multiset.zero_add _).symm⟩

/-- A download loses the part of a file whose container it is not told, and nothing else. -/
theorem localFileName_loses (isRegularFile : Bytes → Bool) (trackId : PluginId) :
    Loses (σ := σ) held (Lost (parsed core idManager parse trackId))
      (localFileName core idManager parse trackId)
      (pure (RemoteControl.localFileName (localFilesOf parse isRegularFile) trackId core
        idManager).1) := by
  unfold RemoteControl.localFileName parsed
  refine Loses.withRef (findItem_gives core idManager trackId) ?_ ?_
  · intro hnone
    rw [Option.map_eq_none_iff.mp hnone]
    exact (Returns.pure _).loses rfl
  · intro item token hsome
    obtain ⟨⟨item, playlist⟩, hfound, rfl⟩ := Option.map_eq_some_iff.mp hsome
    simp only [hfound]
    refine Loses.withRef (Gives.query _ mem_top) ?_ ?_
    · intro hnone
      simp only [hnone]
      exact (Returns.pure _).loses rfl
    · intro uri token' huri
      refine Loses.withRef (Gives.take _) ?_ ?_
      · intro hnone
        simp only [huri, hnone]
        exact (Returns.pure _).loses rfl
      · intro fileUri token'' hservice
        simp only [huri, hservice]
        refine Returns.call_step (mem_below mem_top) ?_
        refine Returns.call_step mem_top ?_
        split
        · exact (Returns.pure _).loses rfl
        · refine Returns.call_step mem_top ?_
          exact containerName_meets (parse uri) (mem_below mem_top)

end download

end RemoteControl.Counted
