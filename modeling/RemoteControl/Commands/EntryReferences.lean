import RemoteControl.Commands.PanelReferences

/-!
# The listings, with their references

playlistEntryJson.cpp and the commands that list entries and playlists. A context holds a
file info and a file name from its constructor to its destructor, which runs after the item
is given back.
-/

namespace RemoteControl.Counted

open References

variable {σ ι : Type} {held : Multiset Nat}

/-! ## The context of an entry -/

/-- `PlaylistEntryContext`. -/
structure EntryContext (ι : Type) where
  fileUriService : Option (Ref FileUriService)
  item : Ref ι
  fileInfo : Option (Ref FileInfo)
  fileUri : Option (Ref Bytes)
  entryId : PluginId
  playlistId : PluginId
  queueIndex : Int

namespace EntryContext

/-- The context without the references. -/
def plain (ctx : EntryContext ι) : PlaylistEntryContext ι where
  fileUriService := ctx.fileUriService.map Ref.object
  item := ctx.item.object
  fileInfo := ctx.fileInfo.map Ref.object
  fileUri := ctx.fileUri.map Ref.object
  entryId := ctx.entryId
  playlistId := ctx.playlistId
  queueIndex := ctx.queueIndex

/-- Everything the context points to is held. -/
structure Held (held : Multiset Nat) (ctx : EntryContext ι) : Prop where
  fileUriService : ∀ ref ∈ ctx.fileUriService, ref.token ∈ held
  item : ctx.item.token ∈ held
  fileInfo : ∀ ref ∈ ctx.fileInfo, ref.token ∈ held
  fileUri : ∀ ref ∈ ctx.fileUri, ref.token ∈ held

variable (ctx : EntryContext ι)

/-- `ParentDirName` and `FileName`. -/
def extracted (extract : FileUriService → Bytes → Option Bytes) :
    Counted σ (Option (Ref Bytes)) :=
  match ctx.fileUriService, ctx.fileUri with
  | some service, some uri => do
    let uri ← iaimpStringToString uri
    query service fun service => extract service uri
  | _, _ => pure none

def parentDirName : Counted σ (Option (Ref Bytes)) :=
  ctx.extracted FileUriService.extractFileParentDirName

def fileName : Counted σ (Option (Ref Bytes)) := ctx.extracted FileUriService.extractFileName

def fileInfoString (property : FileInfo → Option Bytes) : Counted σ (Option (Ref Bytes)) :=
  match ctx.fileInfo with
  | none => pure none
  | some fileInfo => query fileInfo property

def fileInfoInt (property : FileInfo → Option Int) : Counted σ Int :=
  match ctx.fileInfo with
  | none => pure 0
  | some fileInfo => call fileInfo fun fileInfo => (property fileInfo).getD 0

/-- `TitleOrFileName`: an empty title is given back. -/
def titleOrFileName : Counted σ (Option (Ref Bytes)) := do
  let title ← ctx.fileInfoString FileInfo.title
  match title with
  | none => ctx.fileName
  | some title => do
    let text ← iaimpStringToString title
    if text ≠ [] then pure (some title)
    else do
      release title
      ctx.fileName

end EntryContext

/-- `ToStringAndRelease`. -/
def toStringAndRelease (s : Option (Ref Bytes)) : Counted σ Bytes :=
  withRef s (pure []) iaimpStringToString

variable (core : Core ι)

/-! ## The search -/

/-- `matches`, of `PlaylistEntryMatches`. -/
def hit (searchString : Ref Bytes) (s : Counted σ (Option (Ref Bytes))) : Counted σ Bool := do
  let s ← s
  withRef s (pure false) fun s => do
    let search ← iaimpStringToString searchString
    call s fun text =>
      match core.find text search with
      | none => false
      | some index => index ≥ 0

def anyHit (searchString : Ref Bytes) : List (Counted σ (Option (Ref Bytes))) → Counted σ Bool
  | [] => pure false
  | s :: others => do
    let found ← hit core searchString s
    if found then pure true else anyHit searchString others

/-- `PlaylistEntryMatches`. -/
def playlistEntryMatches (ctx : EntryContext ι) (searchString : Ref Bytes) : Counted σ Bool :=
  anyHit core searchString [ctx.titleOrFileName, ctx.fileInfoString FileInfo.artist,
    ctx.fileInfoString FileInfo.album, ctx.fileInfoString FileInfo.genre, ctx.parentDirName]

/-! ## The fields -/

/-- The title of a row: the tag, or what is left of the file name. -/
def titleField (ctx : EntryContext ι) : Counted σ Bytes := do
  let title ← ctx.fileInfoString FileInfo.title
  match title with
  | none => do
    let name ← ctx.fileName
    let name ← toStringAndRelease name
    pure (pathStem name)
  | some title => do
    let text ← iaimpStringToString title
    if text ≠ [] then toStringAndRelease (some title)
    else do
      release title
      let name ← ctx.fileName
      let name ← toStringAndRelease name
      pure (pathStem name)

/-- `PlaylistEntryField`. -/
def playlistEntryField (field : Bytes) (ctx : EntryContext ι) : Counted σ Json :=
  if field = ascii "id" then pure (.int ctx.entryId.toInt)
  else if field = ascii "playlist_id" then pure (.int ctx.playlistId.toInt)
  else if field = ascii "queue_index" then pure (.int ctx.queueIndex)
  else if field = ascii "title" then .str <$> titleField ctx
  else if field = ascii "artist" then .str <$> getPropertyAsString ctx.fileInfo FileInfo.artist
  else if field = ascii "album" then .str <$> getPropertyAsString ctx.fileInfo FileInfo.album
  else if field = ascii "genre" then .str <$> getPropertyAsString ctx.fileInfo FileInfo.genre
  else if field = ascii "filename" then do
    match ctx.fileUri with
    | none => pure (.str [])
    | some fileUri => .str <$> iaimpStringToString fileUri
  else if field = ascii "foldername" then do
    let name ← ctx.parentDirName
    .str <$> toStringAndRelease name
  else if field = ascii "bitrate" then .int <$> ctx.fileInfoInt FileInfo.bitrate
  else if field = ascii "channels_count" then .int <$> ctx.fileInfoInt FileInfo.channels
  else if field = ascii "samplerate" then .int <$> ctx.fileInfoInt FileInfo.samplerate
  else if field = ascii "date" then .str <$> getPropertyAsString ctx.fileInfo FileInfo.date
  else if field = ascii "filesize" then .int <$> ctx.fileInfoInt FileInfo.filesize
  else if field = ascii "duration" then
    match ctx.fileInfo with
    | none => pure (.int 0)
    | some fileInfo =>
      call fileInfo fun fileInfo => .int ((fileInfo.duration.getD 0).ceil * 1000)
  else if field = ascii "rating" then
    call ctx.item fun item => .float ((core.itemMark item).getD 0)
  else if field = ascii "enabled" then
    call ctx.item fun item => .bool ((core.itemPlayingSwitch item).getD 1 ≠ 0)
  else pure .null

def entryRow (ctx : EntryContext ι) : List Bytes → Counted σ (List Json)
  | [] => pure []
  | field :: fields => do
    let value ← playlistEntryField core field ctx
    let row ← entryRow ctx fields
    pure (value :: row)

/-! ## They end with what they began with -/

variable {core} {ctx : EntryContext ι}

namespace EntryContext

theorem extracted_gives (h : ctx.Held held) (extract : FileUriService → Bytes → Option Bytes) :
    Gives (σ := σ) held (ctx.extracted extract)
      (match ctx.plain.fileUriService, ctx.plain.fileUri with
      | some service, some uri => extract service uri
      | _, _ => none) := by
  rcases ctx with ⟨_ | service, item, fileInfo, _ | uri, entryId, playlistId, queueIndex⟩
  · exact Gives.none
  · exact Gives.none
  · exact Gives.none
  · refine Returns.call_step (h.fileUri uri rfl) ?_
    exact Gives.query (fun service => extract service uri.object) (h.fileUriService service rfl)

theorem parentDirName_gives (h : ctx.Held held) :
    Gives (σ := σ) held ctx.parentDirName ctx.plain.parentDirName :=
  extracted_gives h FileUriService.extractFileParentDirName

theorem fileName_gives (h : ctx.Held held) :
    Gives (σ := σ) held ctx.fileName ctx.plain.fileName :=
  extracted_gives h FileUriService.extractFileName

theorem fileInfoString_gives (h : ctx.Held held) (property : FileInfo → Option Bytes) :
    Gives (σ := σ) held (ctx.fileInfoString property) (ctx.plain.fileInfoString property) := by
  rcases ctx with ⟨service, item, _ | fileInfo, uri, entryId, playlistId, queueIndex⟩
  · exact Gives.none
  · exact Gives.query property (h.fileInfo fileInfo rfl)

theorem fileInfoInt_returns (h : ctx.Held held) (property : FileInfo → Option Int) :
    Returns (σ := σ) held (ctx.fileInfoInt property)
      (pure (ctx.plain.fileInfoInt property)) := by
  rcases ctx with ⟨service, item, _ | fileInfo, uri, entryId, playlistId, queueIndex⟩
  · exact Returns.pure _
  · exact Returns.call (fun fileInfo => (property fileInfo).getD 0) (h.fileInfo fileInfo rfl)

theorem titleOrFileName_gives (h : ctx.Held held) :
    Gives (σ := σ) held ctx.titleOrFileName ctx.plain.titleOrFileName := by
  unfold PlaylistEntryContext.titleOrFileName
  refine Meets.step (fileInfoString_gives h FileInfo.title) ?_
  generalize ctx.plain.fileInfoString FileInfo.title = title
  intro ref after hgiven
  cases hgiven with
  | none => exact fileName_gives h
  | some text token =>
    refine Returns.call_step mem_top ?_
    cases text with
    | nil =>
      refine Meets.step (Meets.release rfl) ?_
      rintro _ _ rfl
      exact fileName_gives h
    | cons c text => exact Meets.pure (.some (c :: text) token)

end EntryContext

/-- What `hit` finds. -/
def hits (core : Core ι) (search : Bytes) : Option Bytes → Bool
  | none => false
  | some s =>
    match core.find s search with
    | none => false
    | some index => index ≥ 0

theorem hit_returns {searchString : Ref Bytes} {s : Counted σ (Option (Ref Bytes))}
    {text : Option Bytes} (hsearch : searchString.token ∈ held) (hs : Gives held s text) :
    Returns held (hit core searchString s) (pure (hits core searchString.object text)) := by
  refine Returns.withRef hs ?_ ?_
  · rintro rfl
    exact Returns.pure _
  · rintro s token rfl
    refine Returns.call_step (mem_below hsearch) ?_
    exact Returns.call _ mem_top

theorem anyHit_returns {searchString : Ref Bytes}
    {strings : List (Counted σ (Option (Ref Bytes)))} {texts : List (Option Bytes)}
    (hsearch : searchString.token ∈ held) (hstrings : List.Forall₂ (Gives held) strings texts) :
    Returns held (anyHit core searchString strings)
      (pure (texts.any (hits core searchString.object))) := by
  induction hstrings with
  | nil => exact Returns.pure _
  | @cons _ text _ _ hs _ ih =>
    refine Returns.step (hit_returns hsearch hs) ?_
    rw [List.any_cons]
    cases hits core searchString.object text with
    | true => exact Returns.pure _
    | false => exact ih

theorem playlistEntryMatches_returns {searchString : Ref Bytes} (h : ctx.Held held)
    (hsearch : searchString.token ∈ held) :
    Returns (σ := σ) held (playlistEntryMatches core ctx searchString)
      (pure (RemoteControl.playlistEntryMatches core ctx.plain searchString.object)) := by
  have hany := @anyHit_returns σ _ _ core searchString _
    [ctx.plain.titleOrFileName, ctx.plain.fileInfoString FileInfo.artist,
      ctx.plain.fileInfoString FileInfo.album, ctx.plain.fileInfoString FileInfo.genre,
      ctx.plain.parentDirName] hsearch
    (.cons (ctx.titleOrFileName_gives h) (.cons (ctx.fileInfoString_gives h _)
      (.cons (ctx.fileInfoString_gives h _) (.cons (ctx.fileInfoString_gives h _)
        (.cons (ctx.parentDirName_gives h) .nil)))))
  simp only [List.any_cons, List.any_nil, Bool.or_false, ← Bool.or_assoc] at hany
  exact hany

theorem toStringAndRelease_step {α : Type} {s : Counted σ (Option (Ref Bytes))}
    {text : Option Bytes} {k : Bytes → Counted σ α} {plain : StateT σ Option α}
    (hs : Gives held s text) (hk : Returns held (k (text.getD [])) plain) :
    Returns held (s >>= fun s => toStringAndRelease s >>= k) plain := by
  have hstring : Returns held (s >>= fun s => toStringAndRelease s) (pure (text.getD [])) := by
    refine Returns.withRef hs ?_ ?_
    · rintro rfl
      exact Returns.pure _
    · rintro object token rfl
      exact iaimpStringToString_returns mem_top
  rw [← bind_assoc]
  exact Returns.step hstring hk

theorem titleField_returns (h : ctx.Held held) :
    Returns (σ := σ) held (titleField ctx)
      (pure (match ctx.plain.fileInfoString FileInfo.title with
        | some (c :: title) => c :: title
        | _ => pathStem (ctx.plain.fileName.getD []))) := by
  have hname : Returns (σ := σ) held (do
      let name ← ctx.fileName
      let name ← toStringAndRelease name
      pure (pathStem name)) (pure (pathStem (ctx.plain.fileName.getD []))) :=
    toStringAndRelease_step (ctx.fileName_gives h) (Returns.pure _)
  refine Meets.step (ctx.fileInfoString_gives h FileInfo.title) ?_
  generalize ctx.plain.fileInfoString FileInfo.title = title
  intro ref after hgiven
  cases hgiven with
  | none => exact hname
  | some text token =>
    refine Returns.call_step mem_top ?_
    cases text with
    | nil =>
      refine Meets.step (Meets.release rfl) ?_
      rintro _ _ rfl
      exact hname
    | cons c text => exact Returns.releasing rfl (Returns.call _ mem_top)

theorem stringField_returns (h : ctx.Held held) (property : FileInfo → Option Bytes) :
    Returns (σ := σ) held (Json.str <$> getPropertyAsString ctx.fileInfo property)
      (pure (.str ((ctx.plain.fileInfoString property).getD []))) :=
  Returns.map _ (getPropertyAsString_returns property h.fileInfo)

theorem intField_returns (h : ctx.Held held) (property : FileInfo → Option Int) :
    Returns (σ := σ) held (Json.int <$> ctx.fileInfoInt property)
      (pure (.int (ctx.plain.fileInfoInt property))) :=
  Returns.map _ (ctx.fileInfoInt_returns h property)

theorem playlistEntryField_returns (h : ctx.Held held) (field : Bytes) :
    Returns (σ := σ) held (playlistEntryField core field ctx)
      (pure (RemoteControl.playlistEntryField core field ctx.plain)) := by
  unfold playlistEntryField RemoteControl.playlistEntryField
  refine Returns.ite (fun _ => Returns.pure _) fun _ => ?_
  refine Returns.ite (fun _ => Returns.pure _) fun _ => ?_
  refine Returns.ite (fun _ => Returns.pure _) fun _ => ?_
  refine Returns.ite (fun _ => ?_) fun _ => ?_
  · have htitle := Returns.map Json.str (titleField_returns (σ := σ) h)
    revert htitle
    generalize ctx.plain.fileInfoString FileInfo.title = title
    rcases title with _ | _ | ⟨c, title⟩
    · exact id
    · exact id
    · exact id
  refine Returns.ite (fun _ => stringField_returns h _) fun _ => ?_
  refine Returns.ite (fun _ => stringField_returns h _) fun _ => ?_
  refine Returns.ite (fun _ => stringField_returns h _) fun _ => ?_
  refine Returns.ite (fun _ => ?_) fun _ => ?_
  · rcases ctx with ⟨service, item, fileInfo, _ | fileUri, entryId, playlistId, queueIndex⟩
    · exact Returns.pure _
    · exact Returns.map Json.str (iaimpStringToString_returns (h.fileUri fileUri rfl))
  refine Returns.ite (fun _ => ?_) fun _ => ?_
  · simp only [map_eq_pure_bind]
    exact toStringAndRelease_step (ctx.parentDirName_gives h) (Returns.pure _)
  refine Returns.ite (fun _ => intField_returns h _) fun _ => ?_
  refine Returns.ite (fun _ => intField_returns h _) fun _ => ?_
  refine Returns.ite (fun _ => intField_returns h _) fun _ => ?_
  refine Returns.ite (fun _ => stringField_returns h _) fun _ => ?_
  refine Returns.ite (fun _ => intField_returns h _) fun _ => ?_
  refine Returns.ite (fun _ => ?_) fun _ => ?_
  · rcases ctx with ⟨service, item, _ | fileInfo, fileUri, entryId, playlistId, queueIndex⟩
    · exact Returns.pure _
    · exact Returns.call (fun fileInfo : FileInfo =>
        Json.int ((fileInfo.duration.getD 0).ceil * 1000)) (h.fileInfo fileInfo rfl)
  refine Returns.ite (fun _ => Returns.call _ h.item) fun _ => ?_
  refine Returns.ite (fun _ => Returns.call _ h.item) fun _ => ?_
  exact Returns.pure _

theorem entryRow_returns (h : ctx.Held held) (fields : List Bytes) :
    Returns (σ := σ) held (entryRow core ctx fields)
      (pure (RemoteControl.entryRow core fields ctx.plain)) := by
  induction fields with
  | nil => exact Returns.pure _
  | cons field fields ih =>
    refine Returns.step (playlistEntryField_returns h field) ?_
    refine Returns.step ih ?_
    exact Returns.pure _

end RemoteControl.Counted
