import RemoteControl.Commands.EntryReferences
import RemoteControl.Commands.Playlists

/-!
# The listing commands, with their references

GetPlaylistEntries, GetQueuedEntries, GetPlaylistEntryInfo, GetPlaylists and CreatePlaylist.
The loops get an item or a playlist at a time and give it back before the next.
-/

namespace RemoteControl.Counted

open References

variable {σ ι : Type} {held : Multiset Nat}
variable (core : Core ι)

/-! ## A context and its life -/

/-- The constructor of `PlaylistEntryContext`. -/
def contextOf (fileUriService : Option (Ref FileUriService)) (item : Ref ι)
    (entryId playlistId : PluginId) (queueIndex : Int) : Counted σ (EntryContext ι) := do
  let fileInfo ← query item core.itemFileInfo
  let fileUri ← query item core.itemFileName
  pure { fileUriService, item, fileInfo, fileUri, entryId, playlistId, queueIndex }

/-- Its destructor. -/
def destroy (ctx : EntryContext ι) : Counted σ Unit := do
  releaseIf ctx.fileInfo
  releaseIf ctx.fileUri

/-! ## GetPlaylistEntries -/

/-- `!searchString || PlaylistEntryMatches(ctx, searchString)`. -/
def isListed (searchString : Option (Ref Bytes)) (ctx : EntryContext ι) : Counted σ Bool :=
  match searchString with
  | none => pure true
  | some searchString => playlistEntryMatches core ctx searchString

def addRow (fields : List Bytes) (searchString : Option (Ref Bytes)) (ctx : EntryContext ι)
    (entries : List (List Json)) : Counted σ (List (List Json)) := do
  let listed ← isListed core searchString ctx
  if listed then do
    let row ← entryRow core ctx fields
    pure (entries ++ [row])
  else pure entries

/-- The body of the loop of `CollectEntries`; the context outlives the item. -/
def collectItem (fields : List Bytes) (searchString : Option (Ref Bytes))
    (fileUriService : Option (Ref FileUriService)) (playlistAIMPId : Bytes) (id : PluginId)
    (i : Nat) (item : Ref ι) (entries : List (List Json)) :
    Counted IdSession (List (List Json)) := do
  let entryId ← plainly (trackId playlistAIMPId i)
  let ctx ← contextOf core fileUriService item entryId id (-1)
  let entries ← addRow core fields searchString ctx entries
  release item
  destroy ctx
  pure entries

/-- `CollectEntries`: the item count, and the entries with the new ones. -/
def collectEntries (fields : List Bytes) (searchString : Option (Ref Bytes))
    (fileUriService : Option (Ref FileUriService)) (playlist : Ref (Playlist ι))
    (entries : List (List Json)) : Counted IdSession (Int × List (List Json)) := do
  let playlistAIMPId ← getPlaylistAIMPId (some playlist)
  let id ← plainly (playlistId playlistAIMPId)
  let count ← call playlist fun playlist => playlist.items.length
  let entries ← forEach playlist (fun playlist i => playlist.getItem i)
    (collectItem core fields searchString fileUriService playlistAIMPId id) count 0 entries
  pure (count, entries)

/-- A loaded playlist's entries, after those of others. -/
def collectNext (fields : List Bytes) (searchString : Option (Ref Bytes))
    (fileUriService : Option (Ref FileUriService)) (playlist : Ref (Playlist ι))
    (acc : Int × List (List Json)) : Counted IdSession (Int × List (List Json)) :=
  releasing playlist do
    let more ← collectEntries core fields searchString fileUriService playlist acc.2
    pure (acc.1 + more.1, more.2)

/-- One loaded playlist after another. -/
def collectAll (fields : List Bytes) (searchString : Option (Ref Bytes))
    (fileUriService : Option (Ref FileUriService)) (mgr : Ref (PlaylistManager ι)) :
    Counted IdSession (Int × List (List Json)) := do
  let count ← call mgr fun mgr => mgr.loaded.length
  forEach mgr (fun mgr i => mgr.loaded[i]?.join)
    (fun _ => collectNext core fields searchString fileUriService) count 0 (0, [])

/-- The named playlist, else all that are loaded. -/
def listPlaylists (fields : List Bytes) (searchString : Option (Ref Bytes))
    (fileUriService : Option (Ref FileUriService)) (byPlaylist : Option PluginId) :
    Counted IdSession (Int × List (List Json)) := do
  let mgr ← take core.playlistManager
  withRef mgr (pure (0, [])) fun mgr =>
    match byPlaylist with
    | some playlistId => do
      let session ← plainly get
      let playlist ← findPlaylist core session.manager playlistId
      withRef playlist (pure (0, [])) fun playlist =>
        collectEntries core fields searchString fileUriService playlist []
    | none => collectAll core fields searchString fileUriService mgr

/-- `search.empty() ? nullptr : StringToIAIMPString(core, search)`. -/
def searchStringOf (search : Bytes) : Counted σ (Option (Ref Bytes)) :=
  if search = [] then pure none else stringToIAIMPString core search

/-- The body of `GetPlaylistEntriesCommand`. -/
def getPlaylistEntries (fields : List Bytes) (search : Bytes) (byPlaylist : Option PluginId) :
    Counted IdSession Json := do
  let searchString ← searchStringOf core search
  let fileUriService ← take core.fileUriService
  let (total, entries) ← listPlaylists core fields searchString fileUriService byPlaylist
  releaseIf searchString
  releaseIf fileUriService
  pure (.obj ([(ascii "count_of_found_entries", .int entries.length),
      (ascii "entries", .arr (entries.map .arr))] ++
    (byPlaylist.map fun _ => total).toList.map fun total =>
      (ascii "total_entries_count", .int total)))

/-! ## GetQueuedEntries -/

/-- The body of the loop of `GetQueuedEntriesCommand`. -/
def collectQueued (fields : List Bytes) (fileUriService : Option (Ref FileUriService))
    (i : Nat) (item : Ref ι) (entries : List (List Json)) :
    Counted IdSession (List (List Json)) := do
  let playlistAIMPId ← playlistIdOf core item
  let index ← call item fun item => (core.itemIndex item).getD 0
  let entryId ← plainly (trackId playlistAIMPId index)
  let id ← plainly (playlistId playlistAIMPId)
  let ctx ← contextOf core fileUriService item entryId id i
  let row ← entryRow core ctx fields
  release item
  destroy ctx
  pure (entries ++ [row])

def listQueue (fields : List Bytes) (fileUriService : Option (Ref FileUriService)) :
    Counted IdSession (Int × List (List Json)) := do
  let queue ← take core.playlistQueue
  withRef queue (pure (0, [])) fun queue => do
    let count ← call queue fun queue => queue.items.length
    let entries ← forEach queue (fun queue i => queue.items[i]?.join)
      (collectQueued core fields fileUriService) count 0 []
    pure (count, entries)

/-- The body of `GetQueuedEntriesCommand`. -/
def getQueuedEntries (fields : List Bytes) : Counted IdSession Json := do
  let fileUriService ← take core.fileUriService
  let (count, entries) ← listQueue core fields fileUriService
  releaseIf fileUriService
  pure (.obj [(ascii "count_of_found_entries", .int count),
    (ascii "entries", .arr (entries.map .arr))])

/-! ## GetPlaylistEntryInfo -/

/-- The fields of the context, which lives in a block of its own. -/
def infoOf (fileUriService : Option (Ref FileUriService)) (trackId : PluginId) (item : Ref ι)
    (playlist : Ref (Playlist ι)) : Counted IdSession (List Json) := do
  let aimpId ← getPlaylistAIMPId (some playlist)
  let id ← plainly (playlistId aimpId)
  let ctx ← contextOf core fileUriService item trackId id (-1)
  let info ← entryRow core ctx infoFields
  destroy ctx
  pure info

def entryInfoTask (trackId : PluginId) : Counted IdSession (Option Json) := do
  let session ← plainly get
  let found ← findPlaylistItem core session.manager trackId true
  withFound found (pure none) fun item playlist => do
    let fileUriService ← take core.fileUriService
    let info ← infoOf core fileUriService trackId item playlist
    releaseIf fileUriService
    pure (some (.obj (infoFields.zip info)))

/-! ## GetPlaylists -/

/-- `ComputePlaylistCrc32`. -/
def computePlaylistCrc32 (playlist : Ref (Playlist ι)) : Counted σ (BitVec 32) := do
  let files ← query playlist fun playlist => playlist.files
  withRef files (pure 0) fun files => do
    let count ← call files fun files => files.length
    forEach files (fun files i => files[i]?.join)
      (fun _ name crc => releasing name do
        let utf8 ← iaimpStringToString name
        pure (if utf8 ≠ [] then crc32Update crc utf8 else crc)) count 0 0

/-- A field of the reply, when it is asked for. -/
def requested {α : Type} (fields : List Bytes) (field : String) (value : Counted IdSession α) :
    Counted IdSession (Option α) :=
  if ascii field ∈ fields then some <$> value else pure none

/-- A name that cannot be read is empty. -/
def nameOf (props : Playlist ι) : Option Bytes := if props.name = [] then none else some props.name

/-- `BuildPlaylistJson`. -/
def buildPlaylistJson (fields : List Bytes) (playlist : Ref (Playlist ι)) :
    Counted IdSession PlaylistJson := do
  let props ← query playlist propertiesOf
  withRef props (pure {}) fun props => do
    let id ← requested fields "id" do
      let aimpId ← getPropertyAsString (some props) idOf
      plainly (playlistId aimpId)
    let title ← requested fields "title" (getPropertyAsString (some props) nameOf)
    let readonly ← requested fields "readonly"
      (call props fun props => decide (props.readonly.getD 0 ≠ 0))
    let entriesCount ← requested fields "entries_count"
      (call playlist fun playlist => (playlist.items.length : Int))
    let crc32 ← requested fields "crc32" do
      let crc ← computePlaylistCrc32 playlist
      pure (crc.toNat : Int)
    pure { id, title, readonly, entriesCount, crc32 }

/-- `GetPlaylistsCommand::BuildPlaylists`. -/
def buildPlaylists (fields : List Bytes) : Counted IdSession (List PlaylistJson) := do
  let mgr ← take core.playlistManager
  withRef mgr (pure []) fun mgr => do
    let count ← call mgr fun mgr => mgr.loaded.length
    forEach mgr (fun mgr i => mgr.loaded[i]?.join)
      (fun _ playlist result => releasing playlist do
        let json ← buildPlaylistJson fields playlist
        pure (result ++ [json])) count 0 []

/-! ## CreatePlaylist -/

/-- `title.empty() ? nullptr : StringToIAIMPString(core, title)`. -/
def titleOf (title : Bytes) : Counted σ (Option (Ref Bytes)) :=
  if title = [] then pure none else stringToIAIMPString core title

def createNamed (mgr : Ref (PlaylistManager ι)) (name : Option (Ref Bytes)) :
    Counted σ (Option (Ref (Playlist ι))) :=
  match name with
  | none => query mgr fun mgr => mgr.createPlaylist []
  | some name => do
    let title ← iaimpStringToString name
    query mgr fun mgr => mgr.createPlaylist title

/-- The AIMP id of the new playlist. -/
def newPlaylistId (mgr : Ref (PlaylistManager ι)) (name : Option (Ref Bytes)) :
    Counted σ Bytes := do
  let playlist ← createNamed mgr name
  withRef playlist (pure []) fun playlist => getPlaylistAIMPId (some playlist)

/-- The body of `CreatePlaylistCommand`. -/
def createPlaylistBody (title : Bytes) : Counted σ Bytes := do
  let mgr ← take core.playlistManager
  withRef mgr (pure []) fun mgr => do
    let name ← titleOf core title
    let result ← newPlaylistId mgr name
    releaseIf name
    pure result

/-! ## Contexts -/

variable {core}

theorem contextOf_meets {fileUriService : Option (Ref FileUriService)} {item : Ref ι}
    {entryId playlistId : PluginId} {queueIndex : Int} (hitem : item.token ∈ held)
    (hservice : ∀ ref ∈ fileUriService, ref.token ∈ held)
    (hplain : fileUriService.map Ref.object = core.fileUriService) :
    Meets (σ := σ) held (contextOf core fileUriService item entryId playlistId queueIndex)
      (pure (PlaylistEntryContext.of core item.object entryId playlistId queueIndex))
      fun a ctx after => ctx.plain = a ∧ ctx.Held after ∧
        after = tokens ctx.fileUri + (tokens ctx.fileInfo + held) := by
  refine Meets.step (Gives.query core.itemFileInfo hitem) fun fileInfo now hinfo => ?_
  have hitem' := Multiset.mem_of_le hinfo.le hitem
  refine Meets.step (Gives.query core.itemFileName hitem') fun fileUri after huri => ?_
  refine Meets.pure ⟨?_, ?_, ?_⟩
  · simp only [EntryContext.plain, PlaylistEntryContext.of, hplain, hinfo.object, huri.object]
  · exact {
      fileUriService := fun ref h => Multiset.mem_of_le (hinfo.le.trans huri.le) (hservice ref h)
      item := Multiset.mem_of_le huri.le hitem'
      fileInfo := fun ref h => Multiset.mem_of_le huri.le (hinfo.mem ref h)
      fileUri := huri.mem }
  · rw [huri.eq_tokens, hinfo.eq_tokens]

theorem destroy_meets {ctx : EntryContext ι} {rest : Multiset Nat}
    (h : held = tokens ctx.fileUri + (tokens ctx.fileInfo + rest)) :
    Meets (σ := σ) held (destroy ctx) (pure ()) fun _ _ after => after = rest := by
  rw [← Multiset.add_assoc, Multiset.add_comm (tokens ctx.fileUri), Multiset.add_assoc] at h
  refine Meets.step (Meets.releaseIf h) ?_
  rintro _ _ rfl
  exact Meets.releaseIf rfl

/-! ## GetPlaylistEntries -/

section entries

variable {fields : List Bytes} {searchString : Option (Ref Bytes)}
  {fileUriService : Option (Ref FileUriService)}

theorem isListed_returns {ctx : EntryContext ι} (hctx : ctx.Held held)
    (hsearch : ∀ ref ∈ searchString, ref.token ∈ held) :
    Returns (σ := σ) held (isListed core searchString ctx)
      (pure ((searchString.map Ref.object).all
        (RemoteControl.playlistEntryMatches core ctx.plain))) := by
  cases searchString with
  | none => exact Returns.pure _
  | some searchString => exact playlistEntryMatches_returns hctx (hsearch searchString rfl)

theorem addRow_returns {ctx : EntryContext ι} {entries : List (List Json)} (hctx : ctx.Held held)
    (hsearch : ∀ ref ∈ searchString, ref.token ∈ held) :
    Returns (σ := σ) held (addRow core fields searchString ctx entries)
      (pure (if (searchString.map Ref.object).all
            (RemoteControl.playlistEntryMatches core ctx.plain) then
          entries ++ [RemoteControl.entryRow core fields ctx.plain]
        else entries)) := by
  refine Returns.step (isListed_returns hctx hsearch) ?_
  refine Returns.ite (fun _ => ?_) fun _ => Returns.pure _
  exact Returns.step (entryRow_returns hctx fields) (Returns.pure _)

/-- One turn of the plain loop, with what was found before. -/
def plainCollectItem (core : Core ι) (search : Option Bytes) (playlistAIMPId : Bytes)
    (id : PluginId) (i : Nat) (item : ι) (found : List (PlaylistEntryContext ι)) :
    IdM (List (PlaylistEntryContext ι)) := do
  let entryId ← trackId playlistAIMPId i
  let ctx := PlaylistEntryContext.of core item entryId id
  pure (if search.all (RemoteControl.playlistEntryMatches core ctx) then found ++ [ctx] else found)

theorem plainForEach_collectItem (core : Core ι) (search : Option Bytes) (playlistAIMPId : Bytes)
    (id : PluginId) (items : List (Option ι)) (i : Nat)
    (found : List (PlaylistEntryContext ι)) :
    plainForEach (plainCollectItem core search playlistAIMPId id) items i found =
      (found ++ ·) <$> collectItems core search playlistAIMPId id i items := by
  induction items generalizing i found with
  | nil => simp only [plainForEach, collectItems, map_pure, List.append_nil]
  | cons item items ih =>
    cases item with
    | none =>
      rw [plainForEach, ih, collectItems]
      rfl
    | some item =>
      simp only [plainForEach, plainCollectItem, collectItems, bind_assoc, pure_bind, ih,
        map_eq_pure_bind]
      congr 1
      funext entryId
      congr 1
      funext others
      split
      · rw [List.append_assoc, List.singleton_append]
      · rfl

/-- The item is given back first; the context still holds what its constructor got. -/
theorem collectItem_meets {playlistAIMPId : Bytes} {id : PluginId}
    (hsearch : ∀ ref ∈ searchString, ref.token ∈ held)
    (hservice : ∀ ref ∈ fileUriService, ref.token ∈ held)
    (hplain : fileUriService.map Ref.object = core.fileUriService) (i : Nat) (item : ι)
    (token : Nat) (found : List (PlaylistEntryContext ι)) (entries : List (List Json))
    (h : entries = found.map (RemoteControl.entryRow core fields)) :
    Meets (token ::ₘ held)
      (collectItem core fields searchString fileUriService playlistAIMPId id i ⟨item, token⟩
        entries)
      (plainCollectItem core (searchString.map Ref.object) playlistAIMPId id i item found)
      fun found entries after =>
        entries = found.map (RemoteControl.entryRow core fields) ∧ after = held := by
  refine Returns.both (Returns.plainly _) fun entryId => ?_
  refine Meets.step (contextOf_meets mem_top (fun ref h => mem_below (hservice ref h)) hplain) ?_
  rintro ctx now ⟨hctx, hheld, hnow⟩
  have hbelow : held ≤ now := by
    rw [hnow]
    exact (Multiset.le_cons_self _ _).trans
      ((Multiset.le_add_left _ _).trans (Multiset.le_add_left _ _))
  refine Returns.step
    (addRow_returns hheld fun ref h => Multiset.mem_of_le hbelow (hsearch ref h)) ?_
  rw [Multiset.add_cons, Multiset.add_cons] at hnow
  refine Meets.step (Meets.release hnow) ?_
  rintro _ _ rfl
  refine Meets.step (destroy_meets rfl) ?_
  rintro _ _ rfl
  refine Meets.pure ⟨?_, rfl⟩
  rw [hctx, h]
  split
  · rw [List.map_append, List.map_singleton]
  · rfl

/-- Of any playlist: the rows are those of the entries the plain program finds. -/
theorem collectEntries_meets {playlist : Ref (Playlist ι)} (hplaylist : playlist.token ∈ held)
    (hsearch : ∀ ref ∈ searchString, ref.token ∈ held)
    (hservice : ∀ ref ∈ fileUriService, ref.token ∈ held)
    (hplain : fileUriService.map Ref.object = core.fileUriService)
    {found : List (PlaylistEntryContext ι)} {entries : List (List Json)}
    (h : entries = found.map (RemoteControl.entryRow core fields)) :
    Meets held (collectEntries core fields searchString fileUriService playlist entries)
      (RemoteControl.collectEntries core (searchString.map Ref.object) playlist.object)
      fun more result after => result.1 = more.1 ∧
        result.2 = (found ++ more.2).map (RemoteControl.entryRow core fields) ∧
          after = held := by
  have hid := @getPlaylistAIMPId_returns IdSession ι held (some playlist)
    (by rintro _ ⟨⟩; exact hplaylist)
  refine Returns.step hid ?_
  refine Returns.both (Returns.plainly _) fun id => ?_
  refine Returns.call_step hplaylist ?_
  have hget : ∀ k (hk : k < playlist.object.items.length),
      playlist.object.getItem ((0 + k : Nat) : Int) = playlist.object.items[k] := by
    intro k hk
    rw [Nat.zero_add, Playlist.getItem, Int.toNat_natCast, List.getElem?_eq_getElem hk,
      Option.join_some]
  have hloop : Meets held (forEach playlist (fun playlist i => playlist.getItem i)
      (collectItem core fields searchString fileUriService
        (RemoteControl.getPlaylistAIMPId (some playlist.object)) id)
        playlist.object.items.length 0 entries)
      ((found ++ ·) <$> collectItems core (searchString.map Ref.object)
        (RemoteControl.getPlaylistAIMPId (some playlist.object)) id ((0 : Nat) : Int)
        playlist.object.items)
      fun found entries after =>
        entries = found.map (RemoteControl.entryRow core fields) ∧ after = held := by
    rw [← plainForEach_collectItem]
    exact Meets.forEach hplaylist (collectItem_meets hsearch hservice hplain) hget h
  rw [meets_map] at hloop
  refine Meets.bind hloop ?_
  rintro more entries _ ⟨hentries, rfl⟩
  exact Meets.pure ⟨rfl, hentries, rfl⟩

/-- What both programs have gathered of the playlists so far. -/
def Gathered (core : Core ι) (fields : List Bytes)
    (plain : Int × List (PlaylistEntryContext ι)) (counted : Int × List (List Json)) : Prop :=
  counted.1 = plain.1 ∧ counted.2 = plain.2.map (RemoteControl.entryRow core fields)

/-- One turn of the plain loop over the playlists. -/
def plainCollectNext (core : Core ι) (search : Option Bytes) (playlist : Playlist ι)
    (acc : Int × List (PlaylistEntryContext ι)) : IdM (Int × List (PlaylistEntryContext ι)) := do
  let more ← RemoteControl.collectEntries core search playlist
  pure (acc.1 + more.1, acc.2 ++ more.2)

theorem plainForEach_collectNext (core : Core ι) (search : Option Bytes)
    (loaded : List (Option (Playlist ι))) (i : Nat) (acc : Int × List (PlaylistEntryContext ι)) :
    plainForEach (fun _ => plainCollectNext core search) loaded i acc =
      (fun all => (acc.1 + all.1, acc.2 ++ all.2)) <$>
        RemoteControl.collectAll core search (loaded.filterMap fun playlist => playlist) := by
  induction loaded generalizing i acc with
  | nil => simp [plainForEach, RemoteControl.collectAll]
  | cons playlist loaded ih =>
    cases playlist with
    | none =>
      rw [plainForEach, ih]
      rfl
    | some playlist =>
      simp only [plainForEach, plainCollectNext, RemoteControl.collectAll, List.filterMap_cons,
        bind_assoc, pure_bind, ih, map_eq_pure_bind, Int.add_assoc, List.append_assoc]

theorem collectNext_meets (hsearch : ∀ ref ∈ searchString, ref.token ∈ held)
    (hservice : ∀ ref ∈ fileUriService, ref.token ∈ held)
    (hplain : fileUriService.map Ref.object = core.fileUriService) (playlist : Playlist ι)
    (token : Nat) (plain : Int × List (PlaylistEntryContext ι))
    (counted : Int × List (List Json)) (h : Gathered core fields plain counted) :
    Meets (token ::ₘ held)
      (collectNext core fields searchString fileUriService ⟨playlist, token⟩ counted)
      (plainCollectNext core (searchString.map Ref.object) playlist plain)
      fun plain counted after => Gathered core fields plain counted ∧ after = held := by
  refine Meets.releasing ?_
  refine Meets.bind (collectEntries_meets ?_ ?_ ?_ hplain h.2) ?_
  · exact mem_top
  · exact fun ref h => mem_below (hsearch ref h)
  · exact fun ref h => mem_below (hservice ref h)
  · rintro more result _ ⟨hcount, hrows, rfl⟩
    refine Meets.pure ⟨held, rfl, ⟨?_, hrows⟩, rfl⟩
    dsimp only
    rw [h.1, hcount]

theorem collectAll_meets {mgr : Ref (PlaylistManager ι)} (hmgr : mgr.token ∈ held)
    (hsearch : ∀ ref ∈ searchString, ref.token ∈ held)
    (hservice : ∀ ref ∈ fileUriService, ref.token ∈ held)
    (hplain : fileUriService.map Ref.object = core.fileUriService) :
    Meets held (collectAll core fields searchString fileUriService mgr)
      (RemoteControl.collectAll core (searchString.map Ref.object) mgr.object.playlists)
      fun plain counted after => Gathered core fields plain counted ∧ after = held := by
  have hloop : Meets held (forEach mgr (fun mgr i => mgr.loaded[i]?.join)
      (fun _ => collectNext core fields searchString fileUriService)
        mgr.object.loaded.length 0 (0, []))
      (plainForEach (fun _ => plainCollectNext core (searchString.map Ref.object))
        mgr.object.loaded 0 (0, []))
      fun plain counted after => Gathered core fields plain counted ∧ after = held := by
    refine Meets.forEach hmgr (fun _ => collectNext_meets hsearch hservice hplain) ?_ ⟨rfl, rfl⟩
    intro k hk
    rw [Nat.zero_add, List.getElem?_eq_getElem hk, Option.join_some]
  rw [plainForEach_collectNext, meets_map] at hloop
  refine Returns.call_step hmgr (hloop.weaken ?_)
  rintro plain counted _ ⟨hgathered, rfl⟩
  simp only [Int.zero_add, List.nil_append] at hgathered
  exact ⟨hgathered, rfl⟩

/-- The playlists of a request, and what the plain program finds in them. -/
def plainListPlaylists (core : Core ι) (search : Option Bytes) (byPlaylist : Option PluginId) :
    IdM (Int × List (PlaylistEntryContext ι)) := do
  let session ← get
  RemoteControl.collectAll core search (playlistsToList core session.manager byPlaylist)

theorem listPlaylists_meets {byPlaylist : Option PluginId}
    (hsearch : ∀ ref ∈ searchString, ref.token ∈ held)
    (hservice : ∀ ref ∈ fileUriService, ref.token ∈ held)
    (hplain : fileUriService.map Ref.object = core.fileUriService) :
    Meets held (listPlaylists core fields searchString fileUriService byPlaylist)
      (plainListPlaylists core (searchString.map Ref.object) byPlaylist)
      fun plain counted after => Gathered core fields plain counted ∧ after = held := by
  refine Relates.withRef (Gives.take _) ?_ ?_
  · intro hnone
    have hempty (session : IdSession) :
        playlistsToList core session.manager byPlaylist = [] := by
      cases byPlaylist with
      | none => simp [playlistsToList, Core.playlists, hnone]
      | some id => simp [playlistsToList, hnone]
    simp only [plainListPlaylists, hempty]
    exact Meets.pure ⟨⟨rfl, rfl⟩, rfl⟩
  · intro mgr token hsome
    have hsearch' : ∀ ref ∈ searchString, ref.token ∈ token ::ₘ held :=
      fun ref h => mem_below (hsearch ref h)
    have hservice' : ∀ ref ∈ fileUriService, ref.token ∈ token ::ₘ held :=
      fun ref h => mem_below (hservice ref h)
    cases byPlaylist with
    | some id =>
      refine Returns.both (Returns.plainly _) fun session => ?_
      simp only [playlistsToList, hsome, Option.isSome_some, if_true]
      refine Relates.withRef (findPlaylist_gives core session.manager id) ?_ ?_
      · intro hnone
        rw [hnone]
        exact Meets.pure ⟨⟨rfl, rfl⟩, rfl⟩
      · intro playlist token' hplaylist
        have hone : RemoteControl.collectAll core (searchString.map Ref.object)
            (some playlist).toList =
              RemoteControl.collectEntries core (searchString.map Ref.object) playlist := by
          simp [RemoteControl.collectAll]
        rw [hplaylist, hone]
        refine (collectEntries_meets ?_ ?_ ?_ hplain List.map_nil.symm).weaken ?_
        · exact mem_top
        · exact fun ref h => mem_below (hsearch' ref h)
        · exact fun ref h => mem_below (hservice' ref h)
        · rintro more result _ ⟨hcount, hrows, rfl⟩
          exact ⟨⟨hcount, hrows⟩, rfl⟩
    | none =>
      have hall : plainListPlaylists core (searchString.map Ref.object) none =
          RemoteControl.collectAll core (searchString.map Ref.object) mgr.playlists := by
        unfold plainListPlaylists playlistsToList Core.playlists
        rw [hsome]
        rfl
      rw [hall]
      exact collectAll_meets mem_top hsearch' hservice' hplain

theorem searchStringOf_gives {search : Bytes} :
    Gives (σ := σ) held (searchStringOf core search)
      (if search ≠ [] ∧ core.createString search then some search else none) := by
  unfold searchStringOf
  split
  · next hempty =>
    rw [if_neg fun h => h.1 hempty]
    exact Gives.none
  · next hsome =>
    simp only [hsome, ne_eq, not_false_eq_true, true_and]
    exact stringToIAIMPString_gives core search

theorem getPlaylistEntries_eq (core : Core ι) (fields : List Bytes) (search : Bytes)
    (byPlaylist : Option PluginId) :
    EntriesReply.json core fields <$> RemoteControl.getPlaylistEntries core search byPlaylist =
      (do
        let all ← plainListPlaylists core
          (if search ≠ [] ∧ core.createString search then some search else none) byPlaylist
        pure (EntriesReply.json core fields {
          countOfFoundEntries := all.2.length
          found := all.2
          totalEntriesCount := byPlaylist.map fun _ => all.1 })) := by
  simp only [RemoteControl.getPlaylistEntries, plainListPlaylists, map_eq_pure_bind, bind_assoc,
    pure_bind]

/-- The reply is the one the plain program gives. -/
theorem getPlaylistEntries_balanced (fields : List Bytes) (search : Bytes)
    (byPlaylist : Option PluginId) :
    Balanced (getPlaylistEntries core fields search byPlaylist)
      (EntriesReply.json core fields <$>
        RemoteControl.getPlaylistEntries core search byPlaylist) := by
  intro held
  refine Meets.step searchStringOf_gives fun searchString now hsearch => ?_
  refine Meets.step (Gives.take core.fileUriService) fun fileUriService after hservice => ?_
  have hsearch' := fun ref h => Multiset.mem_of_le hservice.le (hsearch.mem ref h)
  have hafter : after = tokens searchString + (tokens fileUriService + held) := by
    rw [hservice.eq_tokens, hsearch.eq_tokens, ← Multiset.add_assoc, ← Multiset.add_assoc,
      Multiset.add_comm (tokens fileUriService)]
  rw [getPlaylistEntries_eq, ← hsearch.object]
  refine Meets.bind (listPlaylists_meets hsearch' hservice.mem hservice.object) ?_
  rintro ⟨total, found⟩ ⟨total', entries⟩ _ ⟨⟨htotal, hentries⟩, rfl⟩
  refine Meets.step (Meets.releaseIf hafter) ?_
  rintro _ _ rfl
  refine Meets.step (Meets.releaseIf rfl) ?_
  rintro _ _ rfl
  refine Meets.pure ⟨?_, rfl⟩
  dsimp only at htotal hentries ⊢
  rw [htotal, hentries, List.length_map]
  rfl

end entries

/-! ## GetQueuedEntries -/

section queue

variable {fields : List Bytes} {fileUriService : Option (Ref FileUriService)}

/-- One turn of the plain loop over the queue. -/
def plainCollectQueued (core : Core ι) (i : Nat) (item : ι)
    (found : List (PlaylistEntryContext ι)) : IdM (List (PlaylistEntryContext ι)) := do
  let entryId ← trackId (locate core item).aimpPlaylistId (locate core item).index
  let id ← playlistId (locate core item).aimpPlaylistId
  pure (found ++ [PlaylistEntryContext.of core item entryId id i])

theorem plainForEach_collectQueued (core : Core ι) (items : List (Option ι)) (i : Nat)
    (found : List (PlaylistEntryContext ι)) :
    plainForEach (plainCollectQueued core) items i found =
      (found ++ ·) <$> RemoteControl.collectQueued core i items := by
  induction items generalizing i found with
  | nil => simp only [plainForEach, RemoteControl.collectQueued, map_pure, List.append_nil]
  | cons item items ih =>
    cases item with
    | none =>
      rw [plainForEach, ih, RemoteControl.collectQueued]
      rfl
    | some item =>
      simp only [plainForEach, plainCollectQueued, RemoteControl.collectQueued, bind_assoc,
        pure_bind, ih, map_eq_pure_bind, List.append_assoc, List.singleton_append]
      rfl

theorem collectQueued_meets (hservice : ∀ ref ∈ fileUriService, ref.token ∈ held)
    (hplain : fileUriService.map Ref.object = core.fileUriService) (i : Nat) (item : ι)
    (token : Nat) (found : List (PlaylistEntryContext ι)) (entries : List (List Json))
    (h : entries = found.map (RemoteControl.entryRow core fields)) :
    Meets (token ::ₘ held) (collectQueued core fields fileUriService i ⟨item, token⟩ entries)
      (plainCollectQueued core i item found)
      fun found entries after =>
        entries = found.map (RemoteControl.entryRow core fields) ∧ after = held := by
  refine Returns.step (playlistIdOf_returns mem_top) ?_
  refine Returns.call_step mem_top ?_
  refine Returns.both (Returns.plainly _) fun entryId => ?_
  refine Returns.both (Returns.plainly _) fun id => ?_
  refine Meets.step (contextOf_meets mem_top (fun ref h => mem_below (hservice ref h)) hplain) ?_
  rintro ctx now ⟨hctx, hheld, hnow⟩
  refine Returns.step (entryRow_returns hheld fields) ?_
  rw [Multiset.add_cons, Multiset.add_cons] at hnow
  refine Meets.step (Meets.release hnow) ?_
  rintro _ _ rfl
  refine Meets.step (destroy_meets rfl) ?_
  rintro _ _ rfl
  refine Meets.pure ⟨?_, rfl⟩
  rw [hctx, h, List.map_append, List.map_singleton]

/-- The count is the queue's, and the rows are those of the entries. -/
theorem listQueue_meets (hservice : ∀ ref ∈ fileUriService, ref.token ∈ held)
    (hplain : fileUriService.map Ref.object = core.fileUriService) :
    Meets held (listQueue core fields fileUriService) (RemoteControl.getQueuedEntries core)
      fun reply counted after => (counted.1 = reply.countOfFoundEntries ∧
        counted.2 = reply.entries core fields ∧ reply.totalEntriesCount = none) ∧
          after = held := by
  unfold RemoteControl.getQueuedEntries
  refine Relates.withRef (Gives.take _) ?_ ?_
  · intro hnone
    rw [hnone]
    exact Meets.pure ⟨⟨rfl, rfl, rfl⟩, rfl⟩
  · intro queue token hsome
    rw [hsome]
    refine Returns.call_step mem_top ?_
    have hloop : Meets (token ::ₘ held) (forEach ⟨queue, token⟩ (fun queue i => queue.items[i]?.join)
        (collectQueued core fields fileUriService) queue.items.length 0 [])
        (([] ++ ·) <$> RemoteControl.collectQueued core ((0 : Nat) : Int) queue.items)
        fun found entries after =>
          entries = found.map (RemoteControl.entryRow core fields) ∧
            after = token ::ₘ held := by
      rw [← plainForEach_collectQueued]
      refine Meets.forEach mem_top
        (collectQueued_meets (fun ref h => mem_below (hservice ref h)) hplain) ?_ rfl
      intro k hk
      dsimp only
      rw [Nat.zero_add, List.getElem?_eq_getElem hk, Option.join_some]
    rw [meets_map] at hloop
    refine Meets.bind hloop ?_
    rintro found entries _ ⟨hentries, rfl⟩
    exact Meets.pure ⟨⟨rfl, hentries, rfl⟩, rfl⟩

theorem getQueuedEntries_balanced (fields : List Bytes) :
    Balanced (getQueuedEntries core fields)
      (EntriesReply.json core fields <$> RemoteControl.getQueuedEntries core) := by
  intro held
  refine Meets.step (Gives.take core.fileUriService) fun fileUriService now hservice => ?_
  rw [map_eq_pure_bind]
  refine Meets.bind (listQueue_meets hservice.mem hservice.object) ?_
  rintro ⟨count, found, total⟩ ⟨count', entries⟩ _ ⟨⟨hcount, hentries, htotal⟩, rfl⟩
  refine Meets.step (Meets.releaseIf hservice.eq_tokens) ?_
  rintro _ _ rfl
  refine Meets.pure ⟨?_, rfl⟩
  dsimp only at hcount hentries htotal
  rw [hcount, hentries, htotal]
  rfl

end queue

/-! ## GetPlaylistEntryInfo -/

theorem infoOf_returns {fileUriService : Option (Ref FileUriService)} {trackId : PluginId}
    {item : Ref ι} {playlist : Ref (Playlist ι)} (hitem : item.token ∈ held)
    (hplaylist : playlist.token ∈ held) (hservice : ∀ ref ∈ fileUriService, ref.token ∈ held)
    (hplain : fileUriService.map Ref.object = core.fileUriService) :
    Returns held (infoOf core fileUriService trackId item playlist) (do
      let id ← playlistId (RemoteControl.getPlaylistAIMPId (some playlist.object))
      pure (RemoteControl.entryRow core infoFields
        (PlaylistEntryContext.of core item.object trackId id))) := by
  have hid := @getPlaylistAIMPId_returns IdSession ι held (some playlist)
    (by rintro _ ⟨⟩; exact hplaylist)
  refine Returns.step hid ?_
  refine Returns.both (Returns.plainly _) fun id => ?_
  refine Meets.step (contextOf_meets hitem hservice hplain) ?_
  rintro ctx now ⟨hctx, hheld, hnow⟩
  refine Returns.step (entryRow_returns hheld infoFields) ?_
  refine Meets.step (destroy_meets hnow) ?_
  rintro _ _ rfl
  refine Meets.pure ⟨?_, rfl⟩
  rw [hctx]

/-- The reply's object, of the context that is found. -/
def infoJson (core : Core ι) (ctx : PlaylistEntryContext ι) : Json :=
  .obj (infoFields.map fun field => (field, RemoteControl.playlistEntryField core field ctx))

theorem entryInfoTask_balanced (trackId : PluginId) :
    Balanced (entryInfoTask core trackId)
      ((fun done => done.1.map (infoJson core)) <$> RemoteControl.entryInfoTask core trackId) := by
  intro held
  unfold RemoteControl.entryInfoTask
  rw [map_eq_pure_bind, bind_assoc]
  refine Returns.both (Returns.plainly _) fun session => ?_
  refine Returns.withFound ?_ ?_
  · intro hnone
    rw [hnone]
    exact Returns.pure _
  · intro item playlist token owner hsome
    have hinfo : ((do
          let id ← playlistId (RemoteControl.getPlaylistAIMPId (some playlist))
          pure (some (PlaylistEntryContext.of core item trackId id), ([] : List (Call ι)))) >>=
            fun done => pure (done.1.map (infoJson core)) : IdM (Option Json)) =
        (do
          let id ← playlistId (RemoteControl.getPlaylistAIMPId (some playlist))
          pure (RemoteControl.entryRow core infoFields
            (PlaylistEntryContext.of core item trackId id))) >>=
              fun info => pure (some (.obj (infoFields.zip info))) := by
      simp only [bind_assoc, pure_bind, Option.map_some, infoJson, RemoteControl.entryRow,
        List.map_prod_left_eq_zip]
    simp only [hsome]
    rw [hinfo]
    refine Meets.step (Gives.take core.fileUriService) fun fileUriService now hservice => ?_
    have hbelow := hservice.le
    refine Returns.both (infoOf_returns (Multiset.mem_of_le hbelow mem_top)
      (Multiset.mem_of_le hbelow (mem_below mem_top)) hservice.mem hservice.object) fun info => ?_
    refine Meets.step (Meets.releaseIf hservice.eq_tokens) ?_
    rintro _ _ rfl
    exact Returns.pure _

/-! ## GetPlaylists -/

section playlists

variable {fields : List Bytes}

theorem computePlaylistCrc32_eq (files : List (Option Bytes)) (i : Nat) (crc : BitVec 32) :
    plainForEach (fun _ utf8 crc => pure (if utf8 ≠ [] then crc32Update crc utf8 else crc))
      files i crc =
        (pure (files.foldl (fun crc name =>
          match name with
          | some (c :: utf8) => crc32Update crc (c :: utf8)
          | _ => crc) crc) : StateT σ Option (BitVec 32)) := by
  induction files generalizing i crc with
  | nil => rfl
  | cons name files ih =>
    rcases name with _ | _ | ⟨c, utf8⟩
    · exact ih (i + 1) crc
    · exact ih (i + 1) crc
    · exact ih (i + 1) (crc32Update crc (c :: utf8))

theorem computePlaylistCrc32_returns {playlist : Ref (Playlist ι)} (h : playlist.token ∈ held) :
    Returns (σ := σ) held (computePlaylistCrc32 playlist)
      (pure (RemoteControl.computePlaylistCrc32 playlist.object)) := by
  unfold RemoteControl.computePlaylistCrc32
  refine Returns.withRef (Gives.query _ h) ?_ ?_
  · intro hnone
    rw [hnone]
    exact Returns.pure _
  · intro files token hsome
    rw [hsome]
    refine Returns.call_step mem_top ?_
    have hloop : Meets (σ := σ) (token ::ₘ held) (forEach ⟨files, token⟩
        (fun files i => files[i]?.join) (fun _ name crc => releasing name do
          let utf8 ← iaimpStringToString name
          pure (if utf8 ≠ [] then crc32Update crc utf8 else crc)) files.length 0 0)
        (plainForEach (fun _ utf8 crc =>
          pure (if utf8 ≠ [] then crc32Update crc utf8 else crc)) files 0 0)
        fun plain crc after => crc = plain ∧ after = token ::ₘ held := by
      refine Meets.forEach mem_top ?_ ?_ rfl
      · rintro i utf8 token' crc _ rfl
        refine Meets.releasing ?_
        refine Returns.call_step mem_top ?_
        exact Meets.pure ⟨_, rfl, rfl, rfl⟩
      · intro k hk
        dsimp only
        rw [Nat.zero_add, List.getElem?_eq_getElem hk, Option.join_some]
    rw [computePlaylistCrc32_eq] at hloop
    exact hloop

theorem requested_returns {α : Type} {field : String} {value : Counted IdSession α}
    {plain : IdM α} (h : Returns held value plain) :
    Returns held (requested fields field value)
      (if ascii field ∈ fields then some <$> plain else pure none) := by
  unfold requested
  split
  · rw [map_eq_pure_bind, map_eq_pure_bind]
    exact Returns.both h fun a => Returns.pure _
  · exact Returns.pure _

/-- A field that needs no id. -/
theorem requested_step {α γ δ : Type} {field : String} {value : Counted IdSession α} {a : α}
    {k : Option α → Counted IdSession δ} {plain : IdM γ} {post : γ → δ → Multiset Nat → Prop}
    (h : Returns held value (pure a))
    (hk : Meets held (k (if ascii field ∈ fields then some a else none)) plain post) :
    Meets held (requested fields field value >>= k) plain post := by
  refine Returns.step (a := if ascii field ∈ fields then some a else none) ?_ hk
  unfold requested
  exact Returns.ite (fun _ => Returns.map some h) fun _ => Returns.pure _

@[simp] theorem getD_nameOf (props : Playlist ι) : (nameOf props).getD [] = props.name := by
  unfold nameOf
  split
  · next h => exact h.symm
  · rfl

theorem idField_eq (fields : List Bytes) (playlist : Playlist ι) :
    idField fields playlist =
      if ascii "id" ∈ fields then some <$> playlistId playlist.id else pure none := by
  unfold idField
  simp only [map_eq_pure_bind]

theorem buildPlaylistJson_returns {playlist : Ref (Playlist ι)} (h : playlist.token ∈ held) :
    Returns held (buildPlaylistJson fields playlist)
      (RemoteControl.buildPlaylistJson fields playlist.object) := by
  unfold RemoteControl.buildPlaylistJson
  refine Returns.withRef (Gives.query _ h) ?_ ?_
  · intro hnone
    rw [if_pos (propertiesOf_eq_none hnone)]
    exact Returns.pure _
  · intro props token hsome
    obtain ⟨rfl, hprops⟩ := propertiesOf_eq_some hsome
    rw [if_neg (by simp [hprops]), idField_eq]
    have hid : Returns (token ::ₘ held) (do
        let aimpId ← getPropertyAsString (some ⟨playlist.object, token⟩) idOf
        plainly (playlistId aimpId)) (playlistId playlist.object.id) := by
      have hget := @getPropertyAsString_returns IdSession _ _ (some ⟨playlist.object, token⟩) idOf
        (by rintro _ ⟨⟩; exact Multiset.mem_cons_self token held)
      simp only [Option.map_some, Option.bind_some, getD_idOf] at hget
      exact Returns.step hget (Returns.plainly _)
    have hname := @getPropertyAsString_returns IdSession _ _ (some ⟨playlist.object, token⟩) nameOf
      (by rintro _ ⟨⟩; exact Multiset.mem_cons_self token held)
    simp only [Option.map_some, Option.bind_some, getD_nameOf] at hname
    refine Returns.both (requested_returns hid) fun id => ?_
    refine requested_step hname ?_
    refine requested_step (Returns.call _ mem_top) ?_
    refine requested_step (Returns.call _ (mem_below h)) ?_
    refine requested_step (Returns.step (computePlaylistCrc32_returns (mem_below h))
      (Returns.pure _)) ?_
    exact Returns.pure _

/-- One turn of the plain loop over the playlists. -/
def plainBuildNext (fields : List Bytes) (playlist : Playlist ι)
    (result : List (Playlist ι × PlaylistJson)) : IdM (List (Playlist ι × PlaylistJson)) := do
  let json ← RemoteControl.buildPlaylistJson fields playlist
  pure (result ++ [(playlist, json)])

theorem plainForEach_buildNext (loaded : List (Option (Playlist ι))) (i : Nat)
    (result : List (Playlist ι × PlaylistJson)) :
    plainForEach (fun _ => plainBuildNext fields) loaded i result =
      (result ++ ·) <$> buildEach fields (loaded.filterMap fun playlist => playlist) := by
  induction loaded generalizing i result with
  | nil => simp only [plainForEach, buildEach, List.filterMap_nil, map_pure, List.append_nil]
  | cons playlist loaded ih =>
    cases playlist with
    | none =>
      rw [plainForEach, ih]
      rfl
    | some playlist =>
      simp only [plainForEach, plainBuildNext, buildEach, List.filterMap_cons, bind_assoc,
        pure_bind, ih, map_eq_pure_bind, List.append_assoc, List.singleton_append]

/-- The objects of the reply are those the plain program builds. -/
theorem buildPlaylists_balanced (fields : List Bytes) :
    Balanced (buildPlaylists core fields)
      (List.map Prod.snd <$> RemoteControl.buildPlaylists core fields) := by
  intro held
  unfold RemoteControl.buildPlaylists Core.playlists
  refine Returns.withRef (Gives.take _) ?_ ?_
  · intro hnone
    rw [hnone]
    exact Returns.pure _
  · intro mgr token hsome
    rw [hsome]
    refine Returns.call_step mem_top (meets_map.mpr ?_)
    have hloop : Meets (token ::ₘ held) (forEach ⟨mgr, token⟩ (fun mgr i => mgr.loaded[i]?.join)
        (fun _ playlist result => releasing playlist do
          let json ← buildPlaylistJson fields playlist
          pure (result ++ [json])) mgr.loaded.length 0 [])
        (plainForEach (fun _ => plainBuildNext fields) mgr.loaded 0 [])
        fun plain result after => result = plain.map Prod.snd ∧ after = token ::ₘ held := by
      refine Meets.forEach mem_top ?_ ?_ rfl
      · rintro i playlist token' plain _ rfl
        refine Meets.releasing ?_
        refine Returns.both (buildPlaylistJson_returns mem_top) fun json => ?_
        refine Meets.pure ⟨_, rfl, ?_, rfl⟩
        rw [List.map_append, List.map_singleton]
      · intro k hk
        dsimp only
        rw [Nat.zero_add, List.getElem?_eq_getElem hk, Option.join_some]
    rw [plainForEach_buildNext, meets_map] at hloop
    exact hloop

end playlists

/-! ## CreatePlaylist -/

theorem titleOf_gives {title : Bytes} :
    Gives (σ := σ) held (titleOf core title)
      (if title ≠ [] ∧ core.createString title then some title else none) :=
  searchStringOf_gives

theorem createNamed_gives {mgr : Ref (PlaylistManager ι)} {name : Option (Ref Bytes)}
    (hmgr : mgr.token ∈ held) (hname : ∀ ref ∈ name, ref.token ∈ held) :
    Gives (σ := σ) held (createNamed mgr name)
      (mgr.object.createPlaylist ((name.map Ref.object).getD [])) := by
  cases name with
  | none => exact Gives.query _ hmgr
  | some name =>
    refine Returns.call_step (hname name rfl) ?_
    exact Gives.query (fun mgr : PlaylistManager ι => mgr.createPlaylist name.object) hmgr

theorem newPlaylistId_returns {mgr : Ref (PlaylistManager ι)} {name : Option (Ref Bytes)}
    (hmgr : mgr.token ∈ held) (hname : ∀ ref ∈ name, ref.token ∈ held) :
    Returns (σ := σ) held (newPlaylistId mgr name)
      (pure (RemoteControl.getPlaylistAIMPId
        (mgr.object.createPlaylist ((name.map Ref.object).getD [])))) := by
  refine Returns.withRef (createNamed_gives hmgr hname) ?_ ?_
  · intro hnone
    rw [hnone]
    exact Returns.pure _
  · intro playlist token hsome
    rw [hsome]
    exact getPlaylistAIMPId_returns fun _ h => by cases h; exact mem_top

theorem createPlaylistBody_balanced (title : Bytes) :
    Balanced (σ := σ) (createPlaylistBody core title)
      (pure (RemoteControl.getPlaylistAIMPId (RemoteControl.createPlaylistBody core title))) := by
  intro held
  unfold RemoteControl.createPlaylistBody
  refine Returns.withRef (Gives.take _) ?_ ?_
  · intro hnone
    rw [hnone]
    exact Returns.pure _
  · intro mgr token hsome
    rw [hsome]
    refine Meets.step titleOf_gives fun name now hname => ?_
    have htitle : (name.map Ref.object).getD [] =
        if title ≠ [] ∧ core.createString title then title else [] := by
      rw [hname.object]
      split
      · rfl
      · rfl
    refine Returns.step (newPlaylistId_returns (Multiset.mem_of_le hname.le mem_top) hname.mem) ?_
    refine Meets.step (Meets.releaseIf hname.eq_tokens) ?_
    rintro _ _ rfl
    rw [htitle]
    exact Returns.pure _

end RemoteControl.Counted
