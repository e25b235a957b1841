import Mathlib.Data.List.ReduceOption
import RemoteControl.Commands.SuccessReplies
import RemoteControl.Commands.Tracks

/-!
# Counts and rows

`GetPlaylistEntries` counts the rows that it lists, `GetQueuedEntries` the items of the queue,
also those that it could not read (`counts_rows_iff`).
-/

namespace RemoteControl

open Growth

variable {ι : Type}

/-- The command with its reply. -/
def getQueuedEntriesCommand (core : Core ι) (scheduling : Scheduling) (params : Json) :
    IdM (Outcome ι) :=
  match params.stringsValue (ascii "fields") with
  | some fields => do
    let done ← runIssuing none scheduling do
      let reply ← getQueuedEntries core
      pure (some reply, [])
    pure {
      reply := .rpc (.ok (match done.value with
        | none => .null
        | some reply => EntriesReply.json core fields reply))
      ran := done.ran
      calls := done.calls }
  | none => pure (refuse .typeError)

/-! ## The loops -/

section Loops

variable {core : Core ι} {searchString : Option Bytes} {s t : IdSession}

/-- The items that can be read, with their places from `i` on. -/
def readableFrom (i : Nat) (items : List (Option ι)) : List (Int × ι) :=
  (items.zipIdx i).filterMap fun p => p.1.map fun item => ((p.2 : Int), item)

theorem readableFrom_none (i : Nat) (items : List (Option ι)) :
    readableFrom i (none :: items) = readableFrom (i + 1) items := rfl

theorem readableFrom_some (i : Nat) (item : ι) (items : List (Option ι)) :
    readableFrom i (some item :: items) = ((i : Int), item) :: readableFrom (i + 1) items := rfl

theorem map_snd_readableFrom (i : Nat) (items : List (Option ι)) :
    (readableFrom i items).map Prod.snd = items.reduceOption := by
  induction items generalizing i with
  | nil => rfl
  | cons head items ih =>
    cases head with
    | none => rw [readableFrom_none, ih, List.reduceOption_cons_of_none]
    | some item =>
      rw [readableFrom_some, List.map_cons, ih, List.reduceOption_cons_of_some]

theorem mem_readableFrom {i : Nat} {items : List (Option ι)} {place : Int} {item : ι}
    (h : (place, item) ∈ readableFrom i items) :
    ∃ n : Nat, place = (i + n : Nat) ∧ items[n]? = some (some item) := by
  obtain ⟨⟨head, place'⟩, hmem, hmap⟩ := List.mem_filterMap.mp h
  obtain ⟨item', rfl, heq⟩ := Option.map_eq_some_iff.mp hmap
  cases heq
  have ⟨hle, hget⟩ := List.mk_mem_zipIdx_iff_le_and_getElem?_sub.mp hmem
  exact ⟨place' - i, by omega, hget⟩

/-- The queue's rows are those of the items that could be read, each with its place. -/
theorem collectQueued_rows {i : Nat} {items : List (Option ι)}
    {found : List (PlaylistEntryContext ι)} (h : collectQueued core i items s = some (found, t)) :
    found.map (fun ctx => (ctx.queueIndex, ctx.item)) = readableFrom i items := by
  induction items generalizing i s found with
  | nil =>
    cases h
    rfl
  | cons head items ih =>
    cases head with
    | none => exact ih (i := i + 1) h
    | some item =>
      obtain ⟨⟨entryId, s₁⟩, -, h⟩ := Option.bind_eq_some_iff.mp h
      obtain ⟨⟨id, s₂⟩, -, h⟩ := Option.bind_eq_some_iff.mp h
      obtain ⟨⟨rest, s₃⟩, hrest, h⟩ := Option.bind_eq_some_iff.mp h
      cases h
      rw [List.map_cons, ih (i := i + 1) hrest, readableFrom_some]
      rfl

/-- Whether an item is listed; its ids play no part. -/
def isListed (core : Core ι) (searchString : Option Bytes) (item : ι) : Bool :=
  searchString.all (playlistEntryMatches core (PlaylistEntryContext.of core item 0 0))

theorem collectItems_rows {i : Int} {playlistAIMPId : Bytes} {id : PluginId}
    {items : List (Option ι)} {found : List (PlaylistEntryContext ι)}
    (h : collectItems core searchString playlistAIMPId id i items s = some (found, t)) :
    found.map PlaylistEntryContext.item =
      items.reduceOption.filter (isListed core searchString) := by
  induction items generalizing i s found with
  | nil =>
    cases h
    rfl
  | cons head items ih =>
    cases head with
    | none => exact ih h
    | some item =>
      obtain ⟨⟨entryId, s₁⟩, -, h⟩ := Option.bind_eq_some_iff.mp h
      obtain ⟨⟨rest, s₂⟩, hrest, h⟩ := Option.bind_eq_some_iff.mp h
      have hlisted : searchString.all (playlistEntryMatches core
          (PlaylistEntryContext.of core item entryId id)) = isListed core searchString item := rfl
      cases h
      rw [hlisted, List.reduceOption_cons_of_some, List.filter_cons, ← ih hrest]
      split <;> rfl

theorem collectAll_rows {playlists : List (Playlist ι)} {total : Int}
    {found : List (PlaylistEntryContext ι)}
    (h : collectAll core searchString playlists s = some ((total, found), t)) :
    found.map PlaylistEntryContext.item =
      (playlists.flatMap fun playlist => playlist.items.reduceOption).filter
        (isListed core searchString) := by
  induction playlists generalizing s total found with
  | nil =>
    cases h
    rfl
  | cons playlist playlists ih =>
    obtain ⟨⟨⟨one, listed⟩, s₁⟩, hone, h⟩ := Option.bind_eq_some_iff.mp h
    obtain ⟨⟨⟨others, rest⟩, s₂⟩, hrest, h⟩ := Option.bind_eq_some_iff.mp h
    cases h
    obtain ⟨⟨id, s₃⟩, -, hone⟩ := Option.bind_eq_some_iff.mp hone
    obtain ⟨⟨listed', s₄⟩, hitems, hone⟩ := Option.bind_eq_some_iff.mp hone
    cases hone
    rw [List.map_append, collectItems_rows hitems, ih hrest, List.flatMap_cons, List.filter_append]

/-! With room for the ids the loops end. -/

theorem collectQueued_of_room {i : Int} {items : List (Option ι)} (h : s.RoomFor items.length) :
    ∃ found t, collectQueued core i items s = some (found, t) := by
  induction items generalizing i s with
  | nil => exact ⟨[], s, rfl⟩
  | cons head items ih =>
    rw [List.length_cons] at h
    cases head with
    | none => exact ih (h.mono (Nat.le_succ _))
    | some item =>
      obtain ⟨entryId, s₁, hentry, hplaylists, hitems⟩ :=
        trackId_of_room (p := (locate core item).aimpPlaylistId) (i := (locate core item).index)
          (s := s) (by have := h.2; omega)
      obtain ⟨id, s₂, hid, hplaylists', hitems'⟩ :=
        playlistId_of_room (p := (locate core item).aimpPlaylistId) (s := s₁)
          (by have := h.1; omega)
      have hroom : s₂.RoomFor items.length := ⟨by have := h.1; omega, by have := h.2; omega⟩
      obtain ⟨rest, s₃, hrest⟩ := ih (i := i + 1) hroom
      exact ⟨_, s₃, bind_returns hentry (bind_returns hid (bind_returns hrest rfl))⟩

theorem collectItems_of_room {i : Int} {playlistAIMPId : Bytes} {id : PluginId}
    {items : List (Option ι)} {n : Nat} (h : s.RoomFor (items.length + n)) :
    ∃ found t, collectItems core searchString playlistAIMPId id i items s = some (found, t) ∧
      t.RoomFor n := by
  induction items generalizing i s with
  | nil => exact ⟨[], s, rfl, h.mono (Nat.le_add_left _ _)⟩
  | cons head items ih =>
    rw [List.length_cons] at h
    cases head with
    | none => exact ih (h.mono (by omega))
    | some item =>
      obtain ⟨entryId, s₁, hentry, hplaylists, hitems⟩ :=
        trackId_of_room (p := playlistAIMPId) (i := i) (s := s) (by have := h.2; omega)
      have hroom : s₁.RoomFor (items.length + n) :=
        ⟨by have := h.1; omega, by have := h.2; omega⟩
      obtain ⟨rest, s₂, hrest, hroom⟩ := ih (i := i + 1) hroom
      exact ⟨_, s₂, bind_returns hentry (bind_returns hrest rfl), hroom⟩

/-- One id for the playlist and one for each of its items. -/
def idsListed (playlists : List (Playlist ι)) : Nat :=
  (playlists.map fun playlist => playlist.items.length + 1).sum

theorem collectAll_of_room {playlists : List (Playlist ι)} (h : s.RoomFor (idsListed playlists)) :
    ∃ found t, collectAll core searchString playlists s = some (found, t) := by
  induction playlists generalizing s with
  | nil => exact ⟨_, s, rfl⟩
  | cons playlist playlists ih =>
    have hsum : idsListed (playlist :: playlists) =
        playlist.items.length + 1 + idsListed playlists := by
      rw [idsListed, List.map_cons, List.sum_cons, idsListed]
    rw [hsum] at h
    obtain ⟨id, s₁, hid, hplaylists, hitems⟩ :=
      playlistId_of_room (p := getPlaylistAIMPId (some playlist)) (s := s)
        (by have := h.1; omega)
    have hroom : s₁.RoomFor (playlist.items.length + idsListed playlists) :=
      ⟨by have := h.1; omega, by have := h.2; omega⟩
    obtain ⟨listed, s₂, hlisted, hroom⟩ := collectItems_of_room hroom
    obtain ⟨rest, s₃, hrest⟩ := ih hroom
    exact ⟨_, s₃, bind_returns (bind_returns hid (bind_returns hlisted rfl))
      (bind_returns hrest rfl)⟩

end Loops

/-! ## The replies -/

section Replies

variable {core : Core ι} {scheduling : Scheduling} {params : Json} {fields : List Bytes}
  {s t : IdSession} {outcome : Outcome ι}

/-- The reply has one row for each of these entries, in their order. -/
def HasRows (core : Core ι) (fields : List Bytes) (found : List (PlaylistEntryContext ι))
    (reply : Reply) : Prop :=
  ∃ json, reply = .rpc (.ok json) ∧ json.member (ascii "entries") =
    some (.arr (found.map fun ctx => .arr (entryRow core fields ctx)))

/-- `count_of_found_entries` is the length of `entries`. -/
def CountsRows (reply : Reply) : Prop :=
  ∃ json rows, reply = .rpc (.ok json) ∧ json.member (ascii "entries") = some (.arr rows) ∧
    json.member (ascii "count_of_found_entries") = some (.int rows.length)

/-- The items of the play queue, as `GetItem` gives them. -/
def queueItems (core : Core ι) : List (Option ι) :=
  (core.playlistQueue.map PlaylistQueue.items).getD []

/-- A reply of `GetQueuedEntries`: its rows are in queue order, tell their place in the
queue and are counted. -/
def QueueReported (core : Core ι) (fields : List Bytes) (reply : Reply) : Prop :=
  CountsRows reply ∧ ∃ found, HasRows core fields found reply ∧
    found.map PlaylistEntryContext.item = (queueItems core).reduceOption ∧
    found.map (fun ctx => (ctx.queueIndex, ctx.item)) = readableFrom 0 (queueItems core) ∧
    ∀ ctx ∈ found, ∃ place : Nat, (queueItems core)[place]? = some (some ctx.item) ∧
      playlistEntryField core (ascii "queue_index") ctx = .int place

/-- A reply of `GetPlaylistEntries`: its rows are the listed items of one playlist after
the other, each in its order, and are counted. -/
def PlaylistsReported (core : Core ι) (fields : List Bytes) (search : Bytes)
    (playlists : List (Playlist ι)) (reply : Reply) : Prop :=
  CountsRows reply ∧ ∃ found, HasRows core fields found reply ∧
    found.map PlaylistEntryContext.item =
      (playlists.flatMap fun playlist => playlist.items.reduceOption).filter
        (isListed core (if search ≠ [] ∧ core.createString search then some search else none))

theorem member_entries (core : Core ι) (fields : List Bytes) (reply : EntriesReply ι) :
    (reply.json core fields).member (ascii "entries") =
      some (.arr (reply.found.map fun ctx => .arr (entryRow core fields ctx))) := by
  have hkey : ascii "count_of_found_entries" ≠ ascii "entries" := by decide
  simp [EntriesReply.json, EntriesReply.entries, Json.member, hkey, Function.comp_def]

theorem member_count (core : Core ι) (fields : List Bytes) (reply : EntriesReply ι) :
    (reply.json core fields).member (ascii "count_of_found_entries") =
      some (.int reply.countOfFoundEntries) := by
  simp [EntriesReply.json, Json.member]

theorem hasRows_json (core : Core ι) (fields : List Bytes) (reply : EntriesReply ι) :
    HasRows core fields reply.found (.rpc (.ok (reply.json core fields))) :=
  ⟨_, rfl, member_entries core fields reply⟩

theorem countsRows_json_iff (core : Core ι) (fields : List Bytes) (reply : EntriesReply ι) :
    CountsRows (.rpc (.ok (reply.json core fields))) ↔
      reply.countOfFoundEntries = reply.found.length := by
  constructor
  · rintro ⟨json, rows, heq, hrows, hcount⟩
    cases heq
    rw [member_entries] at hrows
    rw [member_count] at hcount
    cases hrows
    rw [List.length_map] at hcount
    exact Json.int.inj (Option.some.inj hcount)
  · intro h
    refine ⟨_, _, rfl, member_entries core fields reply, ?_⟩
    rw [member_count, h, List.length_map]

/-- The value-initialised reply of a task that is not run has no count. -/
theorem not_countsRows_null : ¬CountsRows (.rpc (.ok .null)) := by
  rintro ⟨json, rows, heq, hrows, -⟩
  cases heq
  cases hrows

/-! ## What the commands answer -/

theorem getQueuedEntries_found {reply : EntriesReply ι}
    (h : getQueuedEntries core s = some (reply, t)) :
    reply.countOfFoundEntries = (queueItems core).length ∧
      reply.found.map (fun ctx => (ctx.queueIndex, ctx.item)) =
        readableFrom 0 (queueItems core) := by
  unfold getQueuedEntries at h
  unfold queueItems
  cases hqueue : core.playlistQueue with
  | none =>
    rw [hqueue] at h
    cases h
    exact ⟨rfl, rfl⟩
  | some queue =>
    rw [hqueue] at h
    obtain ⟨⟨found, u⟩, hfound, h⟩ := Option.bind_eq_some_iff.mp h
    cases h
    exact ⟨rfl, collectQueued_rows hfound⟩

/-- The rows are there for the readable items, the count for all. -/
theorem getQueuedEntries_reported_iff {reply : EntriesReply ι}
    (h : getQueuedEntries core s = some (reply, t)) :
    QueueReported core fields (.rpc (.ok (reply.json core fields))) ↔
      none ∉ queueItems core := by
  obtain ⟨hcount, hplaces⟩ := getQueuedEntries_found h
  have hitems : reply.found.map PlaylistEntryContext.item = (queueItems core).reduceOption := by
    rw [← map_snd_readableFrom 0, ← hplaces, List.map_map]
    rfl
  have hlength : reply.found.length = (queueItems core).reduceOption.length := by
    rw [← hitems, List.length_map]
  have hcounts : CountsRows (.rpc (.ok (reply.json core fields))) ↔ none ∉ queueItems core := by
    rw [countsRows_json_iff, hcount, hlength, Int.natCast_inj, eq_comm,
      List.reduceOption_length_eq_iff]
    constructor
    · intro hall hnone
      cases hall none hnone
    · intro hnone item hitem
      exact Option.isSome_iff_ne_none.mpr fun heq => hnone (heq ▸ hitem)
  rw [QueueReported, hcounts]
  refine and_iff_left ⟨reply.found, hasRows_json core fields reply, hitems, hplaces, ?_⟩
  intro ctx hctx
  have hmem : (ctx.queueIndex, ctx.item) ∈ readableFrom 0 (queueItems core) := by
    rw [← hplaces]
    exact List.mem_map_of_mem hctx
  obtain ⟨place, hplace, hget⟩ := mem_readableFrom hmem
  rw [Nat.zero_add] at hplace
  refine ⟨place, hget, ?_⟩
  rw [← hplace]
  rfl

theorem getPlaylistEntries_reported {search : Bytes} {byPlaylist : Option PluginId}
    {reply : EntriesReply ι} (h : getPlaylistEntries core search byPlaylist s = some (reply, t)) :
    PlaylistsReported core fields search (playlistsToList core s.manager byPlaylist)
      (.rpc (.ok (reply.json core fields))) := by
  obtain ⟨⟨⟨total, found⟩, v⟩, hfound, h⟩ := Option.bind_eq_some_iff.mp h
  cases h
  exact ⟨(countsRows_json_iff core fields _).mpr rfl, found, hasRows_json core fields _,
    collectAll_rows hfound⟩

/-- What becomes of a listing: it is answered where its task is run. -/
theorem runIssuing_entries {task : IdM (EntriesReply ι)}
    {done : TaskResult ι (Option (EntriesReply ι))}
    (h : runIssuing none scheduling (do let reply ← task; pure (some reply, [])) s =
      some (done, t)) :
    (¬scheduling.Runs ∧ done.value = none) ∨
      (scheduling.Runs ∧ ∃ reply, task s = some (reply, t) ∧ done.value = some reply) := by
  cases scheduling with
  | refused answer =>
    cases h
    exact Or.inl ⟨id, rfl⟩
  | noService | executed answer =>
    obtain ⟨⟨⟨value, calls⟩, u⟩, htask, hdone⟩ := Option.bind_eq_some_iff.mp h
    obtain ⟨⟨reply, v⟩, hreply, hpure⟩ := Option.bind_eq_some_iff.mp htask
    cases hpure
    cases hdone
    exact Or.inr ⟨trivial, reply, hreply, rfl⟩

/-- The other way round: a task that is run and ends is answered. -/
theorem runIssuing_entries_of_runs {task : IdM (EntriesReply ι)} {reply : EntriesReply ι}
    (hruns : scheduling.Runs) (h : task s = some (reply, t)) :
    runIssuing none scheduling
        (do let reply ← task; pure (some reply, ([] : List (Call ι)))) s =
      some (⟨some reply, true, []⟩, t) := by
  have hbody : (do let reply ← task; pure (some reply, ([] : List (Call ι)))) s =
      some ((some reply, []), t) := bind_returns h rfl
  cases scheduling with
  | refused answer => cases hruns
  | noService | executed answer => exact bind_returns hbody rfl

theorem getQueuedEntriesCommand_reply {reply : EntriesReply ι} (hruns : scheduling.Runs)
    (hfields : params.stringsValue (ascii "fields") = some fields)
    (h : getQueuedEntries core s = some (reply, t)) :
    getQueuedEntriesCommand core scheduling params s =
      some ({ reply := .rpc (.ok (reply.json core fields)), ran := true }, t) := by
  simp only [getQueuedEntriesCommand, hfields]
  exact bind_returns (runIssuing_entries_of_runs hruns h) rfl

theorem getQueuedEntriesCommand_reported_iff
    (hfields : params.stringsValue (ascii "fields") = some fields)
    (h : getQueuedEntriesCommand core scheduling params s = some (outcome, t)) :
    QueueReported core fields outcome.reply ↔ scheduling.Runs ∧ none ∉ queueItems core := by
  simp only [getQueuedEntriesCommand, hfields] at h
  obtain ⟨⟨done, u⟩, hdone, h⟩ := Option.bind_eq_some_iff.mp h
  cases h
  rcases runIssuing_entries hdone with ⟨hruns, hvalue⟩ | ⟨hruns, reply, hreply, hvalue⟩
  · simp only [hvalue]
    exact iff_of_false (fun h => not_countsRows_null h.1) (fun h => hruns h.1)
  · simp only [hvalue]
    rw [getQueuedEntries_reported_iff hreply, and_iff_right hruns]

theorem getPlaylistEntriesCommand_reported_iff {search : Bytes}
    (hfields : params.stringsValue (ascii "fields") = some fields)
    (hsearch : params.stringValue (ascii "search_string") = some search)
    (h : getPlaylistEntriesCommand core scheduling params s = some (outcome, t)) :
    PlaylistsReported core fields search
        (playlistsToList core s.manager (params.int32 (ascii "playlist_id"))) outcome.reply ↔
      scheduling.Runs := by
  simp only [getPlaylistEntriesCommand, hfields, hsearch] at h
  obtain ⟨⟨done, u⟩, hdone, h⟩ := Option.bind_eq_some_iff.mp h
  cases h
  rcases runIssuing_entries hdone with ⟨hruns, hvalue⟩ | ⟨hruns, reply, hreply, hvalue⟩
  · simp only [hvalue]
    exact iff_of_false (fun h => not_countsRows_null h.1) hruns
  · simp only [hvalue]
    exact iff_of_true (getPlaylistEntries_reported hreply) hruns

/-! Both commands reply as long as there is room for the ids. -/

theorem runIssuing_entries_total {task : IdM (EntriesReply ι)}
    (h : ∃ reply t, task s = some (reply, t)) :
    ∃ done t, runIssuing none scheduling
      (do let reply ← task; pure (some reply, ([] : List (Call ι)))) s = some (done, t) := by
  obtain ⟨reply, t, hreply⟩ := h
  by_cases hruns : scheduling.Runs
  · exact ⟨_, t, runIssuing_entries_of_runs hruns hreply⟩
  · cases scheduling with
    | refused answer => exact ⟨_, s, rfl⟩
    | noService | executed answer => exact absurd trivial hruns

theorem getQueuedEntriesCommand_total
    (hfields : params.stringsValue (ascii "fields") = some fields)
    (hroom : s.RoomFor (queueItems core).length) :
    ∃ outcome t, getQueuedEntriesCommand core scheduling params s = some (outcome, t) := by
  have hreply : ∃ reply t, getQueuedEntries core s = some (reply, t) := by
    unfold queueItems at hroom
    unfold getQueuedEntries
    cases hqueue : core.playlistQueue with
    | none => exact ⟨_, s, rfl⟩
    | some queue =>
      rw [hqueue] at hroom
      obtain ⟨found, t, hfound⟩ := @collectQueued_of_room ι core s 0 _ hroom
      exact ⟨_, t, bind_returns hfound rfl⟩
  obtain ⟨done, t, hdone⟩ := @runIssuing_entries_total ι scheduling s _ hreply
  simp only [getQueuedEntriesCommand, hfields]
  exact ⟨_, t, bind_returns hdone rfl⟩

theorem getPlaylistEntriesCommand_total {search : Bytes}
    (hfields : params.stringsValue (ascii "fields") = some fields)
    (hsearch : params.stringValue (ascii "search_string") = some search)
    (hroom : s.RoomFor (idsListed
      (playlistsToList core s.manager (params.int32 (ascii "playlist_id"))))) :
    ∃ outcome t, getPlaylistEntriesCommand core scheduling params s = some (outcome, t) := by
  have hreply : ∃ reply t, getPlaylistEntries core search (params.int32 (ascii "playlist_id")) s =
      some (reply, t) := by
    obtain ⟨⟨total, found⟩, t, hfound⟩ := collectAll_of_room hroom
    exact ⟨_, t, bind_returns rfl (bind_returns hfound rfl)⟩
  obtain ⟨done, t, hdone⟩ := @runIssuing_entries_total ι scheduling s _ hreply
  simp only [getPlaylistEntriesCommand, hfields, hsearch]
  exact ⟨_, t, bind_returns hdone rfl⟩

/-- **`count_of_found_entries` is the number of rows** in `GetPlaylistEntries` wherever the
task is run, and in `GetQueuedEntries` if besides every item of the queue can be read. -/
theorem counts_rows_iff {scheduling' : Scheduling} {params' : Json} {fields' : List Bytes}
    {search : Bytes} {s' t' : IdSession} {outcome' : Outcome ι}
    (hfields : params.stringsValue (ascii "fields") = some fields)
    (hqueued : getQueuedEntriesCommand core scheduling params s = some (outcome, t))
    (hfields' : params'.stringsValue (ascii "fields") = some fields')
    (hsearch : params'.stringValue (ascii "search_string") = some search)
    (hlisted : getPlaylistEntriesCommand core scheduling' params' s' = some (outcome', t')) :
    QueueReported core fields outcome.reply ∧
        PlaylistsReported core fields' search
          (playlistsToList core s'.manager (params'.int32 (ascii "playlist_id"))) outcome'.reply ↔
      (scheduling.Runs ∧ none ∉ queueItems core) ∧ scheduling'.Runs :=
  and_congr (getQueuedEntriesCommand_reported_iff hfields hqueued)
    (getPlaylistEntriesCommand_reported_iff hfields' hsearch hlisted)

end Replies

/-! ## An item that cannot be read -/

/-- A player whose queue is this, and that has one playlist. -/
def queueingPlayer (queue : List (Option Unit)) : Core Unit :=
  { oneTrackPlayer with
    playlistQueue := some { items := queue, add := fun _ _ => sOk, delete := fun _ => sOk } }

def titlesRequest : Json := .obj [(ascii "fields", .arr [.str (ascii "title")])]

/-- Three items are counted, and two rows listed. -/
theorem gap_counted : ∃ outcome t json rows,
    getQueuedEntriesCommand (queueingPlayer [some (), none, some ()]) .noService titlesRequest
        .empty = some (outcome, t) ∧
      outcome.reply = .rpc (.ok json) ∧ json.member (ascii "entries") = some (.arr rows) ∧
      rows.length = 2 ∧ json.member (ascii "count_of_found_entries") = some (.int 3) ∧
      ¬CountsRows outcome.reply := by
  obtain ⟨⟨reply, t⟩, hreply⟩ : ∃ replied,
      getQueuedEntries (queueingPlayer [some (), none, some ()]) .empty = some replied :=
    Option.isSome_iff_exists.mp (by decide +kernel)
  obtain ⟨hcount, hplaces⟩ := getQueuedEntries_found hreply
  have hlength : reply.found.length = 2 := by
    rw [← List.length_map, hplaces]
    rfl
  have hmember := member_count (queueingPlayer [some (), none, some ()]) [ascii "title"] reply
  rw [hcount] at hmember
  have hrun := @getQueuedEntriesCommand_reply Unit _ .noService titlesRequest _ _ _ _ trivial rfl
    hreply
  refine ⟨_, t, _, _, hrun, rfl, member_entries _ _ reply, ?_, hmember, ?_⟩
  · rw [List.length_map, hlength]
  · rw [countsRows_json_iff, hcount, hlength]
    decide

/-- With a queue that can be read both commands count their rows. -/
theorem whole_queue_counted : ∃ outcome t outcome' t',
    getQueuedEntriesCommand (queueingPlayer [some (), some ()]) .noService titlesRequest .empty =
        some (outcome, t) ∧
      getPlaylistEntriesCommand (queueingPlayer [some (), some ()]) .noService titlesRequest
          .empty = some (outcome', t') ∧
      CountsRows outcome.reply ∧ CountsRows outcome'.reply := by
  obtain ⟨outcome, t, hqueued⟩ := @getQueuedEntriesCommand_total Unit
    (queueingPlayer [some (), some ()]) .noService titlesRequest [ascii "title"] .empty rfl
    ⟨by decide +kernel, by decide +kernel⟩
  obtain ⟨outcome', t', hlisted⟩ := @getPlaylistEntriesCommand_total Unit
    (queueingPlayer [some (), some ()]) .noService titlesRequest [ascii "title"] .empty [] rfl rfl
    ⟨by decide +kernel, by decide +kernel⟩
  have hreported := (counts_rows_iff rfl hqueued rfl rfl hlisted).mpr
    ⟨⟨trivial, by decide⟩, trivial⟩
  exact ⟨outcome, t, outcome', t', hqueued, hlisted, hreported.1.1, hreported.2.1⟩

end RemoteControl
