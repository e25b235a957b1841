import RemoteControl.Commands.IdTargets
import RemoteControl.Http.Routes
import RemoteControl.Upload.Refused

/-!
# The endpoints that are given an id

Album covers, downloads and uploads take their id from the path, as a decimal number that
`std::stol` reads.

* `stoll_of_isNumber`: what it makes of a matched number.
* `UrlEndpoint.actsOn`: what is served is of the object with that id, and an upload adds to it.
* `UrlEndpoint.answersNotFound_iff`: when it is answered that the id names nothing.
-/

namespace RemoteControl

variable {ι : Type}

/-! ## Numbers in paths -/

/-- The integer a matched number stands for. -/
def decimalValue (number : Bytes) : Int :=
  if number.head? = some 45 then -(digitsValue number.tail : Int) else digitsValue number

/-- What `-?\d+` matches. -/
def IsNumber (s : Bytes) : Prop :=
  ∃ sign digits, s = sign ++ digits ∧ (sign = [] ∨ sign = [45]) ∧ digits ≠ [] ∧
    ∀ d ∈ digits, isDigit d = true

theorem stoll_of_isNumber {s : Bytes} (h : IsNumber s) :
    stoll s = if -2 ^ 63 ≤ decimalValue s ∧ decimalValue s < 2 ^ 63 then some (decimalValue s)
      else none := by
  obtain ⟨sign, digits, rfl, hsign, hne, hdigits⟩ := h
  have htake : digits.takeWhile isDigit = digits := List.takeWhile_eq_self_iff.mpr hdigits
  obtain ⟨d, ds, rfl⟩ := List.exists_cons_of_ne_nil hne
  have hd : isDigit d = true := hdigits d List.mem_cons_self
  rcases hsign with rfl | rfl
  · have h45 : d ≠ 45 := by rintro rfl; cases hd
    have h43 : d ≠ 43 := by rintro rfl; cases hd
    have hdrop : (d :: ds).dropWhile isSpace = d :: ds := by
      rw [List.dropWhile_cons_of_neg (by simp [not_isSpace_of_isDigit hd])]
    simp [stoll, hdrop, takeSign, htake, decimalValue, h45, h43]
  · have hdrop : (45 :: d :: ds).dropWhile isSpace = 45 :: d :: ds := rfl
    simp [stoll, hdrop, takeSign, htake, decimalValue]

open Http in
theorem isNumber_of_matchPieces {pieces : List Piece} {path : Bytes} {groups : List Bytes}
    (h : matchPieces pieces path = some groups) : ∀ g ∈ groups, IsNumber g := by
  induction pieces generalizing path groups with
  | nil =>
    rw [matchPieces] at h
    split at h <;> cases h
    intro g hg
    cases hg
  | cons piece pieces ih =>
    cases piece with
    | text s =>
      obtain ⟨rest, -, hrest⟩ := matchPieces_text.mp h
      exact ih hrest
    | number signed captured =>
      obtain ⟨n, hn, hmap⟩ := Option.bind_eq_some_iff.mp h
      obtain ⟨groups', hrest, rfl⟩ := Option.map_eq_some_iff.mp hmap
      obtain ⟨sign, digits, htake, hsign, hne, hdigits⟩ := numberLength_eq_some hn
      have hnumber : IsNumber (path.take n) :=
        ⟨sign, digits, htake, hsign.imp_right And.right, hne, hdigits⟩
      cases captured with
      | false => exact ih hrest
      | true =>
        exact List.forall_mem_cons.mpr ⟨hnumber, ih hrest⟩
    | oneOf alternatives =>
      obtain ⟨s, -, hs⟩ := List.exists_of_findSome?_eq_some h
      obtain ⟨rest, -, hrest⟩ := Option.bind_eq_some_iff.mp hs
      exact ih hrest

/-! ## The endpoints with an id in their path -/

/-- The handlers, with what else they work on. -/
inductive UrlEndpoint (ι : Type)
  | albumCover (art : AlbumArt ι) (moment : Moment ι)
  | downloadTrack (localFiles : LocalFiles) (moment : Moment ι)
  | uploadTrack (features : FeatureSettings) (platform : Platform)
      (files : List HttpUploadedFile) (world : UploadWorld ι)

namespace UrlEndpoint

def pattern : UrlEndpoint ι → List Http.Piece
  | albumCover _ _ => Http.coverPattern
  | downloadTrack _ _ => Http.downloadPattern
  | uploadTrack _ _ _ _ => Http.uploadPattern

/-- The moment at which the id is looked up. -/
def moment : UrlEndpoint ι → Moment ι
  | albumCover _ moment | downloadTrack _ moment => moment
  | uploadTrack _ _ _ world => world.check

/-- Nothing else in the request keeps it from its task. -/
def Reaches : UrlEndpoint ι → Prop
  | albumCover _ _ | downloadTrack _ _ => True
  | uploadTrack features _ files _ => features.uploadTracks = true ∧ files ≠ []

/-- There is something to serve under this id: a cover, a local file, a playlist. -/
def Serves (e : UrlEndpoint ι) (id : PluginId) : Prop :=
  match e with
  | albumCover art moment => ∃ item owner,
      findPlaylistItem moment.core moment.idManager id = some (item, owner) ∧
      (coverOf art moment.core item).isSome
  | downloadTrack localFiles moment => ∃ item owner,
      findPlaylistItem moment.core moment.idManager id = some (item, owner) ∧
      (fileContent localFiles (localNameOf localFiles moment.core item)).isSome
  | uploadTrack _ _ _ world => PlaylistFound id world.check.core world.check.idManager

/-- What is served is of the item with one of these ids; an upload adds its files to the playlist
with one of these ids, and writes only where there was such a playlist. -/
def ActsOn (e : UrlEndpoint ι) (groups : List Bytes) (ids : PluginId → Prop) : Prop :=
  match e with
  | albumCover art moment => ∀ content, serveCover art moment groups = .found content →
      ∃ id item owner, ids id ∧
        findPlaylistItem moment.core moment.idManager id = some (item, owner) ∧
        coverOf art moment.core item = some content
  | downloadTrack localFiles moment => ∀ content,
      RemoteControl.downloadTrack localFiles moment groups = .found content →
      ∃ id item owner, ids id ∧
        findPlaylistItem moment.core moment.idManager id = some (item, owner) ∧
        fileContent localFiles (localNameOf localFiles moment.core item) = some content
  | uploadTrack features platform files world =>
    let done := RemoteControl.uploadTrack features platform groups files world
    (∀ call ∈ done.2.calls, ∃ id object, ids id ∧
      playlistTarget world.add.core world.add.idManager id = some object ∧
      call.operation.On world.add.core object) ∧
    (done.1 ≠ world.fileSystem → ∃ id, ids id ∧
      PlaylistFound id world.check.core world.check.idManager)

/-- Status 404, with the player and the files left alone; the `GET` handlers only read. -/
def AnswersNotFound (e : UrlEndpoint ι) (groups : List Bytes) : Prop :=
  match e with
  | albumCover art moment => serveCover art moment groups = .notFound
  | downloadTrack localFiles moment =>
    RemoteControl.downloadTrack localFiles moment groups = .notFound
  | uploadTrack features platform files world =>
    let done := RemoteControl.uploadTrack features platform groups files world
    done.2.reply = .http 404 ∧ done.2.calls = [] ∧ done.1 = world.fileSystem

/-- As `RpcCommand.Misses`; a number of more than 64 bits throws. -/
def Misses (e : UrlEndpoint ι) (n : Int) : Prop :=
  e.Reaches ∧ (-2 ^ 63 ≤ n ∧ n < 2 ^ 63) ∧
    (e.moment.scheduling.Runs → ¬e.Serves (BitVec.ofInt 32 n))

/-! ### Covers and downloads -/

section

variable {moment : Moment ι} {number : Bytes} {groups : List Bytes} {n : Int}
  {ids : PluginId → Prop}

theorem albumCover_actsOn (art : AlbumArt ι)
    (hids : ∀ n, stoll number = some n → ids (BitVec.ofInt 32 n)) :
    (albumCover art moment).ActsOn (number :: groups) ids := by
  intro content hfound
  unfold serveCover at hfound
  cases hstoll : stoll number with
  | none =>
    simp only [hstoll] at hfound
    cases hfound
  | some n =>
    simp only [hstoll] at hfound
    obtain ⟨item, owner, hitem, hcover⟩ := loadCover_eq_some (of_eq_found_iff.mp hfound)
    exact ⟨_, item, owner, hids n hstoll, hitem, hcover⟩

theorem downloadTrack_actsOn (localFiles : LocalFiles)
    (hids : ∀ n, stoll number = some n → ids (BitVec.ofInt 32 n)) :
    (downloadTrack localFiles moment).ActsOn (number :: groups) ids := by
  intro content hfound
  unfold RemoteControl.downloadTrack at hfound
  cases hstoll : stoll number with
  | none =>
    simp only [hstoll] at hfound
    cases hfound
  | some n =>
    simp only [hstoll] at hfound
    obtain ⟨item, owner, hitem, hfile⟩ := fileContent_eq_some (of_eq_found_iff.mp hfound)
    exact ⟨_, item, owner, hids n hstoll, hitem, hfile⟩

theorem albumCover_answersNotFound_iff (art : AlbumArt ι) (h : stoll number = some n) :
    (albumCover art moment).AnswersNotFound (number :: groups) ↔
      (moment.scheduling.Runs → ¬(albumCover art moment).Serves (BitVec.ofInt 32 n)) := by
  simp only [AnswersNotFound, serveCover, h, of_eq_notFound_iff, loadCover_eq_none_iff, Serves]
  refine imp_congr_right fun _ => ⟨fun hnone => ?_, fun hnone item owner hitem => ?_⟩
  · rintro ⟨item, owner, hitem, hcover⟩
    rw [hnone item owner hitem] at hcover
    cases hcover
  · exact Option.not_isSome_iff_eq_none.mp fun hcover => hnone ⟨item, owner, hitem, hcover⟩

theorem downloadTrack_answersNotFound_iff (localFiles : LocalFiles) (h : stoll number = some n) :
    (downloadTrack localFiles moment).AnswersNotFound (number :: groups) ↔
      (moment.scheduling.Runs → ¬(downloadTrack localFiles moment).Serves (BitVec.ofInt 32 n)) := by
  simp only [AnswersNotFound, RemoteControl.downloadTrack, h, of_eq_notFound_iff, Serves]
  constructor
  · rintro hnone hruns ⟨item, owner, hitem, hfile⟩
    rw [runOnMainThread_of_runs hruns, localFileName_value, hitem] at hnone
    rw [hnone] at hfile
    cases hfile
  · intro hserves
    cases hfile : fileContent localFiles (runOnMainThread [] moment
        (localFileName localFiles (BitVec.ofInt 32 n))).value with
    | none => rfl
    | some content =>
      have hruns : moment.scheduling.Runs := by
        by_contra hnot
        rw [runOnMainThread_of_not_runs hnot, fileContent_nil] at hfile
        cases hfile
      obtain ⟨item, owner, hitem, hcontent⟩ := fileContent_eq_some hfile
      exact absurd ⟨item, owner, hitem, by rw [hcontent]; rfl⟩ (hserves hruns)

end

/-! ### Uploads -/

section

variable {features : FeatureSettings} {platform : Platform} {files : List HttpUploadedFile}
  {world : UploadWorld ι} {number : Bytes} {groups : List Bytes} {n : Int}
  {ids : PluginId → Prop}

theorem finishUpload_calls {playlistId : PluginId} {saved : FileSystem × Option (List Bytes)} :
    ∀ call ∈ (finishUpload world.add playlistId saved).2.calls, ∃ object,
      playlistTarget world.add.core world.add.idManager playlistId = some object ∧
      call.operation.On world.add.core object := by
  intro call hcall
  obtain ⟨fs, _ | saved⟩ := saved
  · cases hcall
  · exact runOnMainThread_calls (addFilesToPlaylist_actsOn saved) call hcall

/-- An upload that does anything has found its playlist. -/
theorem uploadTrack_cases (features : FeatureSettings) (platform : Platform)
    (files : List HttpUploadedFile) (world : UploadWorld ι) (number : Bytes) (groups : List Bytes) :
    let r : UploadRequest ι := ⟨features, platform, number :: groups, files, world⟩
    (r.run.2.calls = [] ∧ r.run.1 = world.fileSystem ∧ (r.run.2.reply = .http 404 →
        features.uploadTracks = true ∧ files ≠ [] ∧
        ∀ n, stoll number = some n → world.check.scheduling.Runs →
          ¬PlaylistFound (BitVec.ofInt 32 n) world.check.core world.check.idManager)) ∨
      ∃ n, features.uploadTracks = true ∧ files ≠ [] ∧ stoll number = some n ∧
        world.check.scheduling.Runs ∧
        PlaylistFound (BitVec.ofInt 32 n) world.check.core world.check.idManager ∧
        r.run = finishUpload world.add (BitVec.ofInt 32 n) r.savedParts := by
  intro r
  by_cases hfeature : features.uploadTracks = true
  · by_cases hfiles : files = []
    · refine .inl ?_
      simp [r, UploadRequest.run, RemoteControl.uploadTrack, hfeature, hfiles, refuseUpload]
    · cases hstoll : stoll number with
      | none =>
        refine .inl ?_
        simp [r, UploadRequest.run, RemoteControl.uploadTrack, hfeature, hfiles, hstoll,
          refuseUpload]
      | some n =>
        by_cases hfound : world.check.scheduling.Runs ∧
            PlaylistFound (BitVec.ofInt 32 n) world.check.core world.check.idManager
        · refine .inr ⟨n, hfeature, hfiles, rfl, hfound.1, hfound.2, ?_⟩
          exact UploadRequest.run_of_saved hfeature hfiles
            (by rw [List.head?_cons, Option.bind_some, hstoll]) hfound.1 hfound.2
        · refine .inl ?_
          have hmiss := not_and.mp hfound
          obtain ⟨ran, hdone⟩ := runOnMainThread_default world.check playlistExists_unfound hmiss
          have hrun : r.run = (world.fileSystem, refuseUpload 404) := by
            simp [r, UploadRequest.run, RemoteControl.uploadTrack, hfeature, hfiles, hstoll, hdone]
          rw [hrun]
          refine ⟨rfl, rfl, fun _ => ⟨hfeature, hfiles, fun m hm => ?_⟩⟩
          cases hm
          exact hmiss
  · refine .inl ?_
    have hoff : features.uploadTracks = false := Bool.eq_false_iff.mpr hfeature
    simp [r, UploadRequest.run, RemoteControl.uploadTrack, hoff, refuseUpload]

theorem uploadTrack_actsOn (hids : ∀ n, stoll number = some n → ids (BitVec.ofInt 32 n)) :
    (uploadTrack features platform files world).ActsOn (number :: groups) ids := by
  rcases uploadTrack_cases features platform files world number groups with
    ⟨hcalls, hfiles, -⟩ | ⟨n, -, -, hstoll, -, hfound, hrun⟩
  · constructor
    · intro call hcall
      rw [show (RemoteControl.uploadTrack features platform (number :: groups) files world).2.calls
        = [] from hcalls] at hcall
      cases hcall
    · exact fun hne => absurd hfiles hne
  · constructor
    · intro call hcall
      rw [show RemoteControl.uploadTrack features platform (number :: groups) files world = _
        from hrun] at hcall
      obtain ⟨object, htarget, hon⟩ := finishUpload_calls call hcall
      exact ⟨_, object, hids n hstoll, htarget, hon⟩
    · exact fun _ => ⟨_, hids n hstoll, hfound⟩

/-- A 404 after the parts were saved leaves them there. -/
theorem run_ne_of_saved {r : UploadRequest ι} {playlistId : PluginId} (hfiles : r.files ≠ [])
    (hrun : r.run = finishUpload r.world.add playlistId r.savedParts)
    (hreply : r.run.2.reply = .http 404) : r.run.1 ≠ r.world.fileSystem := by
  rcases hparts : r.savedParts with ⟨fs, _ | saved⟩
  · rw [hrun, hparts] at hreply
    simp [finishUpload, refuseUpload] at hreply
  · have hlength := UploadRequest.savedParts_length (congrArg Prod.snd hparts)
    have hpos := List.length_pos_iff.mpr hfiles
    rw [hparts] at hlength
    rw [hrun, hparts]
    rintro rfl
    dsimp only [finishUpload] at hlength
    omega

theorem uploadTrack_answersNotFound_iff (h : stoll number = some n) :
    (uploadTrack features platform files world).AnswersNotFound (number :: groups) ↔
      (uploadTrack features platform files world).Reaches ∧ (world.check.scheduling.Runs →
        ¬PlaylistFound (BitVec.ofInt 32 n) world.check.core world.check.idManager) := by
  constructor
  · rintro ⟨hreply, -, hsame⟩
    rcases uploadTrack_cases features platform files world number groups with
      ⟨-, -, hreaches⟩ | ⟨m, -, hfiles, -, -, -, hrun⟩
    · obtain ⟨hfeature, hfiles, hmiss⟩ := hreaches hreply
      exact ⟨⟨hfeature, hfiles⟩, hmiss n h⟩
    · exact absurd hsame (run_ne_of_saved hfiles hrun hreply)
  · rintro ⟨⟨hfeature, hfiles⟩, hmiss⟩
    obtain ⟨ran, hdone⟩ := runOnMainThread_default world.check playlistExists_unfound hmiss
    simp [AnswersNotFound, RemoteControl.uploadTrack, h, hdone, hfeature, hfiles, refuseUpload]

end

/-! ### The three endpoints -/

/-- **What an endpoint does, it does to the object with the id it narrows to.** -/
theorem actsOn {number : Bytes} {groups : List Bytes} {ids : PluginId → Prop} (e : UrlEndpoint ι)
    (hids : ∀ n, stoll number = some n → ids (BitVec.ofInt 32 n)) :
    e.ActsOn (number :: groups) ids := by
  cases e with
  | albumCover art moment => exact albumCover_actsOn art hids
  | downloadTrack localFiles moment => exact downloadTrack_actsOn localFiles hids
  | uploadTrack features platform files world => exact uploadTrack_actsOn hids

theorem not_answersNotFound_of_throws {e : UrlEndpoint ι} {number : Bytes} {groups : List Bytes}
    (h : stoll number = none) : ¬e.AnswersNotFound (number :: groups) := by
  cases e with
  | albumCover art moment => simp [AnswersNotFound, serveCover, h]
  | downloadTrack localFiles moment => simp [AnswersNotFound, RemoteControl.downloadTrack, h]
  | uploadTrack features platform files world =>
    simp only [AnswersNotFound, RemoteControl.uploadTrack, h]
    by_cases hfeature : features.uploadTracks = false
    · simp [hfeature, refuseUpload]
    · by_cases hfiles : files = []
      · simp [hfeature, hfiles, refuseUpload]
      · simp [hfeature, hfiles, refuseUpload]

theorem answersNotFound_iff {number : Bytes} (e : UrlEndpoint ι) (groups : List Bytes)
    (h : IsNumber number) :
    e.AnswersNotFound (number :: groups) ↔ e.Misses (decimalValue number) := by
  have hstoll := stoll_of_isNumber h
  by_cases hlong : -2 ^ 63 ≤ decimalValue number ∧ decimalValue number < 2 ^ 63
  · rw [if_pos hlong] at hstoll
    cases e with
    | albumCover art moment =>
      rw [albumCover_answersNotFound_iff art hstoll]
      exact ⟨fun hnone => ⟨trivial, hlong, hnone⟩, fun hmiss => hmiss.2.2⟩
    | downloadTrack localFiles moment =>
      rw [downloadTrack_answersNotFound_iff localFiles hstoll]
      exact ⟨fun hnone => ⟨trivial, hlong, hnone⟩, fun hmiss => hmiss.2.2⟩
    | uploadTrack features platform files world =>
      rw [uploadTrack_answersNotFound_iff hstoll]
      exact ⟨fun hnone => ⟨hnone.1, hlong, hnone.2⟩, fun hmiss => ⟨hmiss.1, hmiss.2.2⟩⟩
  · rw [if_neg hlong] at hstoll
    exact iff_of_false (not_answersNotFound_of_throws hstoll) fun hmiss => hlong hmiss.2.1

/-- Who answers so has done nothing. -/
theorem ActsOn.of_answersNotFound {e : UrlEndpoint ι} {groups : List Bytes}
    (h : e.AnswersNotFound groups) (ids : PluginId → Prop) : e.ActsOn groups ids := by
  cases e with
  | albumCover art moment | downloadTrack localFiles moment =>
    intro content hfound
    rw [h] at hfound
    cases hfound
  | uploadTrack features platform files world =>
    constructor
    · intro call hcall
      rw [h.2.1] at hcall
      cases hcall
    · exact fun hne => absurd h.2.2 hne

end UrlEndpoint

end RemoteControl
