import RemoteControl.Commands.CoverUris
import RemoteControl.Commands.TrackIds
import RemoteControl.Http.PreRouting

/-!
# What leaves the machine through the `GET` handlers

The pre-routing handler, the routes, the ids and the two handlers together, in any state
that requests and changes of the player reach.

* `served_files_are_tracks`: the only files the handlers serve are files of the items of
  the loaded playlists, and only to an authorized client; each through an id that was issued.
* `reported_tracks_download`: the id a row was reported with downloads the file of the item
  that is now at that place of the playlist.
-/

namespace RemoteControl

open Http Transition

variable {ι : Type}

/-! ## The path of a download -/

namespace Http

/-- A signed number is read up to the text after it, or to the end. -/
theorem numberLength_toDecimal (n : Int) {rest : Bytes}
    (hrest : ∀ b ∈ rest.head?, isDigit b = false) :
    numberLength true (toDecimal n ++ rest) = some (toDecimal n).length := by
  have hdigits : (digitsOf n.natAbs ++ rest).takeWhile isDigit = digitsOf n.natAbs := by
    rw [List.takeWhile_append_of_pos fun d => isDigit_of_mem_digitsOf]
    cases rest with
    | nil => exact List.append_nil _
    | cons b rest =>
      rw [List.takeWhile_cons_of_neg (by rw [hrest b rfl]; exact Bool.false_ne_true),
        List.append_nil]
  unfold toDecimal
  split
  · have hsign : true = true ∧ (45 :: digitsOf n.natAbs ++ rest).head? = some 45 := ⟨rfl, rfl⟩
    show numberLength true (45 :: digitsOf n.natAbs ++ rest) = some (digitsOf n.natAbs).length.succ
    unfold numberLength
    rw [if_pos hsign]
    dsimp only
    rw [List.cons_append, List.drop_one, List.tail_cons, hdigits, if_neg (digitsOf_ne_nil _),
      Nat.add_comm]
  · have hsign : ¬ (true = true ∧ (digitsOf n.natAbs ++ rest).head? = some 45) := by
      rintro ⟨-, hhead⟩
      obtain ⟨b, digits, heq⟩ := List.exists_cons_of_ne_nil (digitsOf_ne_nil n.natAbs)
      rw [heq, List.cons_append, List.head?_cons] at hhead
      have hdigit : isDigit b = true := isDigit_of_mem_digitsOf (heq ▸ List.mem_cons_self)
      rw [Option.some.inj hhead] at hdigit
      cases hdigit
    unfold numberLength
    rw [if_neg hsign]
    dsimp only
    rw [List.drop_zero, hdigits, if_neg (digitsOf_ne_nil _), Nat.zero_add]

theorem matchPieces_toDecimal (n : Int) (captured : Bool) {pieces : List Piece} {rest : Bytes}
    (hrest : ∀ b ∈ rest.head?, isDigit b = false) :
    matchPieces (.number true captured :: pieces) (toDecimal n ++ rest) =
      (matchPieces pieces rest).map fun groups =>
        if captured then toDecimal n :: groups else groups := by
  rw [matchPieces, numberLength_toDecimal n hrest, Option.bind_some, List.drop_left,
    List.take_left]

end Http

/-- The path of a track; the number of the playlist is not looked at. -/
def downloadPath (playlistId : Int) (trackId : PluginId) : Bytes :=
  ascii "/downloadTrack/playlist_id/" ++ (toDecimal playlistId ++ (ascii "/track_id/" ++
    toDecimal trackId.toInt))

theorem route_downloadPath (playlistId : Int) (trackId : PluginId) :
    route getRoutes (downloadPath playlistId trackId) =
      some (.downloadTrack, [toDecimal trackId.toInt]) := by
  have hcover : matchPieces coverPattern (downloadPath playlistId trackId) = none := by
    have hprefix (rest : Bytes) :
        (ascii "/album_covers_cache/cover_0_").isPrefixOf
          (ascii "/downloadTrack/playlist_id/" ++ rest) = false := rfl
    rw [coverPattern, matchPieces, stripPrefix, downloadPath, hprefix]
    rfl
  have hnumber : matchPieces [.number true true] (toDecimal trackId.toInt) =
      some [toDecimal trackId.toInt] := by
    rw [← List.append_nil (toDecimal trackId.toInt), matchPieces_toDecimal]
    · simp [matchPieces]
    · simp
  have hdownload : matchPieces downloadPattern (downloadPath playlistId trackId) =
      some [toDecimal trackId.toInt] := by
    rw [downloadPattern, downloadPath, matchPieces_text_append,
      matchPieces_toDecimal _ _ (by rintro b ⟨⟩; rfl), matchPieces_text_append, hnumber]
    rfl
  simp only [route, getRoutes, List.findSome?_cons, hcover, hdownload, Option.map_none,
    Option.map_some]

theorem stoll_toDecimal_toInt (trackId : PluginId) :
    (stoll (toDecimal trackId.toInt)).map (BitVec.ofInt 32) = some trackId := by
  have hlow := BitVec.le_toInt trackId
  have hhigh := BitVec.toInt_lt (x := trackId)
  rw [stoll_toDecimal (by omega) (by omega), Option.map_some, BitVec.ofInt_toInt]

/-! ## The reply to a request -/

section Requests

variable (tree : FileTree) (wwwRoot : List Bytes) (md5Hex : Bytes → Bytes)
  (parse : Bytes → Bytes → Option Bytes) (reads : DigestAuthenticator.Reads)
  (mounted : Http.Request → Bool) (art : AlbumArt ι) (localFiles : LocalFiles)
  (scheduling : Scheduling)

/-- What a `GET` handler answers, if one runs. -/
def getReply (s : System ι) (req : Http.Request) (res : Http.Response) : Option GetReply :=
  let moment : Moment ι := ⟨s.core.1, s.ids.manager, scheduling⟩
  match handlerFor tree wwwRoot md5Hex parse reads mounted req res with
  | some (.albumCover, groups) => some (serveCover art moment groups)
  | some (.downloadTrack, groups) => some (downloadTrack localFiles moment groups)
  | _ => none

/-- The file of an item, as a download names it. -/
def TrackFile (core : Core ι) (item : ι) (file : Bytes) : Prop :=
  ∃ uri fileUri, core.itemFileName item = some uri ∧ core.fileUriService = some fileUri ∧
    fileUri.isUrl uri = false ∧ file = (localFiles.container uri).getD uri

variable {tree wwwRoot md5Hex parse reads mounted art localFiles scheduling}
variable {core : Core ι} {idManager : RemoteControlIdManager} {file : Bytes} {content : HttpContent}

theorem filePath_of_serveCover {moment : Moment ι} {groups : List Bytes}
    (h : serveCover art moment groups = .found content) : content.filePath = [] := by
  have hencode {image : Image} (himage : encodePng art image = some content) :
      content.filePath = [] := by
    unfold encodePng at himage
    split at himage
    · split at himage <;> cases himage
      rfl
    · cases himage
  have hraw {container : ImageContainer} (hcontainer : rawContent container = some content) :
      content.filePath = [] := by
    unfold rawContent at hcontainer
    split at hcontainer
    · cases hcontainer
    · split at hcontainer <;> cases hcontainer
      rfl
  unfold serveCover at h
  split at h
  · cases h
  · split at h
    · cases h
    · unfold loadCover at h
      split at h
      · cases h
      · split at h
        · cases h
        · unfold onCoverReceived at h
          split at h
          · next hfound =>
            cases h
            obtain ⟨container, -, hcontainer⟩ := Option.bind_eq_some_iff.mp hfound
            exact hraw hcontainer
          · split at h
            · cases h
            · next image himage =>
              cases hpng : encodePng art image with
              | none => rw [hpng] at h; cases h
              | some png =>
                rw [hpng] at h
                cases h
                exact hencode hpng

theorem localFileName_ne_nil {trackId : PluginId}
    (h : (localFileName localFiles trackId core idManager).1 ≠ []) :
    ∃ item playlist, findPlaylistItem core idManager trackId = some (item, playlist) ∧
      TrackFile localFiles core item (localFileName localFiles trackId core idManager).1 := by
  unfold localFileName at h ⊢
  split at h
  · exact absurd rfl h
  · next item playlist hitem =>
    refine ⟨item, playlist, hitem, ?_⟩
    split at h
    · next uri fileUri huri hservice =>
      cases hurl : fileUri.isUrl uri with
      | true =>
        rw [hurl] at h
        exact absurd rfl h
      | false => exact ⟨uri, fileUri, huri, hservice, hurl, by simp⟩
    · exact absurd rfl h

theorem localFileName_of_trackFile {trackId : PluginId} {item : ι} {playlist : Playlist ι}
    (hitem : findPlaylistItem core idManager trackId = some (item, playlist))
    (hfile : TrackFile localFiles core item file) :
    (localFileName localFiles trackId core idManager).1 = file := by
  obtain ⟨uri, fileUri, huri, hservice, hurl, rfl⟩ := hfile
  simp [localFileName, hitem, huri, hservice, hurl]

theorem filePath_of_downloadTrack {moment : Moment ι} {groups : List Bytes}
    (h : downloadTrack localFiles moment groups = .found content) :
    localFiles.isRegularFile content.filePath = true ∧ ∃ trackId item playlist,
      findPlaylistItem moment.core moment.idManager trackId = some (item, playlist) ∧
        TrackFile localFiles moment.core item content.filePath := by
  unfold downloadTrack at h
  split at h
  · cases h
  · split at h
    · cases h
    · next n hn =>
      unfold fileContent at h
      split at h
      · cases h
      · next hne =>
        split at h
        · next hregular =>
          cases h
          refine ⟨hregular, BitVec.ofInt 32 n, ?_⟩
          unfold runOnMainThread at hne hregular ⊢
          split at hne
          · exact localFileName_ne_nil hne
          · exact localFileName_ne_nil hne
          · exact absurd rfl hne
        · cases h

/-- Whatever was requested and has changed before, over a plain web root: a file that a `GET`
handler serves goes to an authorized client, and is the regular file of an item that is at this
moment in a loaded playlist, at the place some id was issued for. -/
theorem served_files_are_tracks {root : List Bytes} {req : Http.Request} {res : Http.Response}
    {s : System ι} (hplain : ServesPlain tree wwwRoot root)
    (h : getReply tree wwwRoot md5Hex parse reads mounted art localFiles scheduling s req res =
      some (.found content)) (hfile : content.filePath ≠ []) :
    (DigestAuthenticator.authorize md5Hex parse reads req res).1 = true ∧
      localFiles.isRegularFile content.filePath = true ∧
      ∃ key id item playlist, (key, id) ∈ s.ids.issuedTracks ∧ ItemAt s.core.1 key item playlist ∧
        TrackFile localFiles s.core.1 item content.filePath := by
  unfold getReply at h
  dsimp only at h
  split at h
  · exact absurd (filePath_of_serveCover (Option.some.inj h)) hfile
  · next groups hhandler =>
    have hauthorized := authorized_of_dispatch hplain md5Hex parse reads mounted hhandler
    obtain ⟨hregular, id, item, playlist, hitem, htrack⟩ :=
      filePath_of_downloadTrack (Option.some.inj h)
    refine ⟨hauthorized, hregular, ?_⟩
    have hissued : ∃ key, (key, id) ∈ s.ids.issuedTracks := by
      by_contra hnone
      rw [not_exists] at hnone
      exact absurd (hitem.symm.trans (findPlaylistItem_not_issued hnone)) nofun
    obtain ⟨key, hkey⟩ := hissued
    exact ⟨key, id, item, playlist, hkey, (s.core.2.findPlaylistItem_issued hkey).mp hitem, htrack⟩
  · cases h

theorem reported_issued {init : {core : Core ι // Faithful core}} {s : System ι}
    (h : Reachable System.step (.init init) s) : s.reported.Issued s.ids :=
  h.invariant (I := fun s => s.reported.Issued s.ids) ⟨List.nil_subset _, List.nil_subset _⟩
    step_issued

/-- In every state that requests and changes of the player reach, and for every id that was
reported: an authorized client downloads with it the file of the item that is now at the
place it was reported for, if it is a regular file. The task is to be run, the body not too
large, and no mounted file may answer. -/
theorem reported_tracks_download {init : {core : Core ι // Faithful core}} {s : System ι}
    {key : PlaylistItemKey} {id : PluginId} {item : ι} {playlist : Playlist ι} {playlistId : Int}
    {req : Http.Request} {res : Http.Response} (hreach : Reachable System.step (.init init) s)
    (hreported : (key, id) ∈ s.reported.tracks) (hitem : ItemAt s.core.1 key item playlist)
    (hfile : TrackFile localFiles s.core.1 item file) (hne : file ≠ [])
    (hregular : localFiles.isRegularFile file = true) (hruns : scheduling.Runs)
    (hmethod : req.method = ascii "GET") (hpath : req.path = downloadPath playlistId id)
    (hmounted : mounted req = false) (hsmall : payloadTooLarge req = false)
    (hauthorized : (DigestAuthenticator.authorize md5Hex parse reads req res).1 = true) :
    ∃ content, getReply tree wwwRoot md5Hex parse reads mounted art localFiles scheduling s req
      res = some (.found content) ∧ content.filePath = file := by
  have hpre : (preRouting tree wwwRoot md5Hex parse reads req res).1 = .unhandled := by
    unfold preRouting
    split
    · rfl
    · rw [hsmall, Bool.and_false, if_neg Bool.false_ne_true]
      dsimp only
      rw [hauthorized, if_pos rfl]
  have hdispatch : dispatch req = some (.downloadTrack, [toDecimal id.toInt]) := by
    rw [dispatch, if_pos (Or.inl hmethod), hpath, route_downloadPath]
  have hhandler : handlerFor tree wwwRoot md5Hex parse reads mounted req res =
      some (.downloadTrack, [toDecimal id.toInt]) := by
    rw [handlerFor, hpre]
    dsimp only
    rw [hmounted, if_neg Bool.false_ne_true, hdispatch]
  have hfound : findPlaylistItem s.core.1 s.ids.manager id = some (item, playlist) :=
    (s.core.2.findPlaylistItem_issued ((reported_issued hreach).1 hreported)).mpr hitem
  have hname : (runOnMainThread [] ⟨s.core.1, s.ids.manager, scheduling⟩
      (localFileName localFiles id)).value = file := by
    cases scheduling with
    | noService | executed => exact localFileName_of_trackFile hfound hfile
    | refused => exact hruns.elim
  obtain ⟨n, hn, hid⟩ := Option.map_eq_some_iff.mp (stoll_toDecimal_toInt id)
  obtain ⟨content, hcontent, hfilePath⟩ :
      ∃ content, fileContent localFiles file = some content ∧ content.filePath = file := by
    rw [fileContent, if_neg hne, if_pos hregular]
    exact ⟨_, rfl, rfl⟩
  refine ⟨content, ?_, hfilePath⟩
  unfold getReply
  rw [hhandler]
  dsimp only
  rw [downloadTrack, hn]
  dsimp only
  rw [hid, hname, hcontent]
  rfl

end Requests

/-! ## A download -/

/-- A player whose items have a file. -/
def sampleShelf : Core Nat :=
  { samplePlayer with
    itemFileName := fun _ => some (ascii "/music/a.mp3")
    fileUriService := some ⟨fun _ => none, fun _ => none, fun _ => false⟩ }

theorem sampleShelf_faithful : Faithful sampleShelf where
  ids_distinct := samplePlayer_faithful.ids_distinct
  id_ne_nil := samplePlayer_faithful.id_ne_nil
  createString := samplePlayer_faithful.createString
  getLoadedPlaylistByID := samplePlayer_faithful.getLoadedPlaylistByID
  position := samplePlayer_faithful.position

def sampleFileSystem : LocalFiles := ⟨fun _ => none, fun file => file = ascii "/music/a.mp3"⟩

/-- The id of the second item. -/
def sampleTrackId : PluginId :=
  RemoteControlIdManager.homeId (RemoteControlIdManager.itemSeed ⟨ascii "P1", 1⟩)

def sampleDownload : Http.Request :=
  ⟨ascii "GET", downloadPath 7 sampleTrackId, downloadPath 7 sampleTrackId, []⟩

/-- The reply without authentication. -/
def sampleReply (s : System Nat) : Option GetReply :=
  getReply sampleTree [ascii "www"] id (fun _ _ => none) (.steady ⟨false, [], []⟩ 0 0)
    (fun _ => false) ⟨true, fun _ => none⟩ sampleFileSystem .noService s sampleDownload {}

/-- What a reply delivers. -/
def GetReply.content? : GetReply → Option HttpContent
  | .found content => some content
  | _ => none

theorem GetReply.content?_eq_some {reply : GetReply} {content : HttpContent} :
    reply.content? = some content ↔ reply = .found content := by
  cases reply <;> simp [content?]

theorem served_files_are_tracks_sample :
    ∃ s content, run System.step (.init ⟨sampleShelf, sampleShelf_faithful⟩)
        [.request .getQueuedEntries] = some s ∧ sampleReply s = some (.found content) ∧
      content.filePath = ascii "/music/a.mp3" ∧
      ∃ key id item playlist, (key, id) ∈ s.ids.issuedTracks ∧ ItemAt s.core.1 key item playlist ∧
        TrackFile sampleFileSystem s.core.1 item content.filePath := by
  obtain ⟨⟨s, content⟩, hs⟩ := Option.isSome_iff_exists.mp
    (show (((run System.step (.init ⟨sampleShelf, sampleShelf_faithful⟩)
        [.request .getQueuedEntries]).bind fun s =>
          (sampleReply s).bind fun reply => reply.content?.map (s, ·)).filter fun r =>
            r.2.filePath = ascii "/music/a.mp3").isSome = true by decide +kernel)
  obtain ⟨hbind, hpath⟩ := Option.filter_eq_some_iff.mp hs
  obtain ⟨s', hrun, hbind⟩ := Option.bind_eq_some_iff.mp hbind
  obtain ⟨reply, hreply, hmap⟩ := Option.bind_eq_some_iff.mp hbind
  obtain ⟨content', hcontent, hpair⟩ := Option.map_eq_some_iff.mp hmap
  cases hpair
  rw [GetReply.content?_eq_some.mp hcontent] at hreply
  have hfile := of_decide_eq_true hpath
  have hne : content.filePath ≠ [] := hfile ▸ (by decide)
  obtain ⟨-, -, htrack⟩ := served_files_are_tracks sampleTree_servesPlain hreply hne
  exact ⟨s, content, hrun, hreply, hfile, htrack⟩

theorem reported_tracks_download_sample :
    ∃ s content, run System.step (.init ⟨sampleShelf, sampleShelf_faithful⟩)
        [.request .getQueuedEntries, .change ⟨sampleShelf, sampleShelf_faithful⟩] = some s ∧
      sampleReply s = some (.found content) ∧ content.filePath = ascii "/music/a.mp3" := by
  obtain ⟨s, hs⟩ := Option.isSome_iff_exists.mp
    (show ((run System.step (.init ⟨sampleShelf, sampleShelf_faithful⟩)
        [.request .getQueuedEntries, .change ⟨sampleShelf, sampleShelf_faithful⟩]).filter fun s =>
          (⟨ascii "P1", 1⟩, sampleTrackId) ∈ s.reported.tracks).isSome = true by decide +kernel)
  obtain ⟨hrun, hreported⟩ := Option.filter_eq_some_iff.mp hs
  have hcore : s.core = ⟨sampleShelf, sampleShelf_faithful⟩ := by
    obtain ⟨s', -, hrest⟩ := run_cons_eq_some.mp hrun
    obtain ⟨_, hchange, hnil⟩ := run_cons_eq_some.mp hrest
    cases hchange
    cases hnil
    rfl
  have hitem : ItemAt s.core.1 ⟨ascii "P1", 1⟩ 1 samplePlaylist := by
    rw [hcore]
    exact ⟨List.mem_singleton_self _, rfl, by decide, rfl⟩
  have hfile : TrackFile sampleFileSystem s.core.1 1 (ascii "/music/a.mp3") := by
    rw [hcore]
    exact ⟨_, _, rfl, rfl, rfl, rfl⟩
  have hreply : ∃ content, sampleReply s = some (.found content) ∧
      content.filePath = ascii "/music/a.mp3" := by
    unfold sampleReply
    exact reported_tracks_download ⟨_, hrun⟩ (of_decide_eq_true hreported) hitem hfile (by decide)
      (by decide) trivial rfl rfl rfl (by decide) (by decide)
  obtain ⟨content, hcontent, hpath⟩ := hreply
  exact ⟨s, content, hrun, hcontent, hpath⟩

end RemoteControl
