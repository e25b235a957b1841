import RemoteControl.Commands.Covers
import RemoteControl.Http.Routes
import RemoteControl.Lib.Separated

/-!
# The URIs of covers

`GetCover` writes a track id and the checksum of a cover into a URI, the route of the `GET`
handler reads the id back. `cover_uris_decode`: it reads the id that was written.
-/

namespace RemoteControl

variable {ι : Type}

/-! ## Reading what was written -/

namespace Http

variable {s rest : Bytes} {pieces : List Piece}

theorem matchPieces_text_append :
    matchPieces (.text s :: pieces) (s ++ rest) = matchPieces pieces rest := by
  rw [matchPieces, stripPrefix_eq_some.mpr rfl, Option.bind_some]

/-- A number is read up to the text after it, which begins with no digit. -/
theorem matchPieces_digitsOf_text (n : Nat) (captured : Bool)
    (hs : s.head?.map isDigit = some false) :
    matchPieces (.number false captured :: .text s :: pieces) (digitsOf n ++ (s ++ rest)) =
      (matchPieces pieces rest).map fun groups =>
        if captured then digitsOf n :: groups else groups := by
  obtain ⟨b, hhead, hb⟩ := Option.map_eq_some_iff.mp hs
  obtain ⟨s', rfl⟩ := List.head?_eq_some_iff.mp hhead
  have hall : ∀ d ∈ digitsOf n, isDigit d = true := fun d => isDigit_of_mem_digitsOf
  have htake : (digitsOf n ++ (b :: s' ++ rest)).takeWhile isDigit = digitsOf n := by
    rw [List.takeWhile_append_of_pos hall, List.cons_append,
      List.takeWhile_cons_of_neg (by simp [hb]), List.append_nil]
  have hlength : numberLength false (digitsOf n ++ (b :: s' ++ rest)) =
      some (digitsOf n).length := by
    have hsign : ¬(false = true ∧ (digitsOf n ++ (b :: s' ++ rest)).head? = some 45) := by simp
    unfold numberLength
    rw [if_neg hsign]
    dsimp only
    rw [List.drop_zero, htake, if_neg (digitsOf_ne_nil n), Nat.zero_add]
  rw [matchPieces, hlength, Option.bind_some, List.drop_left, List.take_left,
    matchPieces_text_append]

end Http

theorem toDecimal_of_pos {n : Int} (h : 0 < n) : toDecimal n = digitsOf n.natAbs := by
  rw [toDecimal, if_neg (by omega)]

theorem digit_notMem_digitsOf {b : UInt8} (hb : isDigit b = false) (n : Nat) : b ∉ digitsOf n := by
  intro h
  rw [isDigit_of_mem_digitsOf h] at hb
  cases hb

/-! ## The covers -/

/-- A cover of one of the types that `RawContent` and `EncodePng` give. -/
def HttpContent.IsCover (content : HttpContent) : Prop :=
  content.contentType = ascii "image/jpeg" ∨ content.contentType = ascii "image/png" ∨
    content.contentType = ascii "image/gif"

/-- The content type that an extension stands for. -/
def contentTypeOfExtension (ext : Bytes) : Option Bytes :=
  if ext = ascii "jpg" then some (ascii "image/jpeg")
  else if ext = ascii "png" then some (ascii "image/png")
  else if ext = ascii "gif" then some (ascii "image/gif")
  else none

theorem contentTypeOfExtension_extensionFor {cover : HttpContent} (h : cover.IsCover) :
    contentTypeOfExtension (extensionFor cover) = some cover.contentType := by
  unfold extensionFor
  rcases h with h | h | h
  · rw [h]
    decide
  · rw [h]
    decide
  · rw [h]
    decide

theorem encodePng_isCover {art : AlbumArt ι} {image : Image} {cover : HttpContent}
    (h : encodePng art image = some cover) : cover.IsCover := by
  unfold encodePng at h
  split at h
  · split at h
    · cases h
      exact Or.inr (Or.inl rfl)
    · cases h
  · cases h

theorem rawContent_isCover {container : ImageContainer} {cover : HttpContent}
    (h : rawContent container = some cover) : cover.IsCover := by
  unfold rawContent imageContentType at h
  split at h
  · cases h
  · next contentType htype =>
    split at h
    · cases h
    · cases h
      split at htype
      · cases htype
        exact Or.inl rfl
      · split at htype
        · cases htype
          exact Or.inr (Or.inl rfl)
        · split at htype
          · cases htype
            exact Or.inr (Or.inr rfl)
          · cases htype

theorem loadCover_isCover {art : AlbumArt ι} {done : TaskResult ι (Option ι)} {cover : HttpContent}
    (h : loadCover art done = some cover) : cover.IsCover := by
  unfold loadCover at h
  split at h
  · cases h
  · split at h
    · cases h
    · unfold onCoverReceived at h
      split at h
      · next content hraw =>
        cases h
        obtain ⟨container, -, hraw⟩ := Option.bind_eq_some_iff.mp hraw
        exact rawContent_isCover hraw
      · split at h
        · cases h
        · exact encodePng_isCover h

/-! ## The URIs -/

variable {trackId : PluginId} {cover : HttpContent}

/-- The URI from the number on, with its parts between the pieces of the pattern. -/
theorem albumCoverUri_eq (hid : 0 < trackId.toInt) :
    ascii "/" ++ albumCoverUri trackId cover =
      ascii "/album_covers_cache/cover_0_" ++ (digitsOf trackId.toInt.natAbs ++ (ascii "_" ++
        (digitsOf 0 ++ (ascii "x" ++ (digitsOf 0 ++ (ascii "_" ++
          (digitsOf ((crc32Update 0 cover.body).toNat % 100000) ++
            (ascii "." ++ extensionFor cover)))))))) := by
  have hstart : ascii "/album_covers_cache/cover_0_" =
      ascii "/" ++ ascii "album_covers_cache/cover_0_" := by decide
  have hsize : ascii "_0x0_" =
      ascii "_" ++ (digitsOf 0 ++ (ascii "x" ++ (digitsOf 0 ++ ascii "_"))) := by decide
  rw [albumCoverUri, toDecimal_of_pos hid, hstart, hsize]
  simp only [List.append_assoc]

theorem matchPieces_albumCoverUri (hid : 0 < trackId.toInt) :
    Http.matchPieces Http.coverPattern (ascii "/" ++ albumCoverUri trackId cover) =
      some [toDecimal trackId.toInt] := by
  have hext : Http.matchPieces [.oneOf [ascii "png", ascii "jpg", ascii "gif"]]
      (extensionFor cover) = some [] := by
    unfold extensionFor
    split
    · decide
    · split
      · decide
      · decide
  rw [albumCoverUri_eq hid, toDecimal_of_pos hid, Http.coverPattern, Http.matchPieces_text_append,
    Http.matchPieces_digitsOf_text _ _ (by decide), Http.matchPieces_digitsOf_text _ _ (by decide),
    Http.matchPieces_digitsOf_text _ _ (by decide), Http.matchPieces_digitsOf_text _ _ (by decide),
    hext]
  rfl

/-- The handler that reads the URI of the cover loads the cover of the same track. -/
theorem serveCover_toDecimal (art : AlbumArt ι) (moment : Moment ι) (trackId : PluginId) :
    serveCover art moment [toDecimal trackId.toInt] =
      .of (loadCover art (runOnMainThread none moment (trackFileInfo trackId))) := by
  have hlow := BitVec.le_toInt trackId
  have hhigh := BitVec.toInt_lt (x := trackId)
  have hstoll : stoll (toDecimal trackId.toInt) = some trackId.toInt :=
    stoll_toDecimal (by omega) (by omega)
  rw [serveCover, hstoll]
  dsimp only
  rw [BitVec.ofInt_toInt]

theorem albumCoverUri_inj {trackId' : PluginId} {cover' : HttpContent} (hid : 0 < trackId.toInt)
    (hid' : 0 < trackId'.toInt)
    (h : albumCoverUri trackId cover = albumCoverUri trackId' cover') : trackId = trackId' := by
  have hpath := congrArg (fun uri => ascii "/" ++ uri) h
  rw [albumCoverUri_eq hid, albumCoverUri_eq hid', List.append_cancel_left_eq] at hpath
  have hdigits := ((Separated.append_cons_inj_left (digit_notMem_digitsOf rfl _)
    (digit_notMem_digitsOf rfl _)).mp hpath).1
  have hnat : trackId.toInt.natAbs = trackId'.toInt.natAbs := by
    rw [← digitsValue_digitsOf trackId.toInt.natAbs, hdigits, digitsValue_digitsOf]
  exact BitVec.eq_of_toInt_eq (by omega)

/-- What becomes of the URI of a cover: the route of covers takes it, the number in it is the
track id again, its extension is that of the cover, and no other track has it. -/
structure DecodesTo (uri : Bytes) (trackId : PluginId) (cover : HttpContent) : Prop where
  routed : ∀ req : Http.Request, req.method = ascii "GET" → req.path = ascii "/" ++ uri →
    Http.dispatch req = some (.albumCover, [toDecimal trackId.toInt])
  number : (stoll (toDecimal trackId.toInt)).map (BitVec.ofInt 32) = some trackId
  extension : ∃ stem ext, uri = stem ++ ascii "." ++ ext ∧
    contentTypeOfExtension ext = some cover.contentType
  unique : ∀ (trackId' : PluginId) (cover' : HttpContent), 0 < trackId'.toInt →
    uri = albumCoverUri trackId' cover' → trackId' = trackId

theorem albumCoverUri_decodesTo (hid : 0 < trackId.toInt) (hcover : cover.IsCover) :
    DecodesTo (albumCoverUri trackId cover) trackId cover where
  routed req hmethod hpath := by
    rw [Http.dispatch, if_pos (Or.inl hmethod), hpath, Http.route, Http.getRoutes,
      List.findSome?_cons]
    dsimp only
    rw [matchPieces_albumCoverUri hid]
    rfl
  number := by
    have hlow := BitVec.le_toInt trackId
    have hhigh := BitVec.toInt_lt (x := trackId)
    rw [stoll_toDecimal (by omega) (by omega), Option.map_some, BitVec.ofInt_toInt]
  extension := ⟨_, extensionFor cover, rfl, contentTypeOfExtension_extensionFor hcover⟩
  unique trackId' cover' hid' h := (albumCoverUri_inj hid hid' h).symm

/-- **The URI of a cover decodes to its track**, whatever the cover: `GetCover` answers it
for the cover that it loads, and where the `GET` handler loads the same cover it serves it. -/
theorem cover_uris_decode (hid : 0 < trackId.toInt) :
    (∀ cover : HttpContent, cover.IsCover →
      DecodesTo (albumCoverUri trackId cover) trackId cover) ∧
    ∀ (art : AlbumArt ι) (moment : Moment ι) (cover : HttpContent),
      loadCover art (runOnMainThread none moment (trackFileInfo trackId)) = some cover →
        cover.IsCover ∧
        (∀ params, params.int32 (ascii "track_id") = some trackId →
          (getCover art moment params).reply = .rpc (.ok
            (.obj [(ascii "album_cover_uri", .str (albumCoverUri trackId cover))]))) ∧
        serveCover art moment [toDecimal trackId.toInt] = .found cover := by
  refine ⟨fun cover => albumCoverUri_decodesTo hid, ?_⟩
  intro art moment cover hload
  refine ⟨loadCover_isCover hload, ?_, ?_⟩
  · intro params hparam
    simp only [getCover, hparam, hload]
  · rw [serveCover_toDecimal, hload]
    rfl

/-- The largest id. -/
theorem cover_uris_decode_largest :
    DecodesTo (albumCoverUri (BitVec.ofNat 32 (2 ^ 31 - 1)) { contentType := ascii "image/gif" })
        (BitVec.ofNat 32 (2 ^ 31 - 1)) { contentType := ascii "image/gif" } ∧
      albumCoverUri (BitVec.ofNat 32 (2 ^ 31 - 1)) { contentType := ascii "image/gif" } =
        ascii "album_covers_cache/cover_0_2147483647_0x0_0.gif" := by
  have hid : 0 < (BitVec.ofNat 32 (2 ^ 31 - 1)).toInt := by decide
  exact ⟨(@cover_uris_decode Nat _ hid).1 _ (Or.inr (Or.inr rfl)), by decide⟩

end RemoteControl
