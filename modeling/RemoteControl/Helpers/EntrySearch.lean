import Mathlib.Data.List.Infix
import RemoteControl.Helpers.PlaylistEntryJson
import RemoteControl.Upload.Path

/-!
# The search and the fields on show

`PlaylistEntryMatches` looks for the title in `TitleOrFileName`, `PlaylistEntryField` shows
the stem of the file name when there is no title. What the client sees is always found
(`playlistEntryMatches_of_shown`); what is found is not always seen, as the extension
belongs to the file name only.
-/

namespace RemoteControl

variable {ι : Type}

/-! ## Substrings, ignoring case -/

/-- A byte that does not begin a UTF-8 character. -/
def isContinuation (b : UInt8) : Bool := 128 ≤ b && b ≤ 191

/-- The characters of a UTF-8 text. -/
def utf8Chars : Bytes → List Bytes
  | [] => []
  | b :: text =>
    match utf8Chars text with
    | (c :: char) :: chars =>
      if isContinuation c then (b :: c :: char) :: chars else [b] :: (c :: char) :: chars
    | chars => [b] :: chars

theorem utf8Chars_cons (b : UInt8) (text : Bytes) :
    ∃ char chars, utf8Chars (b :: text) = (b :: char) :: chars := by
  rw [utf8Chars]
  split
  · split
    · exact ⟨_, _, rfl⟩
    · exact ⟨_, _, rfl⟩
  · exact ⟨_, _, rfl⟩

/-- Characters do not run over a byte that begins one. -/
theorem utf8Chars_append {c : UInt8} (hc : isContinuation c = false) (s t : Bytes) :
    utf8Chars (s ++ c :: t) = utf8Chars s ++ utf8Chars (c :: t) := by
  induction s with
  | nil => rfl
  | cons b s ih =>
    cases s with
    | nil =>
      obtain ⟨char, chars, hchars⟩ := utf8Chars_cons c t
      show utf8Chars (b :: c :: t) = _
      rw [utf8Chars, hchars]
      dsimp only
      rw [hc]
      rfl
    | cons d s =>
      obtain ⟨char, chars, hchars⟩ := utf8Chars_cons d s
      rw [List.cons_append, utf8Chars, ih, hchars, utf8Chars.eq_def (b :: d :: s)]
      dsimp only
      rw [hchars]
      dsimp only [List.cons_append]
      split <;> rfl

/-- `search` is a substring of `text`, characters with one `fold` counting as the same. -/
def OccursIgnoringCase (fold : Bytes → Bytes) (search text : Bytes) : Prop :=
  (utf8Chars search).map fold <:+: (utf8Chars text).map fold

instance (fold : Bytes → Bytes) (search text : Bytes) :
    Decidable (OccursIgnoringCase fold search text) :=
  inferInstanceAs (Decidable (_ <:+: _))

section Occurs

variable {fold : Bytes → Bytes} {search text : Bytes}

theorem OccursIgnoringCase.append {c : UInt8} (hc : isContinuation c = false) (t : Bytes)
    (h : OccursIgnoringCase fold search text) :
    OccursIgnoringCase fold search (text ++ c :: t) := by
  have hleft : (utf8Chars text).map fold <:+: (utf8Chars (text ++ c :: t)).map fold := by
    rw [utf8Chars_append hc, List.map_append]
    exact (List.prefix_append _ _).isInfix
  exact List.IsInfix.trans h hleft

theorem not_occurs_nil (hsearch : search ≠ []) : ¬OccursIgnoringCase fold search [] := by
  intro h
  obtain ⟨b, rest, rfl⟩ := List.exists_cons_of_ne_nil hsearch
  obtain ⟨char, chars, hchars⟩ := utf8Chars_cons b rest
  have hnil := List.eq_nil_of_infix_nil (show _ <:+: ([] : List Bytes) from h)
  rw [hchars] at hnil
  cases hnil

theorem occurs_getD_iff (hsearch : search ≠ []) (text : Option Bytes) :
    OccursIgnoringCase fold search (text.getD []) ↔
      ∃ s, text = some s ∧ OccursIgnoringCase fold search s := by
  cases text with
  | none =>
    constructor
    · intro h
      exact absurd h (not_occurs_nil hsearch)
    · rintro ⟨s, hs, -⟩
      cases hs
  | some s =>
    constructor
    · intro h
      exact ⟨s, rfl, h⟩
    · rintro ⟨s', hs, h⟩
      cases hs
      exact h

end Occurs

/-- `IAIMPString::Find` with `IGNORECASE` is case-insensitive substring search. -/
def FindsIgnoringCase (fold : Bytes → Bytes) (core : Core ι) : Prop :=
  ∀ text search,
    (∃ index, core.find text search = some index ∧ 0 ≤ index) ↔ OccursIgnoringCase fold search text

/-- `ExtractFileName` gives the last component of the path, when it gives one. -/
def FileUriService.ExtractsLastComponent (service : FileUriService) : Prop :=
  ∀ uri name, service.extractFileName uri = some name → name = Path.filename uri

/-! ## The title on show -/

/-- The stem is the name, or the name up to a dot. -/
theorem pathStem_cases {name : Bytes} (h : Path.slash ∉ name) :
    pathStem name = name ∨ ∃ extension, name = pathStem name ++ Path.dot :: extension := by
  have hall : (name.reverse.takeWhile (· ≠ 47)).reverse = name := by
    rw [List.takeWhile_eq_self_iff.2, List.reverse_reverse]
    intro b hb
    have hne : b ≠ 47 := by
      rintro rfl
      exact h (List.mem_reverse.1 hb)
    simpa using hne
  unfold pathStem
  rw [hall]
  dsimp only
  split
  · exact .inl rfl
  · split
    · next b c stem hstem =>
      right
      have hdot : b = Path.dot := by
        have hhead := List.head?_dropWhile_not (fun b : UInt8 => decide (b ≠ 46)) name.reverse
        rw [hstem] at hhead
        simpa [Path.dot] using hhead
      refine ⟨(name.reverse.takeWhile (· ≠ 46)).reverse, ?_⟩
      calc name = name.reverse.reverse := (List.reverse_reverse name).symm
        _ = (name.reverse.takeWhile (· ≠ 46) ++ name.reverse.dropWhile (· ≠ 46)).reverse := by
          rw [List.takeWhile_append_dropWhile]
        _ = (c :: stem).reverse ++ Path.dot :: (name.reverse.takeWhile (· ≠ 46)).reverse := by
          rw [hstem, hdot]
          simp
    · exact .inl rfl

/-- The texts of the fields, for those that hold one. -/
def entryText (core : Core ι) (field : Bytes) (ctx : PlaylistEntryContext ι) : Option Bytes :=
  match playlistEntryField core field ctx with
  | .str text => some text
  | _ => none

/-- The fields the search is about. -/
def searchedFields : List Bytes :=
  [ascii "title", ascii "artist", ascii "album", ascii "genre", ascii "foldername"]

/-- The client sees `search` in one of these fields. -/
def ShownIn (core : Core ι) (fold : Bytes → Bytes) (fields : List Bytes)
    (ctx : PlaylistEntryContext ι) (search : Bytes) : Prop :=
  ∃ field ∈ fields, ∃ text, entryText core field ctx = some text ∧
    OccursIgnoringCase fold search text

/-- The entry has no title tag, its file name holds `search` and the name without the
extension does not, and neither does another field. -/
structure OnlyInExtension (core : Core ι) (fold : Bytes → Bytes) (ctx : PlaylistEntryContext ι)
    (search : Bytes) : Prop where
  noTitle : (ctx.fileInfoString FileInfo.title).getD [] = []
  inName : OccursIgnoringCase fold search (ctx.fileName.getD [])
  notInStem : ¬OccursIgnoringCase fold search (pathStem (ctx.fileName.getD []))
  notElsewhere : ¬ShownIn core fold searchedFields.tail ctx search

section Search

variable {core : Core ι} {fold : Bytes → Bytes} {ctx : PlaylistEntryContext ι} {search : Bytes}

/-- What `ShownIn` says of the four fields that are searched as they are shown. -/
theorem shownIn_tail_iff :
    ShownIn core fold searchedFields.tail ctx search ↔
      OccursIgnoringCase fold search ((ctx.fileInfoString FileInfo.artist).getD []) ∨
      OccursIgnoringCase fold search ((ctx.fileInfoString FileInfo.album).getD []) ∨
      OccursIgnoringCase fold search ((ctx.fileInfoString FileInfo.genre).getD []) ∨
      OccursIgnoringCase fold search (ctx.parentDirName.getD []) := by
  have hartist : entryText core (ascii "artist") ctx =
    some ((ctx.fileInfoString FileInfo.artist).getD []) := rfl
  have halbum : entryText core (ascii "album") ctx =
    some ((ctx.fileInfoString FileInfo.album).getD []) := rfl
  have hgenre : entryText core (ascii "genre") ctx =
    some ((ctx.fileInfoString FileInfo.genre).getD []) := rfl
  have hfolder : entryText core (ascii "foldername") ctx = some (ctx.parentDirName.getD []) := rfl
  simp only [ShownIn, searchedFields, List.tail_cons, List.mem_cons, List.not_mem_nil, or_false,
    exists_eq_or_imp, exists_eq_left, hartist, halbum, hgenre, hfolder, Option.some.injEq,
    exists_eq_left']

theorem shownIn_cons_iff {field : Bytes} {fields : List Bytes} {text : Bytes}
    (h : entryText core field ctx = some text) :
    ShownIn core fold (field :: fields) ctx search ↔
      OccursIgnoringCase fold search text ∨ ShownIn core fold fields ctx search := by
  simp only [ShownIn, List.mem_cons, exists_eq_or_imp, h, Option.some.injEq, exists_eq_left']

theorem tag_of_getD {tag : Option Bytes} {c : UInt8} {title : Bytes}
    (h : tag.getD [] = c :: title) : tag = some (c :: title) := by
  cases tag with
  | none => cases h
  | some t => exact congrArg some h

/-- With a title tag, it is the title searched and the title shown. -/
theorem titleOrFileName_of_tag {c : UInt8} {title : Bytes}
    (h : ctx.fileInfoString FileInfo.title = some (c :: title)) :
    ctx.titleOrFileName = some (c :: title) := by
  rw [PlaylistEntryContext.titleOrFileName, h]

theorem entryText_title_of_tag {c : UInt8} {title : Bytes}
    (h : ctx.fileInfoString FileInfo.title = some (c :: title)) :
    entryText core (ascii "title") ctx = some (c :: title) := by
  have hfield : playlistEntryField core (ascii "title") ctx = .str (c :: title) := by
    unfold playlistEntryField
    rw [if_neg (by decide), if_neg (by decide), if_neg (by decide), if_pos rfl, h]
  rw [entryText, hfield]

/-- Without one, the file name is searched and its stem shown. -/
theorem titleOrFileName_of_no_tag (h : (ctx.fileInfoString FileInfo.title).getD [] = []) :
    ctx.titleOrFileName = ctx.fileName := by
  unfold PlaylistEntryContext.titleOrFileName
  split
  · next c title htitle =>
    rw [htitle] at h
    cases h
  · rfl

theorem entryText_title_of_no_tag (h : (ctx.fileInfoString FileInfo.title).getD [] = []) :
    entryText core (ascii "title") ctx = some (pathStem (ctx.fileName.getD [])) := by
  have hfield : playlistEntryField core (ascii "title") ctx =
      .str (pathStem (ctx.fileName.getD [])) := by
    unfold playlistEntryField
    rw [if_neg (by decide), if_neg (by decide), if_neg (by decide), if_pos rfl]
    split
    · next c title htitle =>
      rw [htitle] at h
      cases h
    · rfl
  rw [entryText, hfield]

/-- The search, field by field. -/
theorem playlistEntryMatches_iff (hfind : FindsIgnoringCase fold core) (hsearch : search ≠ []) :
    playlistEntryMatches core ctx search = true ↔
      OccursIgnoringCase fold search (ctx.titleOrFileName.getD []) ∨
        ShownIn core fold searchedFields.tail ctx search := by
  unfold playlistEntryMatches
  extract_lets hit
  have hhit : ∀ text : Option Bytes,
      hit text = true ↔ OccursIgnoringCase fold search (text.getD []) := by
    intro text
    rw [occurs_getD_iff hsearch]
    cases text with
    | none => simp [hit]
    | some s =>
      have hs := hfind s search
      cases hindex : core.find s search with
      | none => simpa [hit, hindex] using hs
      | some index => simpa [hit, hindex] using hs
  rw [shownIn_tail_iff]
  simp only [Bool.or_eq_true, hhit, or_assoc]

end Search

/-! ## The search against the listing -/

section Main

variable {core : Core ι} {fold : Bytes → Bytes} {ctx : PlaylistEntryContext ι} {search : Bytes}
  (hfind : FindsIgnoringCase fold core)
  (hname : ∀ service, ctx.fileUriService = some service → service.ExtractsLastComponent)

include hname in
theorem slash_notMem_fileName {name : Bytes} (h : ctx.fileName = some name) :
    Path.slash ∉ name := by
  unfold PlaylistEntryContext.fileName at h
  split at h
  · next service uri hservice _ =>
    rw [hname service hservice uri name h]
    exact Path.slash_notMem_filename uri
  · cases h

include hname in
/-- What occurs in the stem occurs in the file name. -/
theorem occurs_fileName_of_stem
    (h : OccursIgnoringCase fold search (pathStem (ctx.fileName.getD []))) :
    OccursIgnoringCase fold search (ctx.fileName.getD []) := by
  cases hfile : ctx.fileName with
  | none =>
    rw [hfile] at h
    exact h
  | some name =>
    rw [hfile] at h
    rcases pathStem_cases (slash_notMem_fileName hname hfile) with hstem | ⟨extension, hstem⟩
    · exact hstem ▸ h
    · show OccursIgnoringCase fold search name
      rw [hstem]
      exact h.append rfl extension

include hfind hname in
/-- What the client sees is found. -/
theorem playlistEntryMatches_of_shown (hsearch : search ≠ [])
    (h : ShownIn core fold searchedFields ctx search) :
    playlistEntryMatches core ctx search = true := by
  rw [playlistEntryMatches_iff hfind hsearch]
  cases htitle : (ctx.fileInfoString FileInfo.title).getD [] with
  | nil =>
    rw [titleOrFileName_of_no_tag htitle]
    rcases (shownIn_cons_iff (entryText_title_of_no_tag htitle)).1 h with hstem | htail
    · exact .inl (occurs_fileName_of_stem hname hstem)
    · exact .inr htail
  | cons c title =>
    rw [titleOrFileName_of_tag (tag_of_getD htitle)]
    exact (shownIn_cons_iff (entryText_title_of_tag (tag_of_getD htitle))).1 h

include hfind hname in
/-- **The search finds what the client sees, but for a hit in the extension alone.** -/
theorem search_matches_shown_iff (hsearch : search ≠ []) :
    (playlistEntryMatches core ctx search = true ↔
        ShownIn core fold searchedFields ctx search) ↔
      ¬OnlyInExtension core fold ctx search := by
  constructor
  · intro hiff hextension
    have hfound : playlistEntryMatches core ctx search = true := by
      rw [playlistEntryMatches_iff hfind hsearch, titleOrFileName_of_no_tag hextension.noTitle]
      exact .inl hextension.inName
    rcases (shownIn_cons_iff (entryText_title_of_no_tag hextension.noTitle)).1 (hiff.1 hfound)
      with h | h
    · exact hextension.notInStem h
    · exact hextension.notElsewhere h
  · intro hextension
    refine ⟨fun hfound => ?_, playlistEntryMatches_of_shown hfind hname hsearch⟩
    by_contra hshown
    apply hextension
    rw [playlistEntryMatches_iff hfind hsearch] at hfound
    cases htitle : (ctx.fileInfoString FileInfo.title).getD [] with
    | nil =>
      have hboth := fun h => hshown ((shownIn_cons_iff (entryText_title_of_no_tag htitle)).2 h)
      obtain ⟨hstem, htail⟩ := not_or.1 hboth
      rw [titleOrFileName_of_no_tag htitle] at hfound
      exact ⟨htitle, hfound.resolve_right htail, hstem, htail⟩
    | cons c title =>
      rw [titleOrFileName_of_tag (tag_of_getD htitle)] at hfound
      exact absurd ((shownIn_cons_iff (entryText_title_of_tag (tag_of_getD htitle))).2 hfound)
        hshown

end Main

/-! ## A player that searches so -/

/-- The index of the first occurrence, -1 when there is none. -/
def foldedFind (fold : Bytes → Bytes) (text search : Bytes) : Option Int :=
  match ((utf8Chars text).map fold).tails.findIdx?
    (((utf8Chars search).map fold).isPrefixOf ·) with
  | some index => some index
  | none => some (-1)

theorem foldedFind_nonneg_iff (fold : Bytes → Bytes) (text search : Bytes) :
    (∃ index, foldedFind fold text search = some index ∧ 0 ≤ index) ↔
      OccursIgnoringCase fold search text := by
  unfold foldedFind OccursIgnoringCase
  generalize (utf8Chars search).map fold = pattern
  generalize (utf8Chars text).map fold = chars
  rw [List.infix_iff_prefix_suffix]
  split
  · next index hindex =>
    obtain ⟨hlt, hprefix, -⟩ := List.findIdx?_eq_some_iff_getElem.1 hindex
    have hsuffix := (List.mem_tails _ _).1 (List.getElem_mem hlt)
    exact iff_of_true ⟨index, rfl, Int.natCast_nonneg index⟩
      ⟨_, List.isPrefixOf_iff_prefix.1 hprefix, hsuffix⟩
  · next hnone =>
    refine iff_of_false (fun ⟨index, hindex, hle⟩ => ?_) fun ⟨tail, hprefix, hsuffix⟩ => ?_
    · cases hindex
      exact absurd hle (by decide)
    · have hmiss := List.findIdx?_eq_none_iff.1 hnone tail ((List.mem_tails _ _).2 hsuffix)
      rw [List.isPrefixOf_iff_prefix.2 hprefix] at hmiss
      cases hmiss

/-- ASCII capitals as small letters. -/
def lowerAscii (char : Bytes) : Bytes :=
  char.map fun b => if 65 ≤ b && b ≤ 90 then b + 32 else b

/-- The URI service of a player whose URIs are paths. -/
def pathUriService : FileUriService where
  extractFileName uri := some (Path.filename uri)
  extractFileParentDirName uri :=
    some (Path.filename (uri.reverse.dropWhile (· ≠ 47)).tail.reverse)
  isUrl _ := false

/-- One track, whose tags cannot be read. -/
def untaggedPlayer (uri : Bytes) : Core Unit where
  playlistManager := none
  playlistQueue := none
  player := none
  createString _ := true
  createObjectList := true
  fileUriService := some pathUriService
  messageProperty _ := none
  find := foldedFind lowerAscii
  itemIndex _ := some 0
  itemPlaylist _ := none
  itemFileInfo _ := none
  itemFileName _ := some uri
  itemMark _ := none
  itemPlayingSwitch _ := none

def untaggedEntry (uri : Bytes) : PlaylistEntryContext Unit :=
  .of (untaggedPlayer uri) () 1 2

theorem untaggedPlayer_finds (uri : Bytes) : FindsIgnoringCase lowerAscii (untaggedPlayer uri) :=
  foldedFind_nonneg_iff lowerAscii

theorem untaggedEntry_extracts (uri : Bytes) (service : FileUriService)
    (h : (untaggedEntry uri).fileUriService = some service) : service.ExtractsLastComponent := by
  cases h
  intro uri name hname
  cases hname
  rfl

/-- Looking for "mp3" finds the track, whose title is shown as "Take On Me". -/
theorem mp3_found_unseen :
    FindsIgnoringCase lowerAscii (untaggedPlayer (ascii "/a-ha/Take On Me.mp3")) ∧
      (∀ service, (untaggedEntry (ascii "/a-ha/Take On Me.mp3")).fileUriService = some service →
        service.ExtractsLastComponent) ∧
      ¬(playlistEntryMatches (untaggedPlayer (ascii "/a-ha/Take On Me.mp3"))
            (untaggedEntry (ascii "/a-ha/Take On Me.mp3")) (ascii "mp3") = true ↔
          ShownIn (untaggedPlayer (ascii "/a-ha/Take On Me.mp3")) lowerAscii searchedFields
            (untaggedEntry (ascii "/a-ha/Take On Me.mp3")) (ascii "mp3")) := by
  refine ⟨untaggedPlayer_finds _, untaggedEntry_extracts _, ?_⟩
  intro h
  have hshown := h.1 (by decide +kernel)
  rw [searchedFields, shownIn_cons_iff (entryText_title_of_no_tag rfl)] at hshown
  rcases hshown with hshown | hshown
  · exact absurd hshown (by decide +kernel)
  · exact absurd (shownIn_tail_iff.1 hshown) (by decide +kernel)

theorem take_found_seen :
    playlistEntryMatches (untaggedPlayer (ascii "/a-ha/Take On Me.mp3"))
        (untaggedEntry (ascii "/a-ha/Take On Me.mp3")) (ascii "take") = true ↔
      ShownIn (untaggedPlayer (ascii "/a-ha/Take On Me.mp3")) lowerAscii searchedFields
        (untaggedEntry (ascii "/a-ha/Take On Me.mp3")) (ascii "take") :=
  (search_matches_shown_iff (untaggedPlayer_finds _) (untaggedEntry_extracts _)
    (by decide)).2 fun h => h.notInStem (by decide +kernel)

end RemoteControl
