import RemoteControl.Commands.FileListing

/-!
# File names that are not UTF-8

On Linux a name is any byte string without `/` and NUL, and `ToUtf8` gives it as it is. One
listed name in another encoding makes the reply one that `dump` throws on
(`listing_delivered_iff`).
-/

namespace RemoteControl

variable {ι : Type}

/-- The bytes encode characters. -/
def ValidUtf8 (s : Bytes) : Prop := s.toByteArray.IsValidUTF8

instance (s : Bytes) : Decidable (ValidUtf8 s) :=
  inferInstanceAs (Decidable s.toByteArray.IsValidUTF8)

namespace Json

/-! All strings of a value, its keys with them, are UTF-8. -/

mutual

def isUtf8 : Json → Bool
  | .str s => decide (ValidUtf8 s)
  | .arr xs => areUtf8 xs
  | .obj members => membersUtf8 members
  | _ => true

def areUtf8 : List Json → Bool
  | [] => true
  | x :: xs => isUtf8 x && areUtf8 xs

def membersUtf8 : List (Bytes × Json) → Bool
  | [] => true
  | (key, x) :: members => decide (ValidUtf8 key) && isUtf8 x && membersUtf8 members

end

theorem areUtf8_strings (names : List Bytes) :
    areUtf8 (names.map .str) = true ↔ ∀ name ∈ names, ValidUtf8 name := by
  induction names with
  | nil => simp [areUtf8]
  | cons name names ih => simp [areUtf8, isUtf8, ih]

theorem isUtf8_of_mem {members : List (Bytes × Json)} {key : Bytes} {x : Json}
    (h : membersUtf8 members = true) (hmem : (key, x) ∈ members) : x.isUtf8 = true := by
  induction members with
  | nil => cases hmem
  | cons m members ih =>
    rw [membersUtf8, Bool.and_eq_true, Bool.and_eq_true] at h
    obtain ⟨⟨-, hx⟩, hrest⟩ := h
    rcases List.mem_cons.mp hmem with heq | hmem
    · rw [← heq] at hx
      exact hx
    · exact ih hrest hmem

theorem isUtf8_member {json x : Json} {key : Bytes} (h : json.isUtf8 = true)
    (hmember : json.member key = some x) : x.isUtf8 = true := by
  cases json with
  | obj members =>
    obtain ⟨m, hfind, rfl⟩ := Option.map_eq_some_iff.mp hmember
    exact isUtf8_of_mem h (List.mem_of_find?_eq_some hfind)
  | null | bool b | int n | float x | str s | arr xs => cases hmember

end Json

/-- What is documented of `dump()` of the JSON library and its default error handler: it
throws where a string is not UTF-8. `dumps` tells whether it returns. -/
def DumpsUtf8 (dumps : Json → Bool) : Prop := ∀ json, dumps json = true ↔ json.isUtf8 = true

/-- The result of a method can be sent: all strings of its lists are UTF-8, and `dump`
returns. -/
def Deliverable (dumps : Json → Bool) (reply : Reply) : Prop :=
  ∀ json, reply = .rpc (.ok json) →
    (∀ key, ∀ names : List Bytes, json.member key = some (.arr (names.map .str)) →
      ∀ name ∈ names, ValidUtf8 name) ∧ dumps json = true

section Replies

variable {dumps : Json → Bool} {system : BrowsedSystem} {features : FeatureSettings}
  {formats : Option Bytes} {moment : Moment ι} {params : Json}

theorem deliverable_iff (hdumps : DumpsUtf8 dumps) (json : Json) :
    Deliverable dumps (.rpc (.ok json)) ↔ json.isUtf8 = true := by
  constructor
  · intro h
    exact (hdumps json).mp (h json rfl).2
  · intro h json' heq
    cases heq
    refine ⟨?_, (hdumps json).mpr h⟩
    intro key names hmember
    exact (Json.areUtf8_strings names).mp (Json.isUtf8_member h hmember)

theorem deliverable_error (failure : Failure) : Deliverable dumps (.rpc (.error failure)) := by
  intro json h
  cases h

theorem isUtf8_listing (files folders : List Bytes) :
    (Json.obj [(ascii "files", .arr (files.map .str)),
        (ascii "folders", .arr (folders.map .str))]).isUtf8 = true ↔
      (∀ name ∈ files, ValidUtf8 name) ∧ ∀ name ∈ folders, ValidUtf8 name := by
  have hfiles : ValidUtf8 (ascii "files") := by decide +kernel
  have hfolders : ValidUtf8 (ascii "folders") := by decide +kernel
  simp only [Json.isUtf8, Json.membersUtf8, Bool.and_eq_true, Json.areUtf8_strings,
    decide_eq_true hfiles, decide_eq_true hfolders, true_and, and_true]

theorem roots_isUtf8 (h : system.build = .linux) : (roots system).isUtf8 = true := by
  have hroots : roots system = .obj [(ascii "labels", .arr [.str []]),
      (ascii "paths", .arr [.str (ascii "/")])] := by
    rw [roots, h]
    rfl
  rw [hroots]
  decide +kernel

/-- An entry whose name the listing shows. -/
def IsShown (extensions : List Bytes) (entry : DirectoryEntry) : Prop :=
  entry.isDirectory = true ∨ IsPlayable .linux extensions entry

/-- A listing can be sent exactly if all the names that it shows are UTF-8. -/
theorem listing_deliverable_iff (hdumps : DumpsUtf8 dumps) (hlinux : system.build = .linux)
    {path : Bytes} {directory : Directory} (extensions : List Bytes)
    (h : system.directory path = some directory) :
    Deliverable dumps (.rpc (listing system path extensions)) ↔
      ∀ entry ∈ directory.entries, IsShown extensions entry → ValidUtf8 entry.name := by
  obtain ⟨files, folders, hlisting, hfiles, hfolders⟩ := listing_of_readable extensions h
  rw [hlinux] at hfiles
  rw [hlisting, deliverable_iff hdumps, isUtf8_listing]
  constructor
  · rintro ⟨hvalid, hvalid'⟩ entry hentry (hdirectory | hplayable)
    · exact hvalid' entry.name ((hfolders.mem_iff _).mpr ⟨entry, hentry, rfl, hdirectory⟩)
    · exact hvalid entry.name ((hfiles.mem_iff _).mpr ⟨entry, hentry, rfl, hplayable⟩)
  · intro hvalid
    constructor
    · intro name hname
      obtain ⟨entry, hentry, rfl, hplayable⟩ := (hfiles.mem_iff name).mp hname
      exact hvalid entry hentry (Or.inr hplayable)
    · intro name hname
      obtain ⟨entry, hentry, rfl, hdirectory⟩ := (hfolders.mem_iff name).mp hname
      exact hvalid entry hentry (Or.inl hdirectory)

/-- The request is one to list this folder. -/
structure Browses (system : BrowsedSystem) (features : FeatureSettings) (params : Json)
    (path : Bytes) (directory : Directory) : Prop where
  allowed : features.browseFiles = true
  requested : params.stringValue (ascii "path") = some path
  nonempty : path ≠ []
  readable : system.directory path = some directory

theorem Browses.unique {path path' : Bytes} {directory directory' : Directory}
    (h : Browses system features params path directory)
    (h' : Browses system features params path' directory') : directory' = directory := by
  have hpath : path' = path := Option.some.inj (h'.requested.symm.trans h.requested)
  have hreadable := h'.readable
  rw [hpath, h.readable] at hreadable
  exact (Option.some.inj hreadable).symm

/-- A request that lists no folder is answered with the roots or an error. -/
theorem browseFiles_cases (system : BrowsedSystem) (features : FeatureSettings)
    (formats : Option Bytes) (moment : Moment ι) (params : Json) :
    (∃ path directory, Browses system features params path directory) ∨
      (∃ failure, (browseFiles system features formats moment params).reply =
        .rpc (.error failure)) ∨
      (browseFiles system features formats moment params).reply = .rpc (.ok (roots system)) := by
  unfold browseFiles
  by_cases hallowed : features.browseFiles = false
  · rw [if_pos hallowed]
    exact Or.inr (Or.inl ⟨_, rfl⟩)
  · rw [if_neg hallowed]
    rw [Bool.not_eq_false] at hallowed
    cases hparams : params.stringValue (ascii "path") with
    | none => exact Or.inr (Or.inl ⟨_, rfl⟩)
    | some path =>
      cases path with
      | nil => exact Or.inr (Or.inr rfl)
      | cons c path =>
        cases hdirectory : system.directory (c :: path) with
        | none =>
          refine Or.inr (Or.inl ⟨rpcError 33 "Path inaccessible", ?_⟩)
          simp only [listing, hdirectory]
        | some directory =>
          exact Or.inl ⟨_, directory, hallowed, hparams, List.cons_ne_nil c path, hdirectory⟩

/-- **What `BrowseFiles` returns can be sent** exactly if no folder and no playable file of
the folder has a name that is not UTF-8. -/
theorem listing_delivered_iff (hdumps : DumpsUtf8 dumps) (hlinux : system.build = .linux) :
    Deliverable dumps (browseFiles system features formats moment params).reply ↔
      ∀ path directory, Browses system features params path directory →
        ∀ entry ∈ directory.entries,
          IsShown (extensionsAt formats moment) entry → ValidUtf8 entry.name := by
  by_cases hbrowses : ∃ path directory, Browses system features params path directory
  · obtain ⟨path, directory, h⟩ := hbrowses
    rw [browseFiles_reply system formats moment h.allowed h.requested h.nonempty,
      listing_deliverable_iff hdumps hlinux _ h.readable]
    constructor
    · intro hvalid path' directory' h'
      rw [h.unique h']
      exact hvalid
    · intro hvalid
      exact hvalid path directory h
  · refine iff_of_true ?_ fun path directory h => absurd ⟨path, directory, h⟩ hbrowses
    rcases browseFiles_cases system features formats moment params with
      h | ⟨failure, hreply⟩ | hreply
    · exact absurd h hbrowses
    · rw [hreply]
      exact deliverable_error failure
    · rw [hreply, deliverable_iff hdumps]
      exact roots_isUtf8 hlinux

end Replies

/-! ## A folder named in Latin-1 -/

/-- Beside a song there is a folder `Mü`. -/
def latinFolder : Directory where
  entries := [⟨ascii "song.mp3", false, none⟩, ⟨[77, 252], true, none⟩]
  nodup := by decide +kernel
  named := by
    simp only [IsEntryName]
    decide +kernel

theorem latinFolder_not_delivered : ∃ files folders : List Bytes,
    (browseFiles (musicSystem latinFolder) { browseFiles := true } (some musicMasks) musicMoment
        musicRequest).reply =
      .rpc (.ok (.obj [(ascii "files", .arr (files.map .str)),
        (ascii "folders", .arr (folders.map .str))])) ∧
      ascii "song.mp3" ∈ files ∧ [77, 252] ∈ folders ∧ ¬ValidUtf8 [77, 252] ∧
      ∀ dumps, DumpsUtf8 dumps → ¬Deliverable dumps
        (browseFiles (musicSystem latinFolder) { browseFiles := true } (some musicMasks)
          musicMoment musicRequest).reply := by
  have hinvalid : ¬ValidUtf8 [77, 252] := by decide +kernel
  have hreply := @browseFiles_reply Unit { browseFiles := true } musicRequest (ascii "/music")
    (musicSystem latinFolder) (some musicMasks) musicMoment rfl rfl (by decide)
  rw [extensionsAt_of_runs _ (show musicMoment.scheduling.Runs from trivial),
    musicMasks_extensions] at hreply
  obtain ⟨files, folders, hlisting, hfiles, hfolders⟩ :=
    @listing_of_readable (musicSystem latinFolder) (ascii "/music") latinFolder
      [ascii "mp3", ascii "ogg"] rfl
  have hsong : ascii "song.mp3" ∈ files := by
    rw [hfiles.mem_iff]
    simp only [← isListedFile_iff]
    decide +kernel
  have hfolder : [77, 252] ∈ folders := by
    rw [hfolders.mem_iff]
    decide +kernel
  rw [hreply, hlisting]
  refine ⟨files, folders, rfl, hsong, hfolder, hinvalid, ?_⟩
  intro dumps hdumps hdeliverable
  rw [deliverable_iff hdumps, isUtf8_listing] at hdeliverable
  exact hinvalid (hdeliverable.2 _ hfolder)

theorem musicFolder_delivered :
    Browses (musicSystem musicFolder) { browseFiles := true } musicRequest (ascii "/music")
        musicFolder ∧
      Deliverable Json.isUtf8 (browseFiles (musicSystem musicFolder) { browseFiles := true }
        (some musicMasks) musicMoment musicRequest).reply := by
  have hbrowses : Browses (musicSystem musicFolder) { browseFiles := true } musicRequest
      (ascii "/music") musicFolder := ⟨rfl, rfl, by decide, rfl⟩
  have hvalid : ∀ entry ∈ musicFolder.entries, ValidUtf8 entry.name := by decide +kernel
  refine ⟨hbrowses, (listing_delivered_iff (fun _ => Iff.rfl) rfl).mpr ?_⟩
  intro path directory h entry hentry _
  rw [hbrowses.unique h] at hentry
  exact hvalid entry hentry

end RemoteControl
