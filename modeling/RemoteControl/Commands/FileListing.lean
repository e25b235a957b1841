import RemoteControl.Commands.BrowseFiles
import RemoteControl.Commands.SuccessReplies
import RemoteControl.Lib.Segments

/-!
# What a listing shows

`BrowseFiles` lists all folders and the playable files of a folder, each once and in the
order of `LessIgnoreCase`; playable is what `GetFormats` answers (`listing_complete`).
-/

namespace RemoteControl

open Segments Sorting

variable {ι : Type}

/-! ## The masks -/

theorem maskLoop_end {masks : Bytes} {start : Nat} (h : masks.length ≤ start) :
    maskLoop masks start = [] := by
  rw [maskLoop, if_neg (by omega)]

/-- From anywhere on, the loop goes through the segments that are left. -/
theorem maskLoop_eq (masks : Bytes) (start : Nat) :
    maskLoop masks start =
      (((masks.drop start).splitOn 59).map extensionOfMask).filter (· ≠ []) := by
  by_cases hstart : start < masks.length
  · rw [maskLoop, if_pos hstart]
    dsimp only
    cases hfind : findByte 59 (masks.drop start) with
    | none =>
      rw [Option.getD_none, maskLoop_end (by rw [List.length_drop]; omega),
        splitOn_of_findByte_eq_none hfind, List.take_length, List.map_cons, List.filter_cons]
      by_cases hnil : extensionOfMask (masks.drop start) = [] <;> simp [hnil]
    | some n =>
      rw [Option.getD_some, maskLoop_eq masks (start + n + 1),
        splitOn_of_findByte_eq_some hfind, List.drop_drop, ← Nat.add_assoc, List.map_cons,
        List.filter_cons]
      by_cases hnil : extensionOfMask ((masks.drop start).take n) = [] <;> simp [hnil]
  · rw [maskLoop_end (Nat.le_of_not_lt hstart), List.drop_eq_nil_of_le (Nat.le_of_not_lt hstart)]
    decide
termination_by masks.length - start

theorem supportedAudioExtensions_eq (formats : Option Bytes) :
    supportedAudioExtensions formats =
      (((formats.getD []).splitOn 59).map extensionOfMask).filter (· ≠ []) := by
  rw [supportedAudioExtensions, maskLoop_eq, List.drop_zero]

/-! ## The order -/

theorem toLower_lt_iff (x y : UInt8) :
    decide (toLower x < toLower y) = true ↔ (toLower x).toNat < (toLower y).toNat := by
  rw [decide_eq_true_eq, UInt8.lt_iff_toNat_lt]

theorem isStrictWeakOrder_lessIgnoreCase :
    IsStrictWeakOrder Bytes (fun a b => lessIgnoreCase a b = true) :=
  isStrictWeakOrder_lexicographicalCompare toLower_lt_iff

/-! ## The entries -/

/-- What is left of a file name from its last dot on. -/
theorem drop_extensionStart {file : Bytes} {i : Nat} (h : Path.extensionStart file = some i) :
    ∃ extension, file.drop i = Path.dot :: extension := by
  unfold Path.extensionStart at h
  dsimp only at h
  split at h
  · cases h
  · next hnot =>
    obtain ⟨-, hlong⟩ := not_or.mp hnot
    cases h
    have hsplit := List.takeWhile_append_dropWhile (p := (· != Path.dot)) (l := file.reverse)
    generalize hafter : file.reverse.takeWhile (· != Path.dot) = after at hsplit hlong
    cases hrest : file.reverse.dropWhile (· != Path.dot) with
    | nil =>
      rw [hrest, List.append_nil] at hsplit
      rw [hsplit, List.length_reverse] at hlong
      omega
    | cons b before =>
      have hb : b = Path.dot := by
        have hhead := List.head?_dropWhile_not (· != Path.dot) file.reverse
        rw [hrest] at hhead
        simpa using hhead
      rw [hrest, hb] at hsplit
      have hfile : file = before.reverse ++ Path.dot :: after.reverse := by
        rw [← List.reverse_reverse file, ← hsplit]
        simp
      refine ⟨after.reverse, ?_⟩
      have hi : file.length - after.length - 1 = before.reverse.length := by
        rw [hfile]
        simp
        omega
      rw [hi, hfile, List.drop_left]

theorem dot_of_extension {name extension : Bytes} {b : UInt8}
    (h : Path.extension name = b :: extension) : b = Path.dot := by
  unfold Path.extension at h
  cases hstart : Path.extensionStart (Path.filename name) with
  | none =>
    rw [hstart] at h
    cases h
  | some i =>
    obtain ⟨rest, hrest⟩ := drop_extensionStart hstart
    rw [hstart] at h
    exact (List.cons.inj (h.symm.trans hrest)).1

theorem hasExtensionFrom_iff {name : Bytes} {extensions : List Bytes} :
    hasExtensionFrom name extensions = true ↔
      ∃ extension, Path.extension name = Path.dot :: extension ∧
        extension.map toLower ∈ extensions := by
  unfold hasExtensionFrom
  cases hext : Path.extension name with
  | nil => simp
  | cons b extension =>
    rw [dot_of_extension hext]
    simp

/-- An entry that is listed as a file. -/
def isListedFile (build : Build) (extensions : List Bytes) (entry : DirectoryEntry) : Bool :=
  !entry.isDirectory &&
    (!isHiddenOrSystemFile build entry && hasExtensionFrom entry.name extensions)

/-- The loop takes each name once, in the order of the entries. -/
theorem collectNames_eq (build : Build) (extensions : List Bytes) (entries : List DirectoryEntry) :
    collectNames build extensions entries =
      ((entries.filter (isListedFile build extensions)).map DirectoryEntry.name,
        (entries.filter DirectoryEntry.isDirectory).map DirectoryEntry.name) := by
  induction entries with
  | nil => rfl
  | cons entry entries ih =>
    rw [collectNames, ih, List.filter_cons, List.filter_cons, isListedFile]
    cases entry.isDirectory with
    | true => rfl
    | false =>
      rw [Bool.not_false, Bool.true_and]
      cases !isHiddenOrSystemFile build entry && hasExtensionFrom entry.name extensions with
      | true => rfl
      | false => rfl

/-! ## The listing -/

/-- A file of the folder that can be played: one of `extensions` is its own, in small letters
and without the dot. -/
structure IsPlayable (build : Build) (extensions : List Bytes) (entry : DirectoryEntry) :
    Prop where
  not_directory : entry.isDirectory = false
  not_hidden : isHiddenOrSystemFile build entry = false
  supported : ∃ extension, Path.extension entry.name = Path.dot :: extension ∧
    extension.map toLower ∈ extensions

theorem isListedFile_iff {build : Build} {extensions : List Bytes} {entry : DirectoryEntry} :
    isListedFile build extensions entry = true ↔ IsPlayable build extensions entry := by
  simp only [isListedFile, Bool.and_eq_true, Bool.not_eq_true', hasExtensionFrom_iff]
  constructor
  · rintro ⟨hdirectory, hhidden, hsupported⟩
    exact ⟨hdirectory, hhidden, hsupported⟩
  · rintro ⟨hdirectory, hhidden, hsupported⟩
    exact ⟨hdirectory, hhidden, hsupported⟩

/-- `names` are the names of the entries that meet `p`: all of them, each once, and none
after one that it is less than. -/
structure Enumerates (names : List Bytes) (entries : List DirectoryEntry)
    (p : DirectoryEntry → Prop) : Prop where
  mem_iff : ∀ name, name ∈ names ↔ ∃ entry ∈ entries, entry.name = name ∧ p entry
  nodup : names.Nodup
  sorted : names.Pairwise fun a b => lessIgnoreCase b a = false

theorem enumerates_sort (sorter : Sorter Bytes) (directory : Directory)
    {p : DirectoryEntry → Prop} {listed : DirectoryEntry → Bool}
    (hlisted : ∀ entry, listed entry = true ↔ p entry) :
    Enumerates
      (sorter.sort lessIgnoreCase ((directory.entries.filter listed).map DirectoryEntry.name))
      directory.entries p where
  mem_iff name := by
    rw [(sorter.perm isStrictWeakOrder_lessIgnoreCase _).mem_iff, List.mem_map]
    apply exists_congr
    intro entry
    rw [List.mem_filter, hlisted, and_assoc, and_comm (a := p entry)]
  nodup := by
    rw [(sorter.perm isStrictWeakOrder_lessIgnoreCase _).nodup_iff]
    exact directory.nodup.sublist (List.filter_sublist.map _)
  sorted := sorter.sorted isStrictWeakOrder_lessIgnoreCase _

theorem listing_of_readable {system : BrowsedSystem} {path : Bytes} {directory : Directory}
    (extensions : List Bytes) (h : system.directory path = some directory) :
    ∃ files folders, listing system path extensions =
        .ok (.obj [(ascii "files", .arr (files.map .str)),
          (ascii "folders", .arr (folders.map .str))]) ∧
      Enumerates files directory.entries (IsPlayable system.build extensions) ∧
      Enumerates folders directory.entries (·.isDirectory = true) := by
  refine ⟨_, _, ?_, enumerates_sort system.sorter directory fun _ => isListedFile_iff,
    enumerates_sort system.sorter directory fun _ => Iff.rfl⟩
  simp only [listing, h, collectNames_eq]

/-! ## The commands -/

/-- What the task gives, run or not, is the same for both commands. -/
def extensionsAt (formats : Option Bytes) (moment : Moment ι) : List Bytes :=
  (runOnMainThread [] moment (extensionsTask formats)).value

theorem extensionsAt_of_runs (formats : Option Bytes) {moment : Moment ι}
    (h : moment.scheduling.Runs) :
    extensionsAt formats moment = supportedAudioExtensions formats := by
  rw [extensionsAt, runOnMainThread_of_runs h]
  rfl

theorem browseFiles_reply {features : FeatureSettings} {params : Json} {path : Bytes}
    (system : BrowsedSystem) (formats : Option Bytes) (moment : Moment ι)
    (hallowed : features.browseFiles = true)
    (hparams : params.stringValue (ascii "path") = some path) (hpath : path ≠ []) :
    (browseFiles system features formats moment params).reply =
      .rpc (listing system path (extensionsAt formats moment)) := by
  obtain ⟨c, path, rfl⟩ := List.exists_cons_of_ne_nil hpath
  simp only [browseFiles, hallowed, hparams]
  rfl

/-- A readable folder is listed whole, by the extensions that `GetFormats` answers, and these
are the masks of the player in their order. -/
theorem listing_complete (system : BrowsedSystem) {features : FeatureSettings}
    (formats : Option Bytes) (moment : Moment ι) {params : Json} {path : Bytes}
    {directory : Directory} (hallowed : features.browseFiles = true)
    (hparams : params.stringValue (ascii "path") = some path) (hpath : path ≠ [])
    (hreadable : system.directory path = some directory) :
    IsStrictWeakOrder Bytes (fun a b => lessIgnoreCase a b = true) ∧
      (∃ masks, Lists 59 (formats.getD []) (fun _ => True) masks ∧
        supportedAudioExtensions formats = (masks.map extensionOfMask).filter (· ≠ [])) ∧
      ∃ extensions files folders,
        (getFormats formats moment).reply =
          .rpc (.ok (.obj [(ascii "formats", .arr (extensions.map .str))])) ∧
        (moment.scheduling.Runs → extensions = supportedAudioExtensions formats) ∧
        (browseFiles system features formats moment params).reply =
          .rpc (.ok (.obj [(ascii "files", .arr (files.map .str)),
            (ascii "folders", .arr (folders.map .str))])) ∧
        Enumerates files directory.entries (IsPlayable system.build extensions) ∧
        Enumerates folders directory.entries (·.isDirectory = true) := by
  obtain ⟨files, folders, hlisting, hfiles, hfolders⟩ :=
    listing_of_readable (extensionsAt formats moment) hreadable
  refine ⟨isStrictWeakOrder_lessIgnoreCase,
    ⟨_, splitOn_lists 59 _, supportedAudioExtensions_eq formats⟩,
    extensionsAt formats moment, files, folders, rfl, extensionsAt_of_runs formats, ?_,
    hfiles, hfolders⟩
  rw [browseFiles_reply system formats moment hallowed hparams hpath, hlisting]

/-! ## A folder with one song -/

/-- Linux with this folder at `/music`. -/
def musicSystem (directory : Directory) : BrowsedSystem where
  build := .linux
  directory path := if path = ascii "/music" then some directory else none
  sorter := mergeSorter Bytes

def musicRequest : Json := .obj [(ascii "path", .str (ascii "/music"))]

def musicMoment : Moment Unit := ⟨oneTrackPlayer, .empty, .noService⟩

/-- A separator is doubled, and one is missing at the end. -/
def musicMasks : Bytes := ascii "*.MP3;;*.ogg"

def musicFolder : Directory where
  entries := [⟨ascii "song.Mp3", false, none⟩, ⟨ascii ".song.mp3", false, none⟩,
    ⟨ascii "Live", true, none⟩, ⟨ascii "notes.txt", false, none⟩]
  nodup := by decide +kernel
  named := by
    simp only [IsEntryName]
    decide +kernel

theorem musicMasks_extensions :
    supportedAudioExtensions (some musicMasks) = [ascii "mp3", ascii "ogg"] := by
  rw [supportedAudioExtensions_eq]
  decide +kernel

theorem listing_complete_song : ∃ files folders : List Bytes,
    (browseFiles (musicSystem musicFolder) { browseFiles := true } (some musicMasks) musicMoment
        musicRequest).reply =
      .rpc (.ok (.obj [(ascii "files", .arr (files.map .str)),
        (ascii "folders", .arr (folders.map .str))])) ∧
      (∀ name, name ∈ files ↔ name = ascii "song.Mp3") ∧
      ∀ name, name ∈ folders ↔ name = ascii "Live" := by
  obtain ⟨-, -, extensions, files, folders, -, hextensions, hreply, hfiles, hfolders⟩ :=
    @listing_complete Unit (musicSystem musicFolder) { browseFiles := true } (some musicMasks)
      musicMoment musicRequest (ascii "/music") musicFolder rfl rfl (by decide) rfl
  rw [hextensions trivial, musicMasks_extensions] at hfiles
  refine ⟨files, folders, hreply, ?_, ?_⟩
  · intro name
    have hlisted : musicFolder.entries.filter
        (isListedFile (musicSystem musicFolder).build [ascii "mp3", ascii "ogg"]) =
          [⟨ascii "song.Mp3", false, none⟩] := by decide +kernel
    rw [hfiles.mem_iff]
    constructor
    · rintro ⟨entry, hentry, rfl, hplayable⟩
      have hmem := List.mem_filter.mpr ⟨hentry, isListedFile_iff.mpr hplayable⟩
      rw [hlisted, List.mem_singleton] at hmem
      rw [hmem]
    · rintro rfl
      have hmem := List.mem_filter.mp (hlisted ▸ List.mem_singleton_self _)
      exact ⟨_, hmem.1, rfl, isListedFile_iff.mp hmem.2⟩
  · intro name
    rw [hfolders.mem_iff]
    constructor
    · rintro ⟨entry, hentry, rfl, hdirectory⟩
      revert entry
      decide +kernel
    · rintro rfl
      decide +kernel

end RemoteControl
