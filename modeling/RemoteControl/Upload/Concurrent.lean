import RemoteControl.Commands.SuccessReplies
import RemoteControl.Lib.Disk
import RemoteControl.Lib.Transition

/-!
# Uploads at the same time

Any number of upload handlers that have found their playlist, each access to the file
system one step: `UniqueTarget` asks for one candidate after another, the file is opened,
written to, and renamed after its tags. The name is free when it is asked for, and is used
in a later step; what is written can still be lost when the stream is closed.

`step_inv` keeps, for steps that use a name while it is free and lose nothing at the close: the
files that were there are untouched, and every part has a file of its own, complete once it is
written.
-/

namespace RemoteControl.ConcurrentUploads

open Transition

variable {ι : Type}

abbrev UploadDisk := Disk Bytes UInt8

/-- `std::filesystem::exists`. -/
def fileExists (disk : UploadDisk) (path : Bytes) : Bool :=
  FileSystem.isFolderName (Path.filename path) || (disk.inode path).isSome || disk.directory path

/-! ## One request -/

/-- Where a handler stands, with the part it is at. -/
inductive Phase
  /-- `UniqueTarget` is about to ask for the `n`-th candidate for the client's name. -/
  | choosing (n : Nat)
  | opening (target : Bytes)
  | writing (target : Bytes) (inode : Nat)
  /-- `RestoreName` is about to read the tags. -/
  | readingTags (target : Bytes)
  | choosingTagBased (target name : Bytes) (n : Nat)
  | moving (target tagBased : Bytes)
  /-- All parts are saved. -/
  | adding
  /-- With the file of a part that could not be written. -/
  | answered (status : Int) (left : Option Bytes)
deriving DecidableEq

/-- The file of the part a handler is at, from its opening on. -/
def Phase.place : Phase → Option Bytes
  | choosing _ | opening _ | adding => none
  | writing target _ | readingTags target | choosingTagBased target _ _ | moving target _ =>
    some target
  | answered _ left => left

structure Upload where
  folder : Bytes
  playlistId : PluginId
  files : List HttpUploadedFile
  /-- The parts that are done, with their paths. -/
  saved : List (HttpUploadedFile × Bytes)
  /-- The others, the one the handler is at first. -/
  rest : List HttpUploadedFile
  phase : Phase

def clientName (file : HttpUploadedFile) : Bytes :=
  if file.fileName = [] then file.name else file.fileName

namespace Upload

/-- The handler goes on to the next part, or has none left. -/
def next (u : Upload) : Upload :=
  { u with phase := if u.rest = [] then .adding else .choosing 1 }

def enter (folder : Bytes) (playlistId : PluginId) (files : List HttpUploadedFile) : Upload :=
  next { folder, playlistId, files, saved := [], rest := files, phase := .adding }

/-- `saved.push_back(target)`. -/
def keep (u : Upload) (file : HttpUploadedFile) (rest : List HttpUploadedFile) (path : Bytes) :
    Upload :=
  next { u with saved := u.saved ++ [(file, path)], rest }

/-- The paths of its parts, in order. -/
def places (u : Upload) : List Bytes := u.saved.map Prod.snd ++ u.phase.place.toList

end Upload

/-! ## The system -/

structure System where
  disk : UploadDisk
  uploads : Nat → Option Upload := fun _ => none

inductive Action (ι : Type)
  /-- A handler comes to its parts; its folder is made where that succeeds. -/
  | enter (k : Nat) (folder : Bytes) (playlistId : PluginId) (files : List HttpUploadedFile)
      (folderMade : Bool)
  /-- `exists` of one candidate. -/
  | check (k : Nat)
  | openFile (k : Nat) (opened : Bool)
  /-- `WriteFile`, from the write to the end of its stream. -/
  | writeFile (k : Nat) (outcome : WriteOutcome)
  | readTags (k : Nat) (moment : Moment ι)
  | renameFile (k : Nat) (renamed : Bool)
  | addFiles (k : Nat) (moment : Moment ι)

namespace System

def put (s : System) (k : Nat) (u : Upload) : System :=
  { s with uploads := Function.update s.uploads k (some u) }

theorem put_uploads {s : System} {k k' : Nat} {u : Upload} :
    (s.put k u).uploads k' = if k' = k then some u else s.uploads k' := Function.update_apply ..

def check (s : System) (k : Nat) (u : Upload) : Option System :=
  match u.phase, u.rest with
  | .choosing n, file :: _ =>
    let target := candidate u.folder (clientFileName (clientName file)) n
    some (s.put k { u with
      phase := if fileExists s.disk target then .choosing (n + 1) else .opening target })
  | .choosingTagBased target name n, _ =>
    let tagBased := candidate u.folder name n
    some (s.put k { u with
      phase := if fileExists s.disk tagBased then .choosingTagBased target name (n + 1)
        else .moving target tagBased })
  | _, _ => none

def openFile (s : System) (k : Nat) (u : Upload) (opened : Bool) : Option System :=
  match u.phase with
  | .opening target =>
    if opened ∧ s.disk.directory target = false then
      let (disk, inode) := s.disk.openTruncate target
      some ({ s with disk }.put k { u with phase := .writing target inode })
    else some (s.put k { u with phase := .answered 500 none })
  | _ => none

/-- The file has been opened, so that there is no outcome `notOpened`. -/
def writeFile (s : System) (k : Nat) (u : Upload) (outcome : WriteOutcome) : Option System :=
  match u.phase, u.rest with
  | .writing target inode, file :: rest =>
    (outcome.leaves file.content).map fun bytes =>
      { s with disk := s.disk.write inode bytes }.put k
        (if outcome.good = false then { u with phase := .answered 500 (some target) }
        else if 63 ∈ clientName file then { u with phase := .readingTags target }
        else u.keep file rest target)
  | _, _ => none

def readTags (s : System) (k : Nat) (u : Upload) (moment : Moment ι) : Option System :=
  match u.phase, u.rest with
  | .readingTags target, file :: rest =>
    let tagName := (runOnMainThread [] moment fun core _ => (tagBasedName core target, [])).value
    some (s.put k
      (if tagName = [] then u.keep file rest target
        else { u with phase := .choosingTagBased target (tagName ++ Path.extension target) 1 }))
  | _, _ => none

def renameFile (s : System) (k : Nat) (u : Upload) (renamed : Bool) : Option System :=
  match u.phase, u.rest with
  | .moving target tagBased, file :: rest =>
    match if renamed then s.disk.rename target tagBased else none with
    | some disk => some ({ s with disk }.put k (u.keep file rest tagBased))
    | none => some (s.put k (u.keep file rest target))
  | _, _ => none

def addFiles (s : System) (k : Nat) (u : Upload) (moment : Moment ι) : Option System :=
  match u.phase, (addUploaded moment u.playlistId (u.saved.map Prod.snd)).reply with
  | .adding, .http status => some (s.put k { u with phase := .answered status none })
  | _, _ => none

def step (s : System) : Action ι → Option System
  | .enter k folder playlistId files folderMade =>
    match s.uploads k with
    | some _ => none
    | none =>
      if files = [] then none
      else
        let disk := if folderMade then s.disk.makeDirectory folder else s.disk
        some ({ s with disk }.put k (.enter folder playlistId files))
  | .check k => (s.uploads k).bind (s.check k)
  | .openFile k opened => (s.uploads k).bind fun u => s.openFile k u opened
  | .writeFile k outcome => (s.uploads k).bind fun u => s.writeFile k u outcome
  | .readTags k moment => (s.uploads k).bind fun u => s.readTags k u moment
  | .renameFile k renamed => (s.uploads k).bind fun u => s.renameFile k u renamed
  | .addFiles k moment => (s.uploads k).bind fun u => s.addFiles k u moment

/-- A file is opened and renamed only to a name that is still free. -/
def UsesFreeName (s : System) : Action ι → Prop
  | .openFile k true =>
    match (s.uploads k).map Upload.phase with
    | some (.opening target) => s.disk.inode target = none
    | _ => True
  | .renameFile k true =>
    match (s.uploads k).map Upload.phase with
    | some (.moving _ tagBased) => s.disk.inode tagBased = none
    | _ => True
  | _ => True

instance decidableUsesFreeName (s : System) (a : Action ι) : Decidable (s.UsesFreeName a) := by
  unfold UsesFreeName
  split
  · split <;> infer_instance
  · split <;> infer_instance
  · infer_instance

/-- Nothing that the stream has taken is lost when it is closed. -/
def Lossless : Action ι → Prop
  | .writeFile _ (.lost _) => False
  | _ => True

instance decidableLossless : DecidablePred (Lossless : Action ι → Prop) := fun a => by
  unfold Lossless
  split <;> infer_instance

/-- Neither happens: a name taken since it was found to be free, or a write lost at the close. -/
def Keeps (s : System) (a : Action ι) : Prop := s.UsesFreeName a ∧ Lossless a

instance decidableKeeps (s : System) (a : Action ι) : Decidable (s.Keeps a) :=
  inferInstanceAs (Decidable (_ ∧ _))

/-- Nothing is lost: the files that were there keep their content, and the parts of a
request answered 200 are complete, each in a file of its own. -/
structure Intact (s : System) (init : UploadDisk) : Prop where
  kept : ∀ path content, init.read path = some content → s.disk.read path = some content
  complete : ∀ k u left, s.uploads k = some u → u.phase = .answered 200 left →
    u.saved.map Prod.fst = u.files ∧ ∀ part ∈ u.saved, s.disk.read part.2 = some part.1.content
  own : ∀ k u, s.uploads k = some u → u.places.Nodup
  apart : ∀ k u k' u', s.uploads k = some u → s.uploads k' = some u' → k ≠ k' →
    ∀ path ∈ u.places, path ∉ u'.places

end System

/-! ## The invariant -/

def Phase.Finished : Phase → Prop
  | adding => True
  | answered status _ => status = 200
  | _ => False

/-- What a handler knows of the file it is at. -/
def PlaceSound (init disk : UploadDisk) (rest : List HttpUploadedFile) : Phase → Prop
  | .writing target inode => init.Holds disk target inode []
  | .readingTags target | .choosingTagBased target _ _ | .moving target _ =>
    ∃ file more i, rest = file :: more ∧ init.Holds disk target i file.content
  | .answered _ (some left) => ∃ i bytes, init.Holds disk left i bytes
  | .choosing _ | .opening _ | .adding | .answered _ none => True

structure Sound (init disk : UploadDisk) (u : Upload) : Prop where
  parts : u.saved.map Prod.fst ++ u.rest = u.files
  finished : u.phase.Finished → u.rest = []
  saved : ∀ part ∈ u.saved, ∃ i, init.Holds disk part.2 i part.1.content
  place : PlaceSound init disk u.rest u.phase

structure Inv (init : UploadDisk) (s : System) : Prop where
  disk : init.Extends s.disk
  sound : ∀ k u, s.uploads k = some u → Sound init s.disk u
  own : ∀ k u, s.uploads k = some u → u.places.Nodup
  apart : ∀ k u k' u', s.uploads k = some u → s.uploads k' = some u' → k ≠ k' →
    ∀ path ∈ u.places, path ∉ u'.places

section Steps

variable {init disk : UploadDisk} {s t : System} {u v : Upload} {k : Nat} {path : Bytes}

theorem PlaceSound.holds {rest : List HttpUploadedFile} {phase : Phase}
    (h : PlaceSound init disk rest phase) (hpath : phase.place = some path) :
    ∃ i bytes, init.Holds disk path i bytes := by
  cases phase with
  | choosing n | opening target | adding => cases hpath
  | writing target inode => cases hpath; exact ⟨_, _, h⟩
  | readingTags target | choosingTagBased target name n | moving target tagBased =>
    cases hpath
    obtain ⟨file, more, i, -, hholds⟩ := h
    exact ⟨i, _, hholds⟩
  | answered status left =>
    cases left with
    | none => cases hpath
    | some left => cases hpath; exact h

theorem Sound.holds (h : Sound init disk u) (hpath : path ∈ u.places) :
    ∃ i bytes, init.Holds disk path i bytes := by
  rcases List.mem_append.mp hpath with hsaved | hplace
  · obtain ⟨part, hpart, rfl⟩ := List.mem_map.mp hsaved
    obtain ⟨i, hholds⟩ := h.saved part hpart
    exact ⟨i, _, hholds⟩
  · exact h.place.holds (Option.mem_toList.mp hplace)

theorem mem_places_of_saved {part : HttpUploadedFile × Bytes} (h : part ∈ u.saved) :
    part.2 ∈ u.places :=
  List.mem_append_left _ (List.mem_map.mpr ⟨part, h, rfl⟩)

theorem mem_places_of_place (h : u.phase.place = some path) : path ∈ u.places :=
  List.mem_append_right _ (by rw [h]; exact List.mem_singleton_self path)

/-- A handler whose files are left alone still knows what it knew. -/
theorem Sound.frame {disk' : UploadDisk} (h : Sound init disk u)
    (hframe : ∀ path ∈ u.places, ∀ i bytes,
      init.Holds disk path i bytes → init.Holds disk' path i bytes) :
    Sound init disk' u where
  parts := h.parts
  finished := h.finished
  saved part hpart := by
    obtain ⟨i, hholds⟩ := h.saved part hpart
    exact ⟨i, hframe _ (mem_places_of_saved hpart) _ _ hholds⟩
  place := by
    have hmem : ∀ target, u.phase.place = some target → target ∈ u.places :=
      fun target => mem_places_of_place
    have hplace := h.place
    generalize u.phase = phase at hplace hmem
    cases phase with
    | choosing n | opening target | adding => trivial
    | writing target inode => exact hframe _ (hmem _ rfl) _ _ hplace
    | readingTags target | choosingTagBased target name n | moving target tagBased =>
      obtain ⟨file, more, i, hrest, hholds⟩ := hplace
      exact ⟨file, more, i, hrest, hframe _ (hmem _ rfl) _ _ hholds⟩
    | answered status left =>
      cases left with
      | none => trivial
      | some left =>
        obtain ⟨i, bytes, hholds⟩ := hplace
        exact ⟨i, bytes, hframe _ (hmem _ rfl) _ _ hholds⟩

/-- One handler moves on: it keeps its files but for one on a path that was free, and the
files of the others are left alone. -/
theorem Inv.put {disk' : UploadDisk} (h : Inv init s) (hdisk : init.Extends disk')
    (hsound : Sound init disk' v) (hown : v.places.Nodup)
    (hplaces : ∀ path ∈ v.places,
      (∃ u, s.uploads k = some u ∧ path ∈ u.places) ∨ s.disk.inode path = none)
    (hframe : ∀ k' u, k' ≠ k → s.uploads k' = some u → ∀ path ∈ u.places, ∀ i bytes,
      init.Holds s.disk path i bytes → init.Holds disk' path i bytes) :
    Inv init ({ s with disk := disk' }.put k v) := by
  have hput : ∀ k' u, (({ s with disk := disk' } : System).put k v).uploads k' = some u →
      k' = k ∧ u = v ∨ k' ≠ k ∧ s.uploads k' = some u := fun k' u hu => by
    rw [System.put_uploads] at hu
    split at hu
    · next hk => exact .inl ⟨hk, (Option.some.inj hu).symm⟩
    · next hk => exact .inr ⟨hk, hu⟩
  -- what another handler holds is no path of this one
  have hothers : ∀ k' u, k' ≠ k → s.uploads k' = some u → ∀ path ∈ v.places, path ∉ u.places := by
    intro k' u hk hu path hpath hpath'
    rcases hplaces path hpath with ⟨u₀, hu₀, hmem⟩ | hfree
    · exact h.apart k u₀ k' u hu₀ hu (Ne.symm hk) path hmem hpath'
    · obtain ⟨i, bytes, hholds⟩ := (h.sound k' u hu).holds hpath'
      exact Disk.ne_of_free hholds.inode hfree rfl
  refine ⟨hdisk, fun k' u hu => ?_, fun k' u hu => ?_, fun k' u k'' u' hu hu' hne => ?_⟩
  · rcases hput k' u hu with ⟨-, rfl⟩ | ⟨hk, hold⟩
    · exact hsound
    · exact (h.sound k' u hold).frame (hframe k' u hk hold)
  · rcases hput k' u hu with ⟨-, rfl⟩ | ⟨hk, hold⟩
    · exact hown
    · exact h.own k' u hold
  · rcases hput k' u hu with ⟨rfl, rfl⟩ | ⟨hk, hold⟩
    · rcases hput k'' u' hu' with ⟨rfl, -⟩ | ⟨hk', hold'⟩
      · exact absurd rfl hne
      · exact hothers k'' u' hk' hold'
    · rcases hput k'' u' hu' with ⟨rfl, rfl⟩ | ⟨hk', hold'⟩
      · exact fun path hpath hpath' => hothers k' u hk hold path hpath' hpath
      · exact h.apart k' u k'' u' hold hold' hne

/-- A handler moves on with the files it has, and the disk is as it was. -/
theorem Inv.put_same (h : Inv init s) (hu : s.uploads k = some u) (hsound : Sound init s.disk v)
    (hplaces : v.places = u.places) : Inv init (s.put k v) := by
  refine h.put h.disk hsound (hplaces ▸ h.own k u hu) (fun path hpath => ?_)
    fun _ _ _ _ _ _ _ _ hholds => hholds
  exact .inl ⟨u, hu, hplaces ▸ hpath⟩

theorem next_sound (hparts : u.saved.map Prod.fst ++ u.rest = u.files)
    (hsaved : ∀ part ∈ u.saved, ∃ i, init.Holds disk part.2 i part.1.content) :
    Sound init disk u.next := by
  refine ⟨hparts, fun hfinished => ?_, hsaved, ?_⟩
  · by_cases hrest : u.rest = []
    · exact hrest
    · simp [Upload.next, hrest, Phase.Finished] at hfinished
  · rw [Upload.next]
    dsimp only
    split <;> trivial

theorem next_places : u.next.places = u.saved.map Prod.snd := by
  rw [Upload.places, Upload.next]
  dsimp only
  split <;> simp [Phase.place]

theorem keep_sound {file : HttpUploadedFile} {rest : List HttpUploadedFile} {i : Nat}
    (h : Sound init disk u) (hrest : u.rest = file :: rest)
    (hholds : init.Holds disk path i file.content) : Sound init disk (u.keep file rest path) := by
  refine next_sound ?_ ?_
  · have hparts := h.parts
    rw [hrest] at hparts
    simpa using hparts
  · intro part hpart
    rcases List.mem_append.mp hpart with hold | hnew
    · exact h.saved part hold
    · cases List.mem_singleton.mp hnew
      exact ⟨i, hholds⟩

theorem keep_places {file : HttpUploadedFile} {rest : List HttpUploadedFile} :
    (u.keep file rest path).places = u.saved.map Prod.snd ++ [path] := by
  rw [Upload.keep, next_places, List.map_append]
  rfl

theorem check_inv (h : Inv init s) (hu : s.uploads k = some u) (hst : s.check k u = some t) :
    Inv init t := by
  have hsound := h.sound k u hu
  unfold System.check at hst
  split at hst
  · next n file rest hphase hrest =>
    cases hst
    refine h.put_same hu ⟨hsound.parts, fun hfinished => ?_, hsound.saved, ?_⟩ ?_
    · dsimp only at hfinished
      split at hfinished <;> exact hfinished.elim
    · dsimp only
      split <;> trivial
    · rw [Upload.places, Upload.places, hphase]
      dsimp only
      split <;> rfl
  · next target name n _ hphase =>
    cases hst
    have hplace := hsound.place
    rw [hphase] at hplace
    refine h.put_same hu ⟨hsound.parts, fun hfinished => ?_, hsound.saved, ?_⟩ ?_
    · dsimp only at hfinished
      split at hfinished <;> exact hfinished.elim
    · dsimp only
      split <;> exact hplace
    · rw [Upload.places, Upload.places, hphase]
      dsimp only
      split <;> rfl
  · cases hst

theorem openFile_inv {opened : Bool} (h : Inv init s) (hu : s.uploads k = some u)
    (hfree : opened = true → ∀ target, u.phase = .opening target → s.disk.inode target = none)
    (hst : s.openFile k u opened = some t) : Inv init t := by
  have hsound := h.sound k u hu
  unfold System.openFile at hst
  split at hst
  · next target hphase =>
    have hplaces : u.places = u.saved.map Prod.snd := by
      rw [Upload.places, hphase, Phase.place, Option.toList_none, List.append_nil]
    split at hst
    · next hopened =>
      have hfree := hfree hopened.1 target hphase
      rw [Disk.openTruncate_of_free hfree] at hst
      cases hst
      refine h.put (h.disk.create hfree)
        ⟨hsound.parts, fun hfinished => hfinished.elim, fun part hpart => ?_, h.disk.holds_created⟩
        ?_ (fun path hpath => ?_) fun k' u' _ hu' path hpath i bytes hholds => hholds.create hfree
      · obtain ⟨i, hholds⟩ := hsound.saved part hpart
        exact ⟨i, hholds.create hfree⟩
      · refine List.nodup_append.mpr ⟨hplaces ▸ h.own k u hu, List.nodup_singleton _, ?_⟩
        intro path hpath path' hpath' heq
        obtain ⟨i, bytes, hholds⟩ := hsound.holds (hplaces ▸ hpath)
        exact Disk.ne_of_free hholds.inode hfree (heq.trans (List.mem_singleton.mp hpath'))
      · rcases List.mem_append.mp hpath with hold | hnew
        · exact .inl ⟨u, hu, hplaces ▸ hold⟩
        · cases List.mem_singleton.mp hnew
          exact .inr hfree
    · cases hst
      refine h.put_same hu ⟨hsound.parts, fun hfinished => ?_, hsound.saved, trivial⟩ ?_
      · exact absurd hfinished (by decide : ¬(500 : Int) = 200)
      · rw [hplaces]
        exact List.append_nil _
  · cases hst

/-- The handler writes to the file it has opened, and keeps its files. -/
theorem Inv.put_write {target : Bytes} {inode : Nat} (h : Inv init s) (hu : s.uploads k = some u)
    (hphase : u.phase = .writing target inode) (bytes : Bytes) (hplaces : v.places = u.places)
    (hsound : (∀ part ∈ u.saved, ∃ i, init.Holds (s.disk.write inode bytes) part.2 i part.1.content) →
      init.Holds (s.disk.write inode bytes) target inode bytes →
      Sound init (s.disk.write inode bytes) v) :
    Inv init ({ s with disk := s.disk.write inode bytes }.put k v) := by
  have hold := h.sound k u hu
  have htarget : init.Holds s.disk target inode [] := by
    have hplace := hold.place
    rwa [hphase] at hplace
  have hmem : target ∈ u.places := mem_places_of_place (by rw [hphase]; rfl)
  have hframe : ∀ path, path ≠ target → ∀ i content, init.Holds s.disk path i content →
      init.Holds (s.disk.write inode bytes) path i content :=
    fun path hne i content hholds => hholds.write h.disk htarget hne bytes
  refine h.put (h.disk.write htarget.later bytes) (hsound (fun part hpart => ?_)
    (htarget.written bytes)) (hplaces ▸ h.own k u hu)
    (fun path hpath => .inl ⟨u, hu, hplaces ▸ hpath⟩) fun k' u' hk hu' path hpath => ?_
  · obtain ⟨i, hholds⟩ := hold.saved part hpart
    refine ⟨i, hframe _ ?_ _ _ hholds⟩
    have hnodup := h.own k u hu
    rw [Upload.places, hphase] at hnodup
    exact (List.nodup_append.mp hnodup).2.2 _ (List.mem_map.mpr ⟨part, hpart, rfl⟩) _
      (List.mem_singleton_self target)
  · refine hframe path ?_
    rintro rfl
    exact h.apart k' u' k u hu' hu hk path hpath hmem

theorem writeFile_inv {outcome : WriteOutcome} (h : Inv init s) (hu : s.uploads k = some u)
    (hkept : ∀ bytes, outcome ≠ .lost bytes) (hst : s.writeFile k u outcome = some t) :
    Inv init t := by
  have hold := h.sound k u hu
  unfold System.writeFile at hst
  split at hst
  · next target inode file rest hphase hrest =>
    have hplaces : u.places = u.saved.map Prod.snd ++ [target] := by
      rw [Upload.places, hphase]
      rfl
    cases outcome with
    | notOpened => cases hst
    | lost bytes => exact absurd rfl (hkept bytes)
    | failed bytes =>
      cases hst
      refine h.put_write hu hphase bytes hplaces.symm fun hsaved hwritten =>
        ⟨hold.parts, fun hfinished => ?_, hsaved, inode, bytes, hwritten⟩
      exact absurd hfinished (by decide : ¬(500 : Int) = 200)
    | written =>
      cases hst
      rw [if_neg (by decide)]
      split
      · exact h.put_write hu hphase file.content hplaces.symm fun hsaved hwritten =>
          ⟨hold.parts, fun hfinished => hfinished.elim, hsaved, file, rest, inode, hrest, hwritten⟩
      · refine h.put_write hu hphase file.content (keep_places.trans hplaces.symm)
          fun hsaved hwritten => next_sound ?_ fun part hpart => ?_
        · have hparts := hold.parts
          rw [hrest] at hparts
          simpa using hparts
        · rcases List.mem_append.mp hpart with hpart | hnew
          · exact hsaved part hpart
          · cases List.mem_singleton.mp hnew
            exact ⟨inode, hwritten⟩
  · cases hst

theorem readTags_inv {moment : Moment ι} (h : Inv init s) (hu : s.uploads k = some u)
    (hst : s.readTags k u moment = some t) : Inv init t := by
  have hsound := h.sound k u hu
  have hplace := hsound.place
  unfold System.readTags at hst
  split at hst
  · next target file rest hphase hrest =>
    cases hst
    rw [hphase] at hplace
    split
    · obtain ⟨file', rest', i, hrest', hholds⟩ := hplace
      cases hrest.symm.trans hrest'
      refine h.put_same hu (keep_sound hsound hrest hholds) ?_
      rw [keep_places, Upload.places, hphase]
      rfl
    · refine h.put_same hu ⟨hsound.parts, fun hfinished => hfinished.elim, hsound.saved, hplace⟩ ?_
      rw [Upload.places, Upload.places, hphase]
      rfl
  · cases hst

/-- The handler gives its file a name that was free. -/
theorem Inv.put_move {target tagBased : Bytes} {file : HttpUploadedFile}
    {rest : List HttpUploadedFile} {i : Nat} (h : Inv init s) (hu : s.uploads k = some u)
    (hphase : u.phase = .moving target tagBased) (hrest : u.rest = file :: rest)
    (hholds : init.Holds s.disk target i file.content) (hfree : s.disk.inode tagBased = none) :
    Inv init ({ s with disk := s.disk.move target tagBased i hholds.inode }.put k
      (u.keep file rest tagBased)) := by
  have hsound := h.sound k u hu
  have hmem : target ∈ u.places := mem_places_of_place (by rw [hphase]; rfl)
  have hnodup := h.own k u hu
  rw [Upload.places, hphase] at hnodup
  have hapart := (List.nodup_append.mp hnodup).2.2
  refine h.put (h.disk.move hholds hfree) (next_sound ?_ fun part hpart => ?_) ?_
    (fun path hpath => ?_) fun k' u' hk hu' path hpath j content hholds' => ?_
  · have hparts := hsound.parts
    rw [hrest] at hparts
    simpa using hparts
  · rcases List.mem_append.mp hpart with hold | hnew
    · obtain ⟨j, hholds'⟩ := hsound.saved part hold
      have hne := hapart _ (List.mem_map.mpr ⟨part, hold, rfl⟩) _ (List.mem_singleton_self target)
      exact ⟨j, hholds'.move hholds.inode hne hfree⟩
    · cases List.mem_singleton.mp hnew
      exact ⟨i, hholds.moved⟩
  · rw [keep_places]
    refine List.nodup_append.mpr ⟨(List.nodup_append.mp hnodup).1, List.nodup_singleton _, ?_⟩
    intro path hpath path' hpath' heq
    obtain ⟨j, bytes, hholds'⟩ := hsound.holds (List.mem_append_left _ hpath)
    exact Disk.ne_of_free hholds'.inode hfree (heq.trans (List.mem_singleton.mp hpath'))
  · rw [keep_places] at hpath
    rcases List.mem_append.mp hpath with hold | hnew
    · exact .inl ⟨u, hu, List.mem_append_left _ hold⟩
    · cases List.mem_singleton.mp hnew
      exact .inr hfree
  · refine hholds'.move hholds.inode ?_ hfree
    rintro rfl
    exact h.apart k' u' k u hu' hu hk path hpath hmem

theorem renameFile_inv {renamed : Bool} (h : Inv init s) (hu : s.uploads k = some u)
    (hfree : renamed = true → ∀ target tagBased, u.phase = .moving target tagBased →
      s.disk.inode tagBased = none)
    (hst : s.renameFile k u renamed = some t) : Inv init t := by
  have hsound := h.sound k u hu
  have hplace := hsound.place
  unfold System.renameFile at hst
  split at hst
  · next target tagBased file rest hphase hrest =>
    rw [hphase] at hplace
    obtain ⟨file', rest', i, hrest', hholds⟩ := hplace
    cases hrest.symm.trans hrest'
    split at hst
    · next disk hrename =>
      cases hst
      cases renamed with
      | false => cases hrename
      | true =>
        have hfree := hfree rfl target tagBased hphase
        obtain rfl := Disk.rename_of_free hholds.inode hfree hrename
        exact h.put_move hu hphase hrest hholds hfree
    · cases hst
      refine h.put_same hu (keep_sound hsound hrest hholds) ?_
      rw [keep_places, Upload.places, hphase]
      rfl
  · cases hst

theorem addFiles_inv {moment : Moment ι} (h : Inv init s) (hu : s.uploads k = some u)
    (hst : s.addFiles k u moment = some t) : Inv init t := by
  have hsound := h.sound k u hu
  unfold System.addFiles at hst
  split at hst
  · next status hphase _ =>
    cases hst
    have hrest := hsound.finished (by rw [hphase]; trivial)
    refine h.put_same hu ⟨hsound.parts, fun _ => hrest, hsound.saved, trivial⟩ ?_
    rw [Upload.places, Upload.places, hphase]
    rfl
  · cases hst

theorem enter_inv {folder : Bytes} {playlistId : PluginId} {files : List HttpUploadedFile}
    (h : Inv init s) (made : Bool) :
    Inv init ({ s with disk := if made then s.disk.makeDirectory folder else s.disk }.put k
      (.enter folder playlistId files)) := by
  have hplaces : (Upload.enter folder playlistId files).places = [] := next_places
  have hframe : ∀ {path i bytes}, init.Holds s.disk path i bytes →
      init.Holds (if made then s.disk.makeDirectory folder else s.disk) path i bytes := by
    intro path i bytes hholds
    cases made with
    | false => exact hholds
    | true => exact ⟨hholds.inode, hholds.later, hholds.content⟩
  refine h.put ?_ (next_sound rfl nofun) (hplaces ▸ List.nodup_nil) (fun path hpath => ?_)
    fun _ _ _ _ _ _ _ _ hholds => hframe hholds
  · cases made with
    | false => exact h.disk
    | true => exact ⟨h.disk.next_le, h.disk.kept, h.disk.content, h.disk.unshared⟩
  · rw [hplaces] at hpath
    cases hpath

theorem step_inv {a : Action ι} (h : Inv init s) (hkeeps : s.Keeps a)
    (hst : s.step a = some t) : Inv init t := by
  obtain ⟨hok, hlossless⟩ := hkeeps
  cases a with
  | enter k folder playlistId files made =>
    simp only [System.step] at hst
    split at hst
    · cases hst
    · split at hst <;> cases hst
      exact enter_inv h made
  | check k =>
    obtain ⟨u, hu, hst⟩ := Option.bind_eq_some_iff.mp hst
    exact check_inv h hu hst
  | openFile k opened =>
    obtain ⟨u, hu, hst⟩ := Option.bind_eq_some_iff.mp hst
    refine openFile_inv h hu (fun hopened target hphase => ?_) hst
    subst hopened
    simpa only [System.UsesFreeName, hu, Option.map_some, hphase] using hok
  | writeFile k outcome =>
    obtain ⟨u, hu, hst⟩ := Option.bind_eq_some_iff.mp hst
    refine writeFile_inv h hu (fun bytes hlost => ?_) hst
    subst hlost
    exact hlossless
  | readTags k moment =>
    obtain ⟨u, hu, hst⟩ := Option.bind_eq_some_iff.mp hst
    exact readTags_inv h hu hst
  | renameFile k renamed =>
    obtain ⟨u, hu, hst⟩ := Option.bind_eq_some_iff.mp hst
    refine renameFile_inv h hu (fun hrenamed target tagBased hphase => ?_) hst
    subst hrenamed
    simpa only [System.UsesFreeName, hu, Option.map_some, hphase] using hok
  | addFiles k moment =>
    obtain ⟨u, hu, hst⟩ := Option.bind_eq_some_iff.mp hst
    exact addFiles_inv h hu hst

theorem Inv.intact (h : Inv init s) : s.Intact init where
  kept path content hread := h.disk.read_kept hread
  complete k u left hu hphase := by
    have hsound := h.sound k u hu
    have hrest := hsound.finished (by rw [hphase]; rfl)
    have hparts := hsound.parts
    rw [hrest, List.append_nil] at hparts
    refine ⟨hparts, ?_⟩
    intro part hpart
    obtain ⟨i, hholds⟩ := hsound.saved part hpart
    exact hholds.read
  own := h.own
  apart := h.apart

end Steps

/-- **Concurrent uploads lose nothing** in a run in which no name is taken between the
question whether it is free and its use, and no write is lost when its stream is closed. -/
theorem uploads_intact {init : UploadDisk} {s : System}
    (h : ReachableBy (System.step : System → Action ι → Option System) System.Keeps
      { disk := init } s) : s.Intact init := by
  have hinit : Inv init { disk := init } := ⟨.refl, nofun, nofun, nofun⟩
  exact (h.invariant hinit step_inv).intact

/-! ## Two uploads of one name -/

def emptyDisk : UploadDisk where
  inode _ := none
  content _ := []
  next := 0
  directory _ := false
  inode_lt := nofun

def samplePart (content : String) : HttpUploadedFile where
  name := ascii "a.mp3"
  fileName := ascii "a.mp3"
  content := ascii content

/-- Handler `k` with one part. -/
def beginUpload (k : Nat) (content : String) : Action Unit :=
  .enter k (ascii "/m") 1 [samplePart content] false

def sampleStep : System → Action Unit → Option System := System.step

/-- Handler `k` has answered 200, and its part is in this file. -/
def Done (s : System) (k : Nat) (path : Bytes) : Prop :=
  (s.uploads k).map Upload.phase = some (.answered 200 none) ∧
    (s.uploads k).map Upload.places = some [path]

instance decidableDone (s : System) (k : Nat) (path : Bytes) : Decidable (Done s k path) :=
  inferInstanceAs (Decidable (_ ∧ _))

/-- A folder with a file `a.mp3`. -/
def oldDisk : UploadDisk := (emptyDisk.create (ascii "/m/a.mp3")).write 0 (ascii "old")

/-- The handlers ask in turn; each finds a name of its own. -/
def twoUploads : List (Action Unit) :=
  [beginUpload 0 "x", beginUpload 1 "y", .check 0, .check 1, .check 0, .openFile 0 true, .check 1,
    .check 1, .openFile 1 true, .writeFile 1 .written, .writeFile 0 .written,
    .addFiles 1 oneTrackMoment, .addFiles 0 oneTrackMoment]

/-- Both new files are there beside the old one. -/
theorem uploads_intact_sample :
    ∃ s, Reachable (guarded sampleStep System.Keeps) { disk := oldDisk } s ∧
      Done s 0 (ascii "/m/a (2).mp3") ∧ Done s 1 (ascii "/m/a (3).mp3") ∧
      s.disk.read (ascii "/m/a.mp3") = some (ascii "old") ∧ s.Intact oldDisk := by
  obtain ⟨s, hrun, hs⟩ := (Option.any_eq_true _ _).mp
    (show (run (guarded sampleStep System.Keeps) { disk := oldDisk } twoUploads).any
      (fun s => decide (Done s 0 (ascii "/m/a (2).mp3") ∧ Done s 1 (ascii "/m/a (3).mp3"))) = true by
        decide +kernel)
  obtain ⟨h₀, h₁⟩ := of_decide_eq_true hs
  have hintact := uploads_intact (.of_guarded ⟨twoUploads, hrun⟩)
  exact ⟨s, ⟨_, hrun⟩, h₀, h₁, hintact.kept _ _ (by decide +kernel), hintact⟩

/-- Two handlers are told that `a.mp3` is free; both write it, and both answer 200. -/
theorem name_taken_in_between :
    ∃ s, run sampleStep { disk := emptyDisk }
        [beginUpload 0 "x", beginUpload 1 "y", .check 0, .check 1, .openFile 0 true,
          .openFile 1 true, .writeFile 0 .written, .writeFile 1 .written, .addFiles 0 oneTrackMoment,
          .addFiles 1 oneTrackMoment] = some s ∧
      Done s 0 (ascii "/m/a.mp3") ∧ Done s 1 (ascii "/m/a.mp3") ∧
      s.disk.read (ascii "/m/a.mp3") = some (ascii "y") ∧ ¬s.Intact emptyDisk := by
  obtain ⟨s, hrun, hs⟩ := (Option.any_eq_true _ _).mp
    (show (run sampleStep { disk := emptyDisk }
      [beginUpload 0 "x", beginUpload 1 "y", .check 0, .check 1, .openFile 0 true,
        .openFile 1 true, .writeFile 0 .written, .writeFile 1 .written, .addFiles 0 oneTrackMoment,
        .addFiles 1 oneTrackMoment]).any
      (fun s => decide (Done s 0 (ascii "/m/a.mp3") ∧ Done s 1 (ascii "/m/a.mp3") ∧
        s.disk.read (ascii "/m/a.mp3") = some (ascii "y"))) = true by decide +kernel)
  obtain ⟨h₀, h₁, hread⟩ := of_decide_eq_true hs
  refine ⟨s, hrun, h₀, h₁, hread, ?_⟩
  intro hintact
  obtain ⟨u, hu, hplaces₀⟩ := Option.map_eq_some_iff.mp h₀.2
  obtain ⟨v, hv, hplaces₁⟩ := Option.map_eq_some_iff.mp h₁.2
  refine hintact.apart 0 u 1 v hu hv (by decide) (ascii "/m/a.mp3") ?_ ?_
  · rw [hplaces₀]
    exact List.mem_singleton_self _
  · rw [hplaces₁]
    exact List.mem_singleton_self _

example : (run sampleStep { disk := emptyDisk } [beginUpload 0 "x", .check 0, .openFile 0 true,
    .writeFile 0 (.lost []), .addFiles 0 oneTrackMoment]).any (fun s =>
      decide (Done s 0 (ascii "/m/a.mp3") ∧ s.disk.read (ascii "/m/a.mp3") = some [])) = true := by
  decide +kernel

end RemoteControl.ConcurrentUploads
