import RemoteControl.Upload.Path
import RemoteControl.Lib.Separated
import Mathlib.Data.List.Induction

/-!
# Canonical paths

A tree of files, folders and symbolic links as the operating system resolves names
in it, and `std::filesystem::weakly_canonical` over it (libstdc++ on Linux). A
path is absolute, and stands as the list of its components; an empty last one is a
trailing slash.
-/

namespace RemoteControl

namespace Path

def dotDot : Bytes := [dot, dot]

def splitSlash : Bytes → List Bytes
  | [] => [[]]
  | b :: bs =>
    if b = slash then [] :: splitSlash bs
    else
      match splitSlash bs with
      | [] => [[b]]
      | name :: names => (b :: name) :: names

/-- The components of a path, with an empty last one after a trailing slash. -/
def components (path : Bytes) : List Bytes :=
  (splitSlash path).dropLast.filter (· ≠ []) ++ [(splitSlash path).getLastD []]

/-- `operator/` with an absolute path on the left. -/
def join (folder : List Bytes) (path : Bytes) : List Bytes :=
  if path.head? = some slash then components path else folder ++ components path

/-- The path as a string. -/
def text (path : List Bytes) : Bytes := path.flatMap (slash :: ·)

/-- What the operating system sees of a path: its C string. -/
def cString : List Bytes → List Bytes
  | [] => []
  | name :: names =>
    if 0 ∈ name then [name.takeWhile (· ≠ 0)] else name :: cString names

/-- The loop of `lexically_normal`; a dot at the end leaves a trailing slash. -/
def normalLoop : List Bytes → List Bytes → List Bytes
  | here, [] => here
  | here, name :: names =>
    if name = [] ∨ name = [dot] then
      normalLoop (if names = [] ∧ here ≠ [] then here ++ [[]] else here) names
    else if name = dotDot then
      normalLoop (if names = [] ∧ here.dropLast ≠ [] then here.dropLast ++ [[]]
        else here.dropLast) names
    else normalLoop (here ++ [name]) names

def lexicallyNormal (path : List Bytes) : List Bytes := normalLoop [] path

/-- A name a folder can have an entry for. -/
structure PlainName (name : Bytes) : Prop where
  nonempty : name ≠ []
  not_dot : name ≠ [dot]
  not_dotDot : name ≠ dotDot
  no_slash : slash ∉ name
  no_nul : 0 ∉ name

end Path

open RemoteControl.Path

inductive Kind
  | file
  | folder
  | link (target : Bytes)
deriving DecidableEq

structure FileTree where
  node : List Bytes → Option Kind
  root : node [] = some .folder
  parent : ∀ {path name}, (node (path ++ [name])).isSome = true → node path = some .folder
  plain : ∀ {path name}, (node (path ++ [name])).isSome = true → PlainName name

/-- What a `stat` of a path finds: the canonical path, nothing, or an error. -/
inductive Status
  | found (path : List Bytes)
  | missing
  | failed
deriving DecidableEq

/-- One way along a path up to its end or to a link, with what is left to do there. -/
inductive Walk
  | found (path : List Bytes)
  | missing
  | redirect (here : List Bytes) (names : List Bytes)
deriving DecidableEq

namespace FileTree

variable (tree : FileTree)

def walk : List Bytes → List Bytes → Walk
  | here, [] => .found here
  | here, name :: names =>
    if name = [] ∨ name = [dot] then walk here names
    else if name = dotDot then walk here.dropLast names
    else
      match tree.node (here ++ [name]) with
      | none => .missing
      | some .folder => walk (here ++ [name]) names
      | some .file => if names = [] then .found (here ++ [name]) else .missing
      | some (.link target) =>
        .redirect (if target.head? = some slash then [] else here) (components target ++ names)

/-- Following at most `budget` links. -/
def resolve (budget : Nat) (here names : List Bytes) : Status :=
  match tree.walk here names with
  | .found path => .found path
  | .missing => .missing
  | .redirect here names =>
    match budget with
    | 0 => .failed
    | budget + 1 => resolve budget here names

/-- `stat` and `realpath`: the canonical path of what a path names. -/
def realpath (path : List Bytes) : Status := tree.resolve 40 [] (cString path)

/-- `is_regular_file`. -/
def isRegularFile (path : List Bytes) : Bool :=
  match tree.realpath path with
  | .found path => tree.node path = some .file
  | _ => false

/-- The loop that looks for the leading components that exist. -/
def leading : List Bytes → List Bytes → Option (List Bytes × List Bytes)
  | here, [] => some (here, [])
  | here, name :: names =>
    match tree.realpath (here ++ [name]) with
    | .found _ => leading (here ++ [name]) names
    | .missing => some (here, name :: names)
    | .failed => none

/-- `weakly_canonical`; `none` when it sets the error code. -/
def weaklyCanonical (path : List Bytes) : Option (List Bytes) :=
  match tree.realpath path with
  | .found path => some path
  | .failed => none
  | .missing =>
    (tree.leading [] path).bind fun (here, names) =>
      match tree.realpath here with
      | .found canonical => some (lexicallyNormal (canonical ++ names))
      | _ => none

end FileTree

/-! ## Components -/

section Components

variable {path name rest : Bytes} {names here : List Bytes}

theorem splitSlash_ne_nil (path : Bytes) : splitSlash path ≠ [] := by
  cases path with
  | nil => simp [splitSlash]
  | cons b bs =>
    unfold splitSlash
    split
    · simp
    · split <;> simp

theorem splitSlash_append (hname : slash ∉ name) (rest : Bytes) :
    splitSlash (name ++ slash :: rest) = name :: splitSlash rest := by
  induction name with
  | nil => simp [splitSlash]
  | cons b bs ih =>
    rw [List.mem_cons, not_or] at hname
    rw [List.cons_append, splitSlash, if_neg (Ne.symm hname.1), ih hname.2]

theorem components_append (hname : slash ∉ name) (hne : name ≠ []) (rest : Bytes) :
    components (name ++ slash :: rest) = name :: components rest := by
  obtain ⟨first, others, hsplit⟩ := List.exists_cons_of_ne_nil (splitSlash_ne_nil rest)
  unfold components
  rw [splitSlash_append hname, hsplit]
  simp [hne]

theorem slash_notMem_splitSlash : ∀ {path name : Bytes}, name ∈ splitSlash path → slash ∉ name
  | [], name, h => by
    rw [splitSlash, List.mem_singleton] at h
    rw [h]
    exact List.not_mem_nil
  | b :: bs, name, h => by
    rw [splitSlash] at h
    split at h
    · rcases List.mem_cons.mp h with rfl | h
      · exact List.not_mem_nil
      · exact slash_notMem_splitSlash h
    · next hb =>
      obtain ⟨first, others, hsplit⟩ := List.exists_cons_of_ne_nil (splitSlash_ne_nil bs)
      rw [hsplit] at h
      rcases List.mem_cons.mp h with rfl | h
      · have hfirst : slash ∉ first := slash_notMem_splitSlash (hsplit ▸ List.mem_cons_self)
        rw [List.mem_cons, not_or]
        exact ⟨Ne.symm hb, hfirst⟩
      · exact slash_notMem_splitSlash (hsplit ▸ List.mem_cons_of_mem first h)

theorem mem_components (h : name ∈ components path) : name ∈ splitSlash path ∨ name = [] := by
  unfold components at h
  rcases List.mem_append.mp h with h | h
  · exact .inl (List.dropLast_subset _ (List.mem_of_mem_filter h))
  · rw [List.mem_singleton, List.getLastD_eq_getLast?] at h
    cases hlast : (splitSlash path).getLast? with
    | none => rw [hlast] at h; exact .inr h
    | some last =>
      rw [hlast] at h
      exact .inl (h ▸ List.mem_of_getLast? hlast)

theorem slash_notMem_components (h : name ∈ components path) : slash ∉ name := by
  rcases mem_components h with h | rfl
  · exact slash_notMem_splitSlash h
  · exact List.not_mem_nil

/-- A component takes its bytes from the path. -/
theorem count_le_of_mem_splitSlash {b : UInt8} :
    ∀ {path name : Bytes}, name ∈ splitSlash path → name.count b ≤ path.count b
  | [], name, h => by
    rw [splitSlash, List.mem_singleton] at h
    rw [h]
  | c :: cs, name, h => by
    rw [splitSlash] at h
    split at h
    · rcases List.mem_cons.mp h with rfl | h
      · exact Nat.zero_le _
      · exact Nat.le_trans (count_le_of_mem_splitSlash h) List.count_le_count_cons
    · obtain ⟨first, others, hsplit⟩ := List.exists_cons_of_ne_nil (splitSlash_ne_nil cs)
      rw [hsplit] at h
      rcases List.mem_cons.mp h with rfl | h
      · have hfirst : first.count b ≤ cs.count b :=
          count_le_of_mem_splitSlash (hsplit ▸ List.mem_cons_self)
        rw [List.count_cons, List.count_cons]
        omega
      · exact Nat.le_trans (count_le_of_mem_splitSlash (hsplit ▸ List.mem_cons_of_mem first h))
          List.count_le_count_cons

theorem dotDot_notMem_components (hdots : path.count dot ≤ 1) : dotDot ∉ components path := by
  intro h
  rcases mem_components h with h | h
  · have := count_le_of_mem_splitSlash (b := dot) h
    have htwo : dotDot.count dot = 2 := rfl
    omega
  · cases h

theorem cString_append (hplain : ∀ name ∈ here, 0 ∉ name) (names : List Bytes) :
    cString (here ++ names) = here ++ cString names := by
  induction here with
  | nil => rfl
  | cons name here ih =>
    rw [List.cons_append, cString, if_neg (hplain name List.mem_cons_self),
      ih fun n hn => hplain n (List.mem_cons_of_mem name hn), List.cons_append]

theorem dropLast_cString_subset (names : List Bytes) : (cString names).dropLast ⊆ names := by
  induction names with
  | nil => exact List.nil_subset _
  | cons name names ih =>
    rw [cString]
    split
    · exact List.nil_subset _
    · cases hrest : cString names with
      | nil => exact List.nil_subset _
      | cons n ns =>
        rw [hrest] at ih
        exact List.cons_subset_cons name ih

theorem normalLoop_append (hplain : ∀ name ∈ names, PlainName name) (rest : List Bytes) :
    normalLoop here (names ++ rest) = normalLoop (here ++ names) rest := by
  induction names generalizing here with
  | nil => simp
  | cons name names ih =>
    have hname := hplain name List.mem_cons_self
    rw [List.cons_append, normalLoop, if_neg (not_or.mpr ⟨hname.nonempty, hname.not_dot⟩),
      if_neg hname.not_dotDot, ih fun n hn => hplain n (List.mem_cons_of_mem name hn),
      List.append_assoc]
    rfl

/-- Without a `..` the loop only goes down. -/
theorem normalLoop_grows (hnames : dotDot ∉ names) : here <+: normalLoop here names := by
  induction names generalizing here with
  | nil => exact List.prefix_rfl
  | cons name names ih =>
    rw [List.mem_cons, not_or] at hnames
    rw [normalLoop, if_neg (Ne.symm hnames.1)]
    split
    · split
      · exact (List.prefix_append here [[]]).trans (ih hnames.2)
      · exact ih hnames.2
    · exact (List.prefix_append here [name]).trans (ih hnames.2)

theorem dotDot_notMem_normalLoop (hhere : dotDot ∉ here) : dotDot ∉ normalLoop here names := by
  have hslash : ∀ {path : List Bytes}, dotDot ∉ path → dotDot ∉ path ++ [[]] := by
    intro path hpath h
    rcases List.mem_append.mp h with h | h
    · exact hpath h
    · cases List.mem_singleton.mp h
  induction names generalizing here with
  | nil => exact hhere
  | cons name names ih =>
    have hup : dotDot ∉ here.dropLast := fun h => hhere (List.dropLast_subset _ h)
    rw [normalLoop]
    split
    · split
      · exact ih (hslash hhere)
      · exact ih hhere
    · split
      · split
        · exact ih (hslash hup)
        · exact ih hup
      · next hname =>
        refine ih ?_
        intro h
        rcases List.mem_append.mp h with h | h
        · exact hhere h
        · exact hname (List.mem_singleton.mp h).symm

theorem mem_normalLoop {n : Bytes} (h : n ∈ normalLoop here names) :
    n ∈ here ∨ n ∈ names ∨ n = [] := by
  have hslash : ∀ {path : List Bytes}, n ∈ path ++ [[]] → n ∈ path ∨ n = [] := fun h =>
    (List.mem_append.mp h).imp_right List.mem_singleton.mp
  have hup : ∀ {path : List Bytes}, n ∈ path.dropLast → n ∈ path := fun h =>
    List.dropLast_subset _ h
  induction names generalizing here with
  | nil => exact .inl h
  | cons name names ih =>
    have hstep : ∀ {here' : List Bytes}, (n ∈ here' → n ∈ here ∨ n = name ∨ n = []) →
        n ∈ normalLoop here' names → n ∈ here ∨ n ∈ name :: names ∨ n = [] := by
      intro here' hhere hn
      rcases ih hn with hn | hn | hn
      · rcases hhere hn with hn | rfl | hn
        · exact .inl hn
        · exact .inr (.inl List.mem_cons_self)
        · exact .inr (.inr hn)
      · exact .inr (.inl (List.mem_cons_of_mem name hn))
      · exact .inr (.inr hn)
    rw [normalLoop] at h
    split at h
    · refine hstep (fun hn => ?_) h
      split at hn
      · exact (hslash hn).imp_right .inr
      · exact .inl hn
    · split at h
      · refine hstep (fun hn => ?_) h
        split at hn
        · exact (hslash hn).imp hup .inr
        · exact .inl (hup hn)
      · refine hstep (fun hn => ?_) h
        exact (List.mem_append.mp hn).imp_right fun hn => .inl (List.mem_singleton.mp hn)

/-- The string comparison with `folder/` finds the paths strictly below the folder. -/
theorem below_of_text_prefix {folder path : List Bytes} (hfolder : ∀ n ∈ folder, slash ∉ n)
    (hpath : ∀ n ∈ path, slash ∉ n) (h : text folder ++ [slash] <+: text path) :
    ∃ name names, path = folder ++ name :: names := by
  induction folder generalizing path with
  | nil =>
    cases path with
    | nil => cases List.prefix_nil.mp h
    | cons name names => exact ⟨name, names, rfl⟩
  | cons f folder ih =>
    cases path with
    | nil => cases List.prefix_nil.mp h
    | cons p path =>
      have hf := hfolder f List.mem_cons_self
      have hp := hpath p List.mem_cons_self
      obtain ⟨last, hlast⟩ := h
      obtain ⟨more, hmore⟩ : ∃ more, text folder ++ [slash] = slash :: more := by
        cases folder with
        | nil => exact ⟨[], rfl⟩
        | cons f' folder => exact ⟨f' ++ text folder ++ [slash], rfl⟩
      have htail : f ++ text folder ++ [slash] ++ last = p ++ text path :=
        List.tail_eq_of_cons_eq hlast
      have heq : f ++ slash :: (more ++ last) = p ++ text path := by
        rw [← htail, List.append_assoc f, hmore, List.append_assoc]
        rfl
      cases path with
      | nil =>
        rw [show text [] = [] from rfl, List.append_nil] at heq
        exact absurd (heq ▸ by simp) hp
      | cons p' path =>
        obtain ⟨rfl, hrest⟩ := (Separated.append_cons_inj_left hf hp).mp heq
        obtain ⟨name, names, hbelow⟩ := ih (fun n hn => hfolder n (List.mem_cons_of_mem f hn))
          (fun n hn => hpath n (List.mem_cons_of_mem f hn))
          ⟨last, by rw [hmore, List.cons_append, hrest]; rfl⟩
        exact ⟨name, names, by rw [hbelow]; rfl⟩

end Components

/-! ## Walking the tree -/

namespace FileTree

section Walk

variable {tree : FileTree} {here path names : List Bytes} {name : Bytes}

theorem folder_of_append (h : (tree.node (here ++ names)).isSome = true) (hne : names ≠ []) :
    tree.node here = some .folder := by
  induction names using List.reverseRecOn with
  | nil => exact absurd rfl hne
  | append_singleton names n ih =>
    rw [← List.append_assoc] at h
    have hparent := tree.parent h
    by_cases hnil : names = []
    · rwa [hnil, List.append_nil] at hparent
    · exact ih (by rw [hparent]; rfl) hnil

theorem plain_of_node (h : (tree.node path).isSome = true) : ∀ n ∈ path, PlainName n := by
  intro n hn
  obtain ⟨before, after, rfl⟩ := List.append_of_mem hn
  rw [List.append_cons] at h
  by_cases hnil : after = []
  · rw [hnil, List.append_nil] at h
    exact tree.plain h
  · exact tree.plain (by rw [folder_of_append h hnil]; rfl)

theorem cString_of_node (h : (tree.node path).isSome = true) : cString path = path := by
  have := cString_append (fun n hn => (plain_of_node h n hn).no_nul) []
  rwa [List.append_nil, cString, List.append_nil] at this

theorem folder_dropLast (h : tree.node path = some .folder) :
    tree.node path.dropLast = some .folder := by
  by_cases hnil : path = []
  · rw [hnil] at h ⊢
    exact h
  · rw [← List.dropLast_concat_getLast hnil] at h
    exact tree.parent (by rw [h]; rfl)

theorem walk_cons (hplain : PlainName name) :
    tree.walk here (name :: names) =
      match tree.node (here ++ [name]) with
      | none => .missing
      | some .folder => tree.walk (here ++ [name]) names
      | some .file => if names = [] then .found (here ++ [name]) else .missing
      | some (.link target) =>
        .redirect (if target.head? = some slash then [] else here)
          (components target ++ names) := by
  rw [walk, if_neg (not_or.mpr ⟨hplain.nonempty, hplain.not_dot⟩), if_neg hplain.not_dotDot]

/-- Folders are walked through. -/
theorem walk_append (h : tree.node (here ++ names) = some .folder) (rest : List Bytes) :
    tree.walk here (names ++ rest) = tree.walk (here ++ names) rest := by
  induction names generalizing here with
  | nil => simp
  | cons name names ih =>
    rw [List.append_cons] at h ⊢
    have hname : tree.node (here ++ [name]) = some .folder := by
      by_cases hnil : names = []
      · rwa [hnil, List.append_nil] at h
      · exact folder_of_append (by rw [h]; rfl) hnil
    rw [List.cons_append, walk_cons (tree.plain (by rw [hname]; rfl)), hname]
    exact ih h

theorem walk_from_root (h : tree.node path = some .folder) (rest : List Bytes) :
    tree.walk [] (path ++ rest) = tree.walk path rest := by
  have hpath : tree.node ([] ++ path) = some .folder := h
  exact walk_append hpath rest

theorem walk_folder (h : tree.node path = some .folder) : tree.walk [] path = .found path := by
  have hwalk := walk_from_root h []
  rwa [List.append_nil] at hwalk

theorem walk_file (h : tree.node path = some .file) : tree.walk [] path = .found path := by
  have hne : path ≠ [] := by
    rintro rfl
    rw [tree.root] at h
    cases h
  have hlast := List.dropLast_concat_getLast hne
  have hnode : (tree.node (path.dropLast ++ [path.getLast hne])).isSome = true := by
    rw [hlast, h]
    rfl
  rw [← hlast, walk_from_root (tree.parent hnode), walk_cons (tree.plain hnode), hlast, h]
  rfl

/-- What a walk ends at is there, and no link. -/
theorem node_of_walk (hhere : tree.node here = some .folder)
    (h : tree.walk here names = .found path) :
    tree.node path = some .file ∨ tree.node path = some .folder := by
  induction names generalizing here with
  | nil =>
    cases h
    exact .inr hhere
  | cons name names ih =>
    rw [walk] at h
    split at h
    · exact ih hhere h
    · split at h
      · exact ih (folder_dropLast hhere) h
      · split at h
        · cases h
        · next hnode => exact ih hnode h
        · next hnode =>
          split at h <;> cases h
          exact .inl hnode
        · cases h

theorem folder_of_redirect {here' names' : List Bytes} (hhere : tree.node here = some .folder)
    (h : tree.walk here names = .redirect here' names') : tree.node here' = some .folder := by
  induction names generalizing here with
  | nil => cases h
  | cons name names ih =>
    rw [walk] at h
    split at h
    · exact ih hhere h
    · split at h
      · exact ih (folder_dropLast hhere) h
      · split at h
        · cases h
        · next hnode => exact ih hnode h
        · split at h <;> cases h
        · cases h
          split
          · exact tree.root
          · exact hhere

/-- Below a folder without links, and without a `..` before the end, a walk ends below it
or at a folder. -/
theorem walk_below {root : List Bytes}
    (hlinks : ∀ rest target, tree.node (root ++ rest) ≠ some (.link target))
    (hhere : tree.node here = some .folder) (hroot : root <+: here)
    (hnames : dotDot ∉ names.dropLast) (h : tree.walk here names = .found path)
    (hfile : tree.node path = some .file) : root <+: path := by
  induction names generalizing here with
  | nil => cases h; exact hroot
  | cons name names ih =>
    have hrest : dotDot ∉ names.dropLast := by
      cases names with
      | nil => exact List.not_mem_nil
      | cons n ns => exact fun hm => hnames (List.mem_cons_of_mem name hm)
    rw [walk] at h
    split at h
    · exact ih hhere hroot hrest h
    · split at h
      · next hdots =>
        cases names with
        | nil =>
          cases h
          rw [folder_dropLast hhere] at hfile
          cases hfile
        | cons n ns => exact absurd (hdots ▸ List.mem_cons_self) hnames
      · split at h
        · cases h
        · next hnode => exact ih hnode (hroot.trans (List.prefix_append _ _)) hrest h
        · split at h <;> cases h
          exact hroot.trans (List.prefix_append _ _)
        · next target hnode =>
          obtain ⟨rest, rfl⟩ := hroot
          rw [List.append_assoc] at hnode
          exact absurd hnode (hlinks _ _)

/-- Nor does it meet a link. -/
theorem walk_ne_redirect {root names' here' : List Bytes}
    (hlinks : ∀ rest target, tree.node (root ++ rest) ≠ some (.link target))
    (hroot : root <+: here) (hnames : dotDot ∉ names.dropLast) :
    tree.walk here names ≠ .redirect here' names' := by
  intro h
  induction names generalizing here with
  | nil => cases h
  | cons name names ih =>
    have hrest : dotDot ∉ names.dropLast := by
      cases names with
      | nil => exact List.not_mem_nil
      | cons n ns => exact fun hm => hnames (List.mem_cons_of_mem name hm)
    rw [walk] at h
    split at h
    · exact ih hroot hrest h
    · split at h
      · next hdots =>
        cases names with
        | nil => cases h
        | cons n ns => exact absurd (hdots ▸ List.mem_cons_self) hnames
      · split at h
        · cases h
        · exact ih (hroot.trans (List.prefix_append _ _)) hrest h
        · split at h <;> cases h
        · next target hnode =>
          obtain ⟨rest, rfl⟩ := hroot
          rw [List.append_assoc] at hnode
          exact absurd hnode (hlinks _ _)

end Walk

/-! ## Canonical paths -/

section Canonical

variable {tree : FileTree} {here path names root : List Bytes} {name : Bytes}

theorem resolve_of_found {budget : Nat} (h : tree.walk here names = .found path) :
    tree.resolve budget here names = .found path := by
  unfold resolve
  rw [h]

theorem resolve_of_missing {budget : Nat} (h : tree.walk here names = .missing) :
    tree.resolve budget here names = .missing := by
  unfold resolve
  rw [h]

theorem realpath_folder (h : tree.node path = some .folder) : tree.realpath path = .found path := by
  rw [realpath, cString_of_node (by rw [h]; rfl)]
  exact resolve_of_found (walk_folder h)

theorem realpath_file (h : tree.node path = some .file) : tree.realpath path = .found path := by
  rw [realpath, cString_of_node (by rw [h]; rfl)]
  exact resolve_of_found (walk_file h)

/-- Nothing is found through a name a folder has no entry for. -/
theorem realpath_missing (hroot : tree.node root = some .folder)
    (hmissing : tree.node (root ++ [name]) = none) (hname : PlainName name) (names : List Bytes) :
    tree.realpath (root ++ name :: names) = .missing := by
  have hplain := plain_of_node (by rw [hroot]; rfl)
  rw [realpath, cString_append (fun n hn => (hplain n hn).no_nul), cString, if_neg hname.no_nul]
  refine resolve_of_missing ?_
  rw [walk_from_root hroot, walk_cons hname, hmissing]

theorem node_of_resolve {budget : Nat} (hhere : tree.node here = some .folder)
    (h : tree.resolve budget here names = .found path) :
    tree.node path = some .file ∨ tree.node path = some .folder := by
  induction budget generalizing here names with
  | zero =>
    unfold resolve at h
    split at h
    · next hwalk =>
      cases h
      exact node_of_walk hhere hwalk
    · cases h
    · cases h
  | succ budget ih =>
    unfold resolve at h
    split at h
    · next hwalk =>
      cases h
      exact node_of_walk hhere hwalk
    · cases h
    · next hwalk => exact ih (folder_of_redirect hhere hwalk) h

theorem node_of_realpath {p : List Bytes} (h : tree.realpath p = .found path) :
    tree.node path = some .file ∨ tree.node path = some .folder :=
  node_of_resolve tree.root h

theorem realpath_realpath {p : List Bytes} (h : tree.realpath p = .found path) :
    tree.realpath path = .found path := by
  rcases node_of_realpath h with hnode | hnode
  · exact realpath_file hnode
  · exact realpath_folder hnode

theorem leading_of_folder (hroot : tree.node (here ++ path) = some .folder)
    (hmissing : tree.node (here ++ path ++ [name]) = none) (hname : PlainName name)
    (names : List Bytes) :
    tree.leading here (path ++ name :: names) = some (here ++ path, name :: names) := by
  induction path generalizing here with
  | nil =>
    rw [List.append_nil] at hroot hmissing ⊢
    rw [List.nil_append]
    unfold leading
    rw [realpath_missing hroot hmissing hname]
  | cons n path ih =>
    rw [List.append_cons here n path] at hroot hmissing ⊢
    have hn : tree.node (here ++ [n]) = some .folder := by
      by_cases hnil : path = []
      · rwa [hnil, List.append_nil] at hroot
      · exact folder_of_append (by rw [hroot]; rfl) hnil
    rw [List.cons_append]
    unfold leading
    rw [realpath_folder hn]
    exact ih hroot hmissing

/-- A path through a name the folder has no entry for names no file, not even after
`weakly_canonical` has taken it apart. -/
theorem not_regular_of_missing {target : List Bytes} (hroot : tree.node root = some .folder)
    (hmissing : tree.node (root ++ [name]) = none) (hname : PlainName name)
    (hdots : dotDot ∉ names) (h : tree.weaklyCanonical (root ++ name :: names) = some target) :
    tree.isRegularFile target = false := by
  have hplain := plain_of_node (by rw [hroot]; rfl)
  rw [weaklyCanonical, realpath_missing hroot hmissing hname] at h
  have hroot' : tree.node ([] ++ root) = some .folder := hroot
  simp only [leading_of_folder hroot' hmissing hname, List.nil_append, Option.bind_some,
    realpath_folder hroot, Option.some.injEq] at h
  obtain ⟨more, hmore⟩ : root ++ [name] <+: target := by
    rw [← h, lexicallyNormal, normalLoop_append hplain, List.nil_append, normalLoop,
      if_neg (not_or.mpr ⟨hname.nonempty, hname.not_dot⟩), if_neg hname.not_dotDot]
    exact normalLoop_grows hdots
  rw [← hmore, List.append_assoc, isRegularFile, List.singleton_append,
    realpath_missing hroot hmissing hname]

theorem mem_of_leading {rest : List Bytes} (h : tree.leading here names = some (path, rest)) :
    rest ⊆ names := by
  induction names generalizing here with
  | nil =>
    cases h
    exact List.Subset.refl _
  | cons n names ih =>
    rw [leading] at h
    split at h
    · exact List.Subset.trans (ih h) (List.subset_cons_self n names)
    · cases h
      exact List.Subset.refl _
    · cases h

/-- The components of a canonical path are names, but for a trailing slash. -/
theorem canonical_components {p target : List Bytes} (hp : ∀ n ∈ p, slash ∉ n)
    (h : tree.weaklyCanonical p = some target) :
    dotDot ∉ target ∧ ∀ n ∈ target, slash ∉ n := by
  have hfound : ∀ {q path : List Bytes}, tree.realpath q = .found path →
      dotDot ∉ path ∧ ∀ n ∈ path, slash ∉ n := by
    intro q path hq
    have hnode : (tree.node path).isSome = true := by
      rcases node_of_realpath hq with hnode | hnode <;> rw [hnode] <;> rfl
    have hplain := plain_of_node hnode
    exact ⟨fun hm => (hplain _ hm).not_dotDot rfl, fun n hn => (hplain n hn).no_slash⟩
  rw [weaklyCanonical] at h
  split at h
  · next hq =>
    cases h
    exact hfound hq
  · cases h
  · obtain ⟨⟨start, rest⟩, hleading, h⟩ := Option.bind_eq_some_iff.mp h
    dsimp only at h
    split at h
    · next canonical hcanonical =>
      cases h
      have ⟨hdots, hslash⟩ := hfound hcanonical
      have hnode : (tree.node canonical).isSome = true := by
        rcases node_of_realpath hcanonical with hnode | hnode <;> rw [hnode] <;> rfl
      rw [lexicallyNormal, normalLoop_append (plain_of_node hnode)]
      refine ⟨dotDot_notMem_normalLoop hdots, ?_⟩
      intro n hn
      rcases mem_normalLoop hn with hn | hn | rfl
      · exact hslash n hn
      · exact hp n (mem_of_leading hleading hn)
      · exact List.not_mem_nil
    · cases h

/-- **A regular file whose path starts with the folder's lies strictly below the folder**, when
there are no links there. -/
theorem file_below {target : List Bytes} (hroot : tree.node root = some .folder)
    (hlinks : ∀ rest target, tree.node (root ++ rest) ≠ some (.link target))
    (hdots : dotDot ∉ target) (hslash : ∀ n ∈ target, slash ∉ n)
    (hbelow : text root ++ [slash] <+: text target) (hregular : tree.isRegularFile target = true) :
    ∃ rest, rest ≠ [] ∧ tree.realpath target = .found (root ++ rest) ∧
      tree.node (root ++ rest) = some .file := by
  have hplain := plain_of_node (by rw [hroot]; rfl)
  obtain ⟨n, ns, rfl⟩ := below_of_text_prefix (fun m hm => (hplain m hm).no_slash) hslash hbelow
  have hwalk : tree.realpath (root ++ n :: ns) = tree.resolve 40 root (cString (n :: ns)) := by
    rw [realpath, cString_append (fun m hm => (hplain m hm).no_nul)]
    unfold resolve
    rw [walk_from_root hroot]
  have hnames : dotDot ∉ (cString (n :: ns)).dropLast := fun hm =>
    hdots (List.mem_append_right root (dropLast_cString_subset _ hm))
  rw [isRegularFile] at hregular
  split at hregular
  · next path hpath =>
    have hfile : tree.node path = some .file := of_decide_eq_true hregular
    have hprefix : root <+: path := by
      have hfound := hpath
      rw [hwalk] at hfound
      unfold resolve at hfound
      split at hfound
      · next hfound' =>
        cases hfound
        exact walk_below hlinks hroot List.prefix_rfl hnames hfound' hfile
      · cases hfound
      · next hredirect =>
        exact absurd hredirect (walk_ne_redirect hlinks List.prefix_rfl hnames)
    obtain ⟨rest, rfl⟩ := hprefix
    refine ⟨rest, ?_, hpath, hfile⟩
    rintro rfl
    rw [List.append_nil, hroot] at hfile
    cases hfile
  · cases hregular

end Canonical

end FileTree

end RemoteControl
