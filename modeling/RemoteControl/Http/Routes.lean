import RemoteControl.Http.Message

/-!
# Routes

The path patterns of the HTTP endpoints and how `httplib` finds the handler of a
request. A pattern matches a whole path. Its numbers are followed by no digit, so
that matching them greedily is what the regular expression does.
-/

namespace RemoteControl.Http

/-- A part of a path pattern. -/
inductive Piece
  | text (s : Bytes)
  /-- `\d+`, or `-?\d+` when signed; captured when it stands in a group. -/
  | number (signed captured : Bool)
  | oneOf (alternatives : List Bytes)
deriving DecidableEq

def stripPrefix (s path : Bytes) : Option Bytes :=
  if s.isPrefixOf path then some (path.drop s.length) else none

/-- The length of what `-?\d+` or `\d+` matches at the start of the path, if it does. -/
def numberLength (signed : Bool) (path : Bytes) : Option Nat :=
  let sign := if signed = true ∧ path.head? = some 45 then 1 else 0
  let digits := (path.drop sign).takeWhile isDigit
  if digits = [] then none else some (sign + digits.length)

/-- `std::regex_match`, with the captured groups. -/
def matchPieces : List Piece → Bytes → Option (List Bytes)
  | [], path => if path = [] then some [] else none
  | .text s :: pieces, path => (stripPrefix s path).bind (matchPieces pieces)
  | .number signed captured :: pieces, path =>
    (numberLength signed path).bind fun n =>
      (matchPieces pieces (path.drop n)).map fun groups =>
        if captured then path.take n :: groups else groups
  | .oneOf alternatives :: pieces, path =>
    alternatives.findSome? fun s => (stripPrefix s path).bind (matchPieces pieces)

/-! ## The endpoints -/

inductive Endpoint
  | rpcJson
  | albumCover
  | downloadTrack
  | uploadTrack
deriving DecidableEq

def rpcPattern : List Piece := [.text (ascii "/RPC_JSON")]

/-- `/album_covers_cache/cover_0_(N)_NxN_N\.(?:png|jpg|gif)`, with `N` for `\d+`. -/
def coverPattern : List Piece :=
  [.text (ascii "/album_covers_cache/cover_0_"), .number false true, .text (ascii "_"),
    .number false false, .text (ascii "x"), .number false false, .text (ascii "_"),
    .number false false, .text (ascii "."),
    .oneOf [ascii "png", ascii "jpg", ascii "gif"]]

/-- `/downloadTrack/playlist_id/N/track_id/(N)`, with `N` for `-?\d+`. -/
def downloadPattern : List Piece :=
  [.text (ascii "/downloadTrack/playlist_id/"), .number true false, .text (ascii "/track_id/"),
    .number true true]

/-- `/uploadTrack/playlist_id/(N)`, with `N` for `-?\d+`. -/
def uploadPattern : List Piece := [.text (ascii "/uploadTrack/playlist_id/"), .number true true]

def getRoutes : List (List Piece × Endpoint) :=
  [(coverPattern, .albumCover), (downloadPattern, .downloadTrack)]

def postRoutes : List (List Piece × Endpoint) :=
  [(rpcPattern, .rpcJson), (uploadPattern, .uploadTrack)]

def route (routes : List (List Piece × Endpoint)) (path : Bytes) :
    Option (Endpoint × List Bytes) :=
  routes.findSome? fun (pattern, endpoint) =>
    (matchPieces pattern path).map fun groups => (endpoint, groups)

/-- The handler `httplib` finds for a request, with the groups of its path. -/
def dispatch (req : Request) : Option (Endpoint × List Bytes) :=
  if req.method = ascii "GET" ∨ req.method = ascii "HEAD" then route getRoutes req.path
  else if req.method = ascii "POST" then route postRoutes req.path
  else none

example : route getRoutes (ascii "/downloadTrack/playlist_id/-7/track_id/12") =
    some (.downloadTrack, [ascii "12"]) := by decide

/-! ## What a pattern matches -/

section Matching

variable {s path rest : Bytes} {pieces : List Piece} {groups : List Bytes} {b : UInt8}

theorem stripPrefix_eq_some : stripPrefix s path = some rest ↔ path = s ++ rest := by
  unfold stripPrefix
  split
  · next h =>
    obtain ⟨more, rfl⟩ := List.isPrefixOf_iff_prefix.mp h
    simp [eq_comm]
  · next h =>
    refine ⟨nofun, fun hpath => absurd ?_ h⟩
    exact List.isPrefixOf_iff_prefix.mpr ⟨rest, hpath.symm⟩

theorem matchPieces_text :
    matchPieces (.text s :: pieces) path = some groups ↔
      ∃ rest, path = s ++ rest ∧ matchPieces pieces rest = some groups := by
  rw [matchPieces, Option.bind_eq_some_iff]
  simp only [stripPrefix_eq_some]

/-- A number is an optional sign and digits. -/
theorem numberLength_eq_some {signed : Bool} {n : Nat} (h : numberLength signed path = some n) :
    ∃ sign digits, path.take n = sign ++ digits ∧ (sign = [] ∨ signed = true ∧ sign = [45]) ∧
      digits ≠ [] ∧ ∀ d ∈ digits, isDigit d = true := by
  have htake : ∀ xs : Bytes, xs.take (xs.takeWhile isDigit).length = xs.takeWhile isDigit :=
    fun xs => List.prefix_iff_eq_take.mp (List.takeWhile_prefix _) |>.symm
  unfold numberLength at h
  by_cases hsign : signed = true ∧ path.head? = some 45
  · rw [if_pos hsign] at h
    obtain ⟨more, rfl⟩ : ∃ more, path = 45 :: more := by
      cases path with
      | nil => cases hsign.2
      | cons c cs => cases hsign.2; exact ⟨cs, rfl⟩
    dsimp only [List.drop_one, List.tail_cons] at h
    split at h <;> cases h
    next hdigits =>
      refine ⟨[45], _, ?_, .inr ⟨hsign.1, rfl⟩, hdigits, fun d hd => List.mem_takeWhile_imp hd⟩
      rw [Nat.add_comm, List.take_succ_cons]
      exact congrArg (45 :: ·) (htake more)
  · rw [if_neg hsign] at h
    dsimp only [List.drop_zero] at h
    split at h <;> cases h
    next hdigits =>
      refine ⟨[], _, ?_, .inl rfl, hdigits, fun d hd => List.mem_takeWhile_imp hd⟩
      rw [Nat.zero_add]
      exact htake path

/-- The most bytes `b`, no digit and no minus, in a path that a pattern matches. -/
def most (b : UInt8) : List Piece → Nat
  | [] => 0
  | .text s :: pieces => s.count b + most b pieces
  | .number _ _ :: pieces => most b pieces
  | .oneOf alternatives :: pieces =>
    (alternatives.map (·.count b)).foldr max 0 + most b pieces

theorem count_le_foldr_max {alternatives : List Bytes} (h : s ∈ alternatives) :
    s.count b ≤ (alternatives.map (·.count b)).foldr max 0 := by
  induction alternatives with
  | nil => cases h
  | cons first others ih =>
    rw [List.map_cons, List.foldr_cons]
    rcases List.mem_cons.mp h with rfl | h
    · exact Nat.le_max_left _ _
    · exact Nat.le_trans (ih h) (Nat.le_max_right _ _)

theorem count_take_number {signed : Bool} {n : Nat} (hminus : b ≠ 45) (hdigit : isDigit b = false)
    (h : numberLength signed path = some n) : (path.take n).count b = 0 := by
  obtain ⟨sign, digits, htake, hsign, -, hdigits⟩ := numberLength_eq_some h
  rw [htake, List.count_eq_zero]
  intro hb
  rcases List.mem_append.mp hb with hb | hb
  · rcases hsign with rfl | ⟨-, rfl⟩
    · cases hb
    · exact hminus (List.mem_singleton.mp hb)
  · rw [hdigits b hb] at hdigit
    cases hdigit

theorem count_le_most (hminus : b ≠ 45) (hdigit : isDigit b = false)
    (h : matchPieces pieces path = some groups) : path.count b ≤ most b pieces := by
  induction pieces generalizing path groups with
  | nil =>
    rw [matchPieces] at h
    split at h
    · next hnil => rw [hnil]; exact Nat.zero_le _
    · cases h
  | cons piece pieces ih =>
    cases piece with
    | text s =>
      obtain ⟨rest, rfl, hrest⟩ := matchPieces_text.mp h
      rw [List.count_append, most]
      have := ih hrest
      omega
    | number signed captured =>
      obtain ⟨n, hn, hrest⟩ := Option.bind_eq_some_iff.mp h
      obtain ⟨groups', hrest, -⟩ := Option.map_eq_some_iff.mp hrest
      have hcount := count_take_number hminus hdigit hn
      have hpath : path.count b = (path.take n).count b + (path.drop n).count b := by
        rw [← List.count_append, List.take_append_drop]
      have := ih hrest
      rw [most]
      omega
    | oneOf alternatives =>
      obtain ⟨s, hs, hrest⟩ := List.exists_of_findSome?_eq_some h
      obtain ⟨rest, hstrip, hrest⟩ := Option.bind_eq_some_iff.mp hrest
      rw [stripPrefix_eq_some.mp hstrip, List.count_append, most]
      have hmax : s.count b ≤ (alternatives.map (·.count b)).foldr max 0 := count_le_foldr_max hs
      have := ih hrest
      omega

theorem mem_of_route {routes : List (List Piece × Endpoint)} {endpoint : Endpoint}
    (h : route routes path = some (endpoint, groups)) :
    ∃ pattern, (pattern, endpoint) ∈ routes ∧ matchPieces pattern path = some groups := by
  obtain ⟨⟨pattern, endpoint'⟩, hmem, hmatch⟩ := List.exists_of_findSome?_eq_some h
  obtain ⟨groups', hmatch, heq⟩ := Option.map_eq_some_iff.mp hmatch
  cases heq
  exact ⟨pattern, hmem, hmatch⟩

end Matching

end RemoteControl.Http
