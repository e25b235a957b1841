import RemoteControl.Http.Routes
import RemoteControl.Http.FileTree
import RemoteControl.Auth.Soundness

/-!
# The pre-routing handler

Every request passes the pre-routing handler before a route is looked for: static
files are let through without credentials, too large bodies are refused, and the
rest is authenticated. The first test looks a path up in the file tree and the
routes match it with patterns; no path passes both (`not_static_of_route`), so that
no handler runs unauthenticated (`handlers_run_authorized`).
-/

namespace RemoteControl.Http

open RemoteControl.Path

/-- `MaxJsonPayload`. -/
def maxJsonPayload : Nat := 16 * 1024 * 1024

/-- `std::strtoull` in base 10, without the end pointer. -/
def strtoull (s : Bytes) : Nat :=
  let (negative, rest) := takeSign (s.dropWhile isSpace)
  let n := digitsValue (rest.takeWhile isDigit)
  if 2 ^ 64 ≤ n then 2 ^ 64 - 1 else if negative then (2 ^ 64 - n) % 2 ^ 64 else n

def isUploadRequest (req : Request) : Bool :=
  req.method = ascii "POST" && (matchPieces uploadPattern req.path).isSome

/-- `is_chunked_transfer_encoding`. -/
def isChunked (req : Request) : Bool :=
  ((req.header? (ascii "Transfer-Encoding")).getD []).map toLower = ascii "chunked"

def payloadTooLarge (req : Request) : Bool :=
  if isChunked req then true
  else
    match req.header? (ascii "Content-Length") with
    | some value => maxJsonPayload < strtoull value
    | none => false

/-- The path below the root that a request for a static file names. -/
def staticPath (req : Request) : Bytes :=
  (if req.path = ascii "/" then ascii "/index.html" else req.path).drop 1

def isStaticFileRequest (tree : FileTree) (wwwRoot : List Bytes) (req : Request) : Bool :=
  if req.method ≠ ascii "GET" ∧ req.method ≠ ascii "HEAD" then false
  else
    match tree.weaklyCanonical wwwRoot with
    | none => false
    | some root =>
      match tree.weaklyCanonical (join root (staticPath req)) with
      | none => false
      | some target =>
        tree.isRegularFile target && (text root ++ [slash]).isPrefixOf (text target)

inductive HandlerResponse
  | handled
  | unhandled
deriving DecidableEq

section Handlers

variable (tree : FileTree) (wwwRoot : List Bytes) (md5Hex : Bytes → Bytes)
  (parse : Bytes → Bytes → Option Bytes) (reads : DigestAuthenticator.Reads)

/-- The handler set with `set_pre_routing_handler`. -/
def preRouting (req : Request) (res : Response) : HandlerResponse × Response :=
  if isStaticFileRequest tree wwwRoot req then (.unhandled, res)
  else if !isUploadRequest req && payloadTooLarge req then (.handled, { res with status := 413 })
  else
    let (authorized, res) := DigestAuthenticator.authorize md5Hex parse reads req res
    (if authorized then .unhandled else .handled, res)

/-- The handler that runs for a request, when neither the pre-routing handler nor the
mounted folder has answered it. -/
def handlerFor (mounted : Request → Bool) (req : Request) (res : Response) :
    Option (Endpoint × List Bytes) :=
  match (preRouting tree wwwRoot md5Hex parse reads req res).1 with
  | .handled => none
  | .unhandled => if mounted req then none else dispatch req

end Handlers

/-! ## Static files and routes -/

/-- The folders that the paths of the GET and upload routes start with. -/
def routeNames : List Bytes :=
  [ascii "downloadTrack", ascii "uploadTrack", ascii "album_covers_cache"]

/-- The web root is a folder that exists, without links, and none of its entries is named
like a route. Names compare byte by byte, as on Linux. -/
structure ServesPlain (tree : FileTree) (wwwRoot root : List Bytes) : Prop where
  realpath : tree.realpath wwwRoot = .found root
  folder : tree.node root = some .folder
  noLinks : ∀ rest target, tree.node (root ++ rest) ≠ some (.link target)
  noRouteNames : ∀ name ∈ routeNames, tree.node (root ++ [name]) = none

section Static

variable {tree : FileTree} {wwwRoot root : List Bytes} {req : Request} {endpoint : Endpoint}
  {groups : List Bytes}

theorem ServesPlain.weaklyCanonical (h : ServesPlain tree wwwRoot root) :
    tree.weaklyCanonical wwwRoot = some root := by
  rw [FileTree.weaklyCanonical, h.realpath]

/-- The path of a GET route starts with a route's folder, and has one dot at most. -/
theorem getRoute_shape {pattern : List Piece} (h : (pattern, endpoint) ∈ getRoutes) :
    ∃ name ∈ routeNames, PlainName name ∧ most dot pattern ≤ 1 ∧
      ∃ s pieces, pattern = .text (slash :: name ++ slash :: s) :: pieces := by
  simp only [getRoutes, List.mem_cons, Prod.mk.injEq, List.not_mem_nil, or_false] at h
  rcases h with ⟨rfl, -⟩ | ⟨rfl, -⟩
  · exact ⟨ascii "album_covers_cache", by decide, ⟨by decide, by decide, by decide, by decide,
      by decide⟩, by decide, ascii "cover_0_", _, rfl⟩
  · exact ⟨ascii "downloadTrack", by decide, ⟨by decide, by decide, by decide, by decide,
      by decide⟩, by decide, ascii "playlist_id/", _, rfl⟩

/-- A path that a GET route matches names no static file. -/
theorem not_static_of_route (h : ServesPlain tree wwwRoot root)
    (hroute : route getRoutes req.path = some (endpoint, groups)) :
    isStaticFileRequest tree wwwRoot req = false := by
  obtain ⟨pattern, hmem, hmatch⟩ := mem_of_route hroute
  obtain ⟨name, hname, hplain, hmost, s, pieces, rfl⟩ := getRoute_shape hmem
  have hdots : req.path.count dot ≤ 1 :=
    Nat.le_trans (count_le_most (by decide) (by decide) hmatch) hmost
  obtain ⟨rest, hpath, -⟩ := matchPieces_text.mp hmatch
  have hpath' : req.path = slash :: (name ++ slash :: (s ++ rest)) := by
    rw [hpath]
    simp
  have hstatic : staticPath req = name ++ slash :: (s ++ rest) := by
    have hne : req.path ≠ ascii "/" := by
      rw [hpath']
      exact fun heq => absurd (List.tail_eq_of_cons_eq heq) (by simp)
    rw [staticPath, if_neg hne, hpath']
    rfl
  have hjoin : join root (staticPath req) = root ++ name :: components (s ++ rest) := by
    have hhead : (name ++ slash :: (s ++ rest)).head? ≠ some slash := by
      obtain ⟨c, cs, rfl⟩ := List.exists_cons_of_ne_nil hplain.nonempty
      rintro ⟨⟩
      exact hplain.no_slash List.mem_cons_self
    rw [join, hstatic, if_neg hhead, components_append hplain.no_slash hplain.nonempty]
  have hdots' : dotDot ∉ components (s ++ rest) := by
    have hsuffix : s ++ rest <:+ req.path := ⟨slash :: name ++ [slash], by rw [hpath']; simp⟩
    exact dotDot_notMem_components (Nat.le_trans (hsuffix.sublist.count_le dot) hdots)
  unfold isStaticFileRequest
  split
  · rfl
  · rw [h.weaklyCanonical]
    dsimp only
    rw [hjoin]
    split
    · rfl
    · next target htarget =>
      rw [FileTree.not_regular_of_missing h.folder (h.noRouteNames name hname) hplain hdots' htarget,
        Bool.false_and]

theorem authorized_of_dispatch (h : ServesPlain tree wwwRoot root) (md5Hex : Bytes → Bytes)
    (parse : Bytes → Bytes → Option Bytes) (reads : DigestAuthenticator.Reads)
    (mounted : Request → Bool) {res : Response}
    (hrun : handlerFor tree wwwRoot md5Hex parse reads mounted req res = some (endpoint, groups)) :
    (DigestAuthenticator.authorize md5Hex parse reads req res).1 = true := by
  have hdispatch : (preRouting tree wwwRoot md5Hex parse reads req res).1 = .unhandled ∧
      dispatch req = some (endpoint, groups) := by
    unfold handlerFor at hrun
    split at hrun
    · cases hrun
    · next hunhandled =>
      split at hrun
      · cases hrun
      · exact ⟨hunhandled, hrun⟩
  have hstatic : isStaticFileRequest tree wwwRoot req = false := by
    have hroute := hdispatch.2
    unfold dispatch at hroute
    split at hroute
    · exact not_static_of_route h hroute
    · next hmethod =>
      rw [not_or] at hmethod
      rw [isStaticFileRequest, if_pos hmethod]
  have hpre := hdispatch.1
  rw [preRouting, hstatic, if_neg (by decide)] at hpre
  split at hpre
  · cases hpre
  · dsimp only at hpre
    split at hpre
    · assumption
    · cases hpre

/-- **No handler runs unauthenticated**: a request reaches the JSON-RPC handler, a GET
handler or an upload handler only when `Authorize` has accepted it; and the file that a
request is let through for without credentials lies strictly below the web root. -/
theorem handlers_run_authorized (h : ServesPlain tree wwwRoot root) (md5Hex : Bytes → Bytes)
    (parse : Bytes → Bytes → Option Bytes) (reads : DigestAuthenticator.Reads)
    (mounted : Request → Bool) (req : Request) (res : Response) :
    (∀ endpoint groups,
      handlerFor tree wwwRoot md5Hex parse reads mounted req res = some (endpoint, groups) →
        (DigestAuthenticator.authorize md5Hex parse reads req res).1 = true) ∧
    (isStaticFileRequest tree wwwRoot req = true →
      ∃ target rest, tree.weaklyCanonical (join root (staticPath req)) = some target ∧
        rest ≠ [] ∧ tree.realpath target = .found (root ++ rest) ∧
        tree.node (root ++ rest) = some .file ∧
        ∀ file, tree.realpath (join root (staticPath req)) = .found file → file = root ++ rest) := by
  refine ⟨fun endpoint groups hrun => authorized_of_dispatch h md5Hex parse reads mounted hrun,
    fun hstatic => ?_⟩
  unfold isStaticFileRequest at hstatic
  split at hstatic
  · cases hstatic
  · rw [h.weaklyCanonical] at hstatic
    dsimp only at hstatic
    split at hstatic
    · cases hstatic
    · next target htarget =>
      rw [Bool.and_eq_true, List.isPrefixOf_iff_prefix] at hstatic
      have hjoin : ∀ n ∈ join root (staticPath req), slash ∉ n := by
        intro n hn
        unfold join at hn
        split at hn
        · exact slash_notMem_components hn
        · rcases List.mem_append.mp hn with hn | hn
          · exact (FileTree.plain_of_node (by rw [h.folder]; rfl) n hn).no_slash
          · exact slash_notMem_components hn
      have ⟨hdots, hslash⟩ := FileTree.canonical_components hjoin htarget
      obtain ⟨rest, hrest, hfound, hfile⟩ :=
        FileTree.file_below h.folder h.noLinks hdots hslash hstatic.2 hstatic.1
      refine ⟨target, rest, htarget, hrest, hfound, hfile, ?_⟩
      intro file hreal
      have htarget' : target = file := by
        rw [FileTree.weaklyCanonical, hreal] at htarget
        exact (Option.some.inj htarget).symm
      rw [htarget', FileTree.realpath_realpath hreal] at hfound
      cases hfound
      rfl

end Static

/-- A web root with one file. -/
def sampleNode (path : List Bytes) : Option Kind :=
  if path = [] ∨ path = [ascii "www"] then some .folder
  else if path = [ascii "www", ascii "index.html"] then some .file
  else none

theorem sampleNode_concat {path : List Bytes} {name : Bytes}
    (h : (sampleNode (path ++ [name])).isSome = true) :
    path = [] ∧ name = ascii "www" ∨ path = [ascii "www"] ∧ name = ascii "index.html" := by
  unfold sampleNode at h
  split at h
  · next hfolder =>
    rcases hfolder with hnil | hwww
    · simp at hnil
    · have hwww : path ++ [name] = [] ++ [ascii "www"] := hwww
      exact .inl ((List.append_inj' hwww rfl).imp_right List.singleton_inj.mp)
  · split at h
    · next hindex =>
      have hindex : path ++ [name] = [ascii "www"] ++ [ascii "index.html"] := hindex
      exact .inr ((List.append_inj' hindex rfl).imp_right List.singleton_inj.mp)
    · cases h

def sampleTree : FileTree where
  node := sampleNode
  root := rfl
  parent h := by rcases sampleNode_concat h with ⟨rfl, -⟩ | ⟨rfl, -⟩ <;> rfl
  plain h := by
    rcases sampleNode_concat h with ⟨-, rfl⟩ | ⟨-, rfl⟩ <;>
      exact ⟨by decide, by decide, by decide, by decide, by decide⟩

theorem sampleTree_servesPlain : ServesPlain sampleTree [ascii "www"] [ascii "www"] where
  realpath := by decide
  folder := rfl
  noLinks rest target h := by
    unfold sampleTree sampleNode at h
    dsimp only at h
    split at h
    · cases h
    · split at h <;> cases h
  noRouteNames := by decide

open DigestAuthenticator in
/-- A signed request reaches its handler; the start page is let through without credentials,
and it lies below the root. -/
theorem handlers_run_authorized_sample :
    (handlerFor sampleTree [ascii "www"] sampleMd5 sampleFields
        (.steady sampleSettings 1700000600 1700000600) (fun _ => false) sampleRequest {} =
          some (.downloadTrack, [ascii "7"]) ∧
      (authorize sampleMd5 sampleFields (.steady sampleSettings 1700000600 1700000600)
        sampleRequest {}).1 = true) ∧
    ∃ target rest,
      sampleTree.weaklyCanonical (join [ascii "www"] (ascii "index.html")) = some target ∧
      rest ≠ [] ∧ sampleTree.realpath target = .found ([ascii "www"] ++ rest) := by
  have hsigned := handlers_run_authorized sampleTree_servesPlain sampleMd5 sampleFields
    (.steady sampleSettings 1700000600 1700000600) (fun _ => false) sampleRequest {}
  have hstart := handlers_run_authorized sampleTree_servesPlain sampleMd5 sampleFields
    (.steady sampleSettings 0 0) (fun _ => false) ⟨ascii "GET", ascii "/", ascii "/", []⟩ {}
  have hrun : handlerFor sampleTree [ascii "www"] sampleMd5 sampleFields
      (.steady sampleSettings 1700000600 1700000600) (fun _ => false) sampleRequest {} =
        some (.downloadTrack, [ascii "7"]) := by decide +kernel
  obtain ⟨target, rest, htarget, hrest, hfound, -⟩ := hstart.2 (by decide)
  exact ⟨⟨hrun, hsigned.1 _ _ hrun⟩, target, rest, htarget, hrest, hfound⟩

end RemoteControl.Http
