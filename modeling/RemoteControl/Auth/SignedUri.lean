import RemoteControl.Auth.Soundness
import RemoteControl.Upload.Path

/-!
# The signed uri

`RequestPathOf` looks for `://` where the URI grammar would be parsed.

* `requestPathOf_origin_iff`: a target in origin form is read as it is unless it holds `://`.
* `requestPathOf_absolute_iff`: of one in absolute form the path is found unless it is empty
  and the query holds a slash.
* `signed_uri_iff`: both, and for which targets a signed header opens its own target only.
-/

namespace RemoteControl

open RemoteControl.Path (slash)

/-! ## Finding -/

section Find

variable {pattern s t : Bytes} {pos i : Nat}

theorem findFrom_ge (h : findFrom pattern s pos = some i) : pos ≤ i := by
  induction pos generalizing s i with
  | zero => exact Nat.zero_le i
  | succ pos ih =>
    cases s with
    | nil => cases h
    | cons b s =>
      obtain ⟨j, hj, rfl⟩ := Option.map_eq_some_iff.mp h
      exact Nat.succ_le_succ (ih hj)

theorem findFrom_drop (h : pos ≤ s.length) :
    findFrom pattern s pos = (findFrom pattern (s.drop pos) 0).map (· + pos) := by
  induction pos generalizing s with
  | zero =>
    rw [List.drop_zero]
    exact Option.map_id'.symm
  | succ pos ih =>
    cases s with
    | nil => cases h
    | cons b s =>
      rw [findFrom, ih (Nat.le_of_succ_le_succ h), Option.map_map]
      rfl

theorem findFrom_eq_none (hne : pattern ≠ []) :
    findFrom pattern s 0 = none ↔ ¬pattern <:+: s := by
  induction s with
  | nil => simp [findFrom, hne]
  | cons b s ih =>
    rw [findFrom, List.infix_cons_iff, not_or, ← ih, ← List.isPrefixOf_iff_prefix]
    cases pattern.isPrefixOf (b :: s) <;> simp

/-- The first occurrence, after a text without the first byte of what is looked for. -/
theorem findFrom_append {c : UInt8} (hc : c ∉ s) :
    findFrom (c :: pattern) (s ++ (c :: pattern) ++ t) 0 = some s.length := by
  induction s with
  | nil =>
    have hprefix : (c :: pattern).isPrefixOf (c :: (pattern ++ t)) = true :=
      List.isPrefixOf_iff_prefix.mpr (List.prefix_append (c :: pattern) t)
    rw [List.nil_append, List.cons_append, findFrom, if_pos hprefix]
    rfl
  | cons b s ih =>
    have hb : c ≠ b := fun heq => hc (heq ▸ List.mem_cons_self)
    rw [List.cons_append, List.cons_append, findFrom, ih (List.not_mem_of_not_mem_cons hc)]
    simp [List.isPrefixOf, hb]

theorem findFrom_eq_none_of_notMem {c : UInt8} (hc : c ∉ s) : findFrom [c] s 0 = none := by
  refine (findFrom_eq_none (List.cons_ne_nil c [])).mpr ?_
  intro h
  exact hc (h.subset List.mem_cons_self)

end Find

/-! ## Request targets -/

def isAlpha (b : UInt8) : Bool := (65 ≤ b && b ≤ 90) || (97 ≤ b && b ≤ 122)

def isHex (b : UInt8) : Bool := isDigit b || (65 ≤ b && b ≤ 70) || (97 ≤ b && b ≤ 102)

/-- `unreserved` and `sub-delims`; 39 is the apostrophe. -/
def isNameChar (b : UInt8) : Bool :=
  isAlpha b || isDigit b || b ∈ ascii "-._~" || b ∈ ascii "!$&()*+,;=" || b = 39

/-- Characters and percent-encoded bytes. -/
def isUriText (ok : UInt8 → Bool) : Bytes → Bool
  | [] => true
  | [b] => ok b
  | [b, c] => ok b && ok c
  | b :: c :: d :: s =>
    if b = 37 then isHex c && isHex d && isUriText ok s else ok b && isUriText ok (c :: d :: s)

/-- `pchar` and the slash between segments. -/
def isPathChar (b : UInt8) : Bool := isNameChar b || b ∈ ascii ":@/"

def isQueryChar (b : UInt8) : Bool := isPathChar b || b = 63

def isAuthorityChar (b : UInt8) : Bool := isNameChar b || b ∈ ascii ":@[]"

def isSchemeChar (b : UInt8) : Bool := isAlpha b || isDigit b || b ∈ ascii "+-."

/-- `[ "?" query ]`. -/
def queryText : Option Bytes → Bytes
  | none => []
  | some query => 63 :: query

/-- `1*( "/" segment ) [ "?" query ]`. -/
structure OriginForm where
  path : Bytes
  query : Option Bytes := none
  path_rooted : path.head? = some slash
  path_text : isUriText isPathChar path = true
  query_text : ∀ q ∈ query, isUriText isQueryChar q = true

def OriginForm.text (target : OriginForm) : Bytes := target.path ++ queryText target.query

/-- `scheme "://" authority path-abempty [ "?" query ]`. -/
structure AbsoluteForm where
  scheme : Bytes
  authority : Bytes
  path : Bytes
  query : Option Bytes := none
  scheme_text : ∀ b ∈ scheme, isSchemeChar b = true
  authority_text : isUriText isAuthorityChar authority = true
  path_rooted : path = [] ∨ path.head? = some slash
  path_text : isUriText isPathChar path = true
  query_text : ∀ q ∈ query, isUriText isQueryChar q = true

def AbsoluteForm.text (uri : AbsoluteForm) : Bytes :=
  uri.scheme ++ ascii "://" ++ (uri.authority ++ (uri.path ++ queryText uri.query))

/-- What a server is asked for: everything from the path on, or `/` without one. -/
def AbsoluteForm.requestPath (uri : AbsoluteForm) : Bytes :=
  if uri.path = [] then ascii "/" else uri.path ++ queryText uri.query

theorem mem_isUriText {ok : UInt8 → Bool} {s : Bytes} (h : isUriText ok s = true) :
    ∀ b ∈ s, ok b = true ∨ b = 37 ∨ isHex b = true := by
  fun_induction isUriText ok s with
  | case1 => intro b hb; cases hb
  | case2 b =>
    intro b' hb
    obtain rfl := List.mem_singleton.mp hb
    exact .inl h
  | case3 b c =>
    rw [Bool.and_eq_true] at h
    intro b' hb
    rcases List.mem_cons.mp hb with rfl | hb
    · exact .inl h.1
    · obtain rfl := List.mem_singleton.mp hb
      exact .inl h.2
  | case4 c d s ih =>
    rw [Bool.and_eq_true, Bool.and_eq_true] at h
    intro b hb
    simp only [List.mem_cons] at hb
    rcases hb with rfl | rfl | rfl | hb
    · exact .inr (.inl rfl)
    · exact .inr (.inr h.1.1)
    · exact .inr (.inr h.1.2)
    · exact ih h.2 b hb
  | case5 b c d s hb37 ih =>
    rw [Bool.and_eq_true] at h
    intro b' hb
    rcases List.mem_cons.mp hb with rfl | hb
    · exact .inl h.1
    · exact ih h.2 b' hb

theorem AbsoluteForm.slash_notMem_authority (uri : AbsoluteForm) : slash ∉ uri.authority := by
  intro h
  rcases mem_isUriText uri.authority_text slash h with h | h | h <;> revert h <;> decide

theorem AbsoluteForm.colon_notMem_scheme (uri : AbsoluteForm) : 58 ∉ uri.scheme := by
  intro h
  have := uri.scheme_text 58 h
  revert this
  decide

/-! ## RequestPathOf -/

/-- A string comes back unchanged exactly if it does not hold `://`. -/
theorem requestPathOf_eq_self_iff (digestUri : Bytes) :
    requestPathOf digestUri = digestUri ↔ ¬ascii "://" <:+: digestUri := by
  rw [← findFrom_eq_none (by decide), requestPathOf]
  cases hscheme : findFrom (ascii "://") digestUri 0 with
  | none => simp
  | some scheme =>
    refine iff_of_false ?_ (by simp)
    have hinfix : ascii "://" <:+: digestUri := by
      by_contra hnot
      rw [(findFrom_eq_none (by decide)).mpr hnot] at hscheme
      cases hscheme
    have hlength : 3 ≤ digestUri.length := hinfix.length_le
    dsimp only
    split
    · intro heq
      rw [← heq] at hlength
      revert hlength
      decide
    · next place hplace =>
      intro heq
      have hge := findFrom_ge hplace
      have hdrop := congrArg List.length heq
      rw [List.length_drop] at hdrop
      omega

/-- From the end of the authority on, the first slash decides. -/
theorem AbsoluteForm.requestPathOf_text (uri : AbsoluteForm) :
    requestPathOf uri.text =
      match findFrom (ascii "/") (uri.authority ++ (uri.path ++ queryText uri.query)) 0 with
      | none => ascii "/"
      | some place => (uri.authority ++ (uri.path ++ queryText uri.query)).drop place := by
  have hscheme : findFrom (ascii "://") uri.text 0 = some uri.scheme.length :=
    findFrom_append uri.colon_notMem_scheme
  have hlength : (uri.scheme ++ ascii "://").length = uri.scheme.length + 3 := by
    rw [List.length_append]
    rfl
  have hdrop : ∀ place, uri.text.drop (uri.scheme.length + 3 + place) =
      (uri.authority ++ (uri.path ++ queryText uri.query)).drop place := by
    intro place
    rw [← List.drop_drop, ← hlength, text, List.drop_left]
  rw [requestPathOf, hscheme]
  dsimp only
  have hle : uri.scheme.length + 3 ≤ uri.text.length := by
    rw [← hlength, text, @List.length_append _ (uri.scheme ++ ascii "://")]
    exact Nat.le_add_right _ _
  rw [findFrom_drop hle, show uri.text.drop (uri.scheme.length + 3) = _ from hdrop 0,
    List.drop_zero]
  cases findFrom (ascii "/") (uri.authority ++ (uri.path ++ queryText uri.query)) 0 with
  | none => rfl
  | some place =>
    dsimp only [Option.map_some]
    rw [Nat.add_comm place, hdrop]

theorem findFrom_slash {s t : Bytes} (h : slash ∉ s) :
    findFrom (ascii "/") (s ++ slash :: t) 0 = some s.length := by
  have hfind : findFrom [slash] (s ++ [slash] ++ t) 0 = some s.length := findFrom_append h
  rwa [List.append_assoc] at hfind

theorem slash_mem_dropLast_iff {s t : Bytes} (h : slash ∉ s) :
    slash ∈ (s ++ slash :: t).dropLast ↔ t ≠ [] := by
  rw [List.dropLast_append_of_ne_nil (List.cons_ne_nil _ _)]
  cases t with
  | nil => simpa using h
  | cons b t => simp

/-- The path and query of an absolute form, where it is not an empty path before a query with
a slash that is not its last byte. -/
def AbsoluteForm.Plain (uri : AbsoluteForm) : Prop :=
  uri.path ≠ [] ∨ ∀ q ∈ uri.query, slash ∉ q.dropLast

theorem requestPathOf_absolute_iff (uri : AbsoluteForm) :
    requestPathOf uri.text = uri.requestPath ↔ uri.Plain := by
  have hauthority := uri.slash_notMem_authority
  rw [uri.requestPathOf_text, AbsoluteForm.requestPath, AbsoluteForm.Plain]
  rcases uri.path_rooted with hpath | hpath
  · rw [hpath, List.nil_append, if_pos rfl]
    cases hquery : uri.query with
    | none =>
      have hnone : findFrom (ascii "/") uri.authority 0 = none :=
        findFrom_eq_none_of_notMem hauthority
      rw [queryText, List.append_nil, hnone]
      simp
    | some q =>
      simp only [queryText, ne_eq, not_true_eq_false, false_or, Option.mem_some_iff,
        forall_eq']
      by_cases hslash : slash ∈ q
      · obtain ⟨before, after, rfl, hbefore⟩ := List.eq_append_cons_of_mem hslash
        have hfront : slash ∉ uri.authority ++ 63 :: before := by
          simp only [List.mem_append, List.mem_cons, not_or]
          exact ⟨hauthority, by decide, hbefore⟩
        rw [show uri.authority ++ 63 :: (before ++ slash :: after) =
          (uri.authority ++ 63 :: before) ++ slash :: after by simp, findFrom_slash hfront,
          slash_mem_dropLast_iff hbefore]
        dsimp only
        rw [List.drop_left, not_not]
        exact List.cons_inj_right slash
      · have hnone : findFrom (ascii "/") (uri.authority ++ 63 :: q) 0 = none := by
          refine findFrom_eq_none_of_notMem ?_
          simp only [List.mem_append, List.mem_cons, not_or]
          exact ⟨hauthority, by decide, hslash⟩
        rw [hnone]
        exact iff_of_true rfl fun h => hslash (List.dropLast_subset q h)
  · obtain ⟨path, hpath⟩ := List.head?_eq_some_iff.mp hpath
    rw [hpath, List.cons_append, findFrom_slash hauthority, if_neg (List.cons_ne_nil _ _)]
    dsimp only
    rw [List.drop_left]
    simp

/-! ## Signed headers -/

namespace DigestAuthenticator

variable {md5Hex : Bytes → Bytes} {parse : Bytes → Bytes → Option Bytes} {settings : AuthSettings}
  {header method target : Bytes} {now : Int}

/-- The header of a client that signed this method and target with a nonce that is fresh `now`. -/
structure SignedHeader (md5Hex : Bytes → Bytes) (settings : AuthSettings)
    (field : String → Bytes) (method target : Bytes) (now : Int) : Prop where
  username : field "username" = settings.username
  realm : field "realm" = authRealm
  uri : field "uri" = target
  response : ∃ formula : Formula, formula.Announced field ∧
    field "response" = digestResponse md5Hex settings.ha1 (field "nonce") method target formula
  fresh : checkNonce md5Hex settings now (field "nonce") = .valid

section Targets

variable (md5Hex parse settings header method target now)

/-- The header opens its own target. -/
def OpensTarget : Prop :=
  ∀ req : Http.Request, req.header? (ascii "Authorization") = some header → req.method = method →
    (req.path = target ∨ req.target = target) → ∀ later res,
      (authorize md5Hex parse (.steady settings now later) req res).1 = true

/-- No header with a response computed for this method and target, whatever else it says, opens a
request whose path and target both differ. -/
def OpensNothingElse : Prop :=
  ∀ (req : Http.Request) (header' : Bytes), req.header? (ascii "Authorization") = some header' →
    58 ∉ req.method →
    (∃ nonce formula, fieldOf (parse header') "response" =
      digestResponse md5Hex settings.ha1 nonce method target formula) →
    ∀ now later res, (authorize md5Hex parse (.steady settings now later) req res).1 = true →
      req.path = target ∨ req.target = target

end Targets

/-- Who is let in has signed the request. -/
theorem credentials_of_authorize {reads : Reads} {req : Http.Request} {res : Http.Response}
    (hactive : reads.settings.isActive = true)
    (hheader : req.header? (ascii "Authorization") = some header)
    (h : (authorize md5Hex parse reads req res).1 = true) :
    Credentials md5Hex reads.settings req (fieldOf (parse header)) := by
  by_contra hnot
  rw [authorize_of_not_credentials hactive] at h
  · cases h
  · intro header' hheader'
    obtain rfl := Option.some.inj (hheader.symm.trans hheader')
    exact hnot

/-- A signed header is accepted for the request its uri is read as. -/
theorem SignedHeader.authorize_eq {req : Http.Request} {res : Http.Response} {later : Int}
    (h : SignedHeader md5Hex settings (fieldOf (parse header)) method target now)
    (hactive : settings.isActive = true)
    (hheader : req.header? (ascii "Authorization") = some header) (hmethod : req.method = method)
    (huri : requestPathOf target = req.path ∨ requestPathOf target = req.target) :
    (authorize md5Hex parse (.steady settings now later) req res).1 = true := by
  have hcredentials : Credentials md5Hex settings req (fieldOf (parse header)) :=
    ⟨h.username, h.realm, by rw [h.uri]; exact huri, by rw [hmethod, h.uri]; exact h.response⟩
  have hactive' : (Reads.steady settings now later).settings.isActive = true := hactive
  rw [authorize_of_credentials hactive' hheader hcredentials]
  simp only [Reads.steady, h.fresh]

/-- The request with this target as its path. -/
def requestFor (method target header : Bytes) : Http.Request where
  method := method
  path := target
  target := target
  headers := [(ascii "Authorization", header)]

theorem requestFor_header : (requestFor method target header).header? (ascii "Authorization") =
    some header := rfl

theorem opensTarget_iff (hactive : settings.isActive = true)
    (h : SignedHeader md5Hex settings (fieldOf (parse header)) method target now) :
    OpensTarget md5Hex parse settings header method target now ↔
      requestPathOf target = target := by
  constructor
  · intro hopens
    have haccepted := hopens (requestFor method target header) requestFor_header rfl (.inl rfl) 0 {}
    have hactive' : (Reads.steady settings now 0).settings.isActive = true := hactive
    have hcredentials := credentials_of_authorize hactive' requestFor_header haccepted
    have huri := hcredentials.uri
    rw [h.uri] at huri
    exact huri.elim (fun h => h) fun h => h
  · intro hself req hheader hmethod htarget later res
    refine h.authorize_eq hactive hheader hmethod ?_
    rw [hself]
    exact htarget.imp Eq.symm Eq.symm

theorem opensNothingElse_iff (hmd5 : IdealMd5 md5Hex) {password : Bytes}
    (hactive : settings.isActive = true)
    (hha1 : settings.ha1 = computeHa1 md5Hex settings.username password) (hcolon : 58 ∉ method)
    (h : SignedHeader md5Hex settings (fieldOf (parse header)) method target now) :
    OpensNothingElse md5Hex parse settings method target ↔ requestPathOf target = target := by
  constructor
  · intro hnothing
    obtain ⟨formula, -, hresponse⟩ := h.response
    have haccepted : (authorize md5Hex parse (.steady settings now 0)
        (requestFor method (requestPathOf target) header) {}).1 = true :=
      h.authorize_eq hactive requestFor_header rfl (.inl rfl)
    rcases hnothing _ header requestFor_header hcolon ⟨_, formula, hresponse⟩ now 0 {} haccepted
      with heq | heq
    · exact heq
    · exact heq
  · rintro hself req header' hheader' hmethod ⟨nonce, formula, hresponse⟩ now' later res haccepted
    have hactive' : (Reads.steady settings now' later).settings.isActive = true := hactive
    have hcredentials := credentials_of_authorize hactive' hheader' haccepted
    obtain ⟨formula', -, hresponse'⟩ := hcredentials.response
    -- the response was computed for one method and uri only
    have hline : method ++ ascii ":" ++ target =
        req.method ++ ascii ":" ++ fieldOf (parse header') "uri" := by
      rw [hresponse, Reads.steady, hha1] at hresponse'
      exact (digestResponse_inj hmd5 hresponse').2.2
    rw [ascii_colon_append, ascii_colon_append,
      Separated.append_cons_inj_left hcolon hmethod] at hline
    have huri := hcredentials.uri
    rw [← hline.2, hself] at huri
    exact huri.imp Eq.symm Eq.symm

/-- **The signed uri is compared by its real path** as long as no origin form holds `://`, and no
absolute form has an empty path before a slash in the query: only then does `RequestPathOf` find
the path, and a signed header open its own target and nothing else. -/
theorem signed_uri_iff (hmd5 : IdealMd5 md5Hex) :
    (∀ target : OriginForm, requestPathOf target.text = target.text ↔
      ¬ascii "://" <:+: target.text) ∧
    (∀ uri : AbsoluteForm, requestPathOf uri.text = uri.requestPath ↔ uri.Plain) ∧
    ∀ (parse : Bytes → Bytes → Option Bytes) (settings : AuthSettings) (password header : Bytes)
      (method : Bytes) (target : OriginForm) (now : Int), settings.isActive = true →
      settings.ha1 = computeHa1 md5Hex settings.username password → 58 ∉ method →
      SignedHeader md5Hex settings (fieldOf (parse header)) method target.text now →
        (OpensTarget md5Hex parse settings header method target.text now ↔
          ¬ascii "://" <:+: target.text) ∧
        (OpensNothingElse md5Hex parse settings method target.text ↔
          ¬ascii "://" <:+: target.text) := by
  refine ⟨fun target => requestPathOf_eq_self_iff _, requestPathOf_absolute_iff, ?_⟩
  intro parse settings password header method target now hactive hha1 hcolon h
  rw [← requestPathOf_eq_self_iff]
  exact ⟨opensTarget_iff hactive h, opensNothingElse_iff hmd5 hactive hha1 hcolon h⟩

/-! ## A link in a query -/

def downloadTarget : OriginForm where
  path := ascii "/downloadTrack/playlist_id/3/track_id/7"
  path_rooted := rfl
  path_text := by decide +kernel
  query_text := fun q h => by cases h

theorem signed_uri_iff_sample :
    OpensTarget sampleMd5 sampleFields sampleSettings (ascii "Digest") (ascii "GET")
        downloadTarget.text 1700000600 ∧
      OpensNothingElse sampleMd5 sampleFields sampleSettings (ascii "GET") downloadTarget.text := by
  have hsigned : SignedHeader sampleMd5 sampleSettings (fieldOf (sampleFields (ascii "Digest")))
      (ascii "GET") downloadTarget.text 1700000600 := {
    username := rfl
    realm := rfl
    uri := rfl
    response := ⟨.rfc7616 (ascii "00000001") (ascii "c0ffee"), ⟨rfl, rfl, rfl⟩, by decide +kernel⟩
    fresh := by decide +kernel }
  obtain ⟨hopens, hnothing⟩ := (signed_uri_iff sampleMd5_ideal).2.2 sampleFields sampleSettings
    (ascii "tea") (ascii "Digest") (ascii "GET") downloadTarget 1700000600 (by decide +kernel) rfl
    (by decide) hsigned
  have hplain : ¬ascii "://" <:+: downloadTarget.text := by decide +kernel
  exact ⟨hopens.mpr hplain, hnothing.mpr hplain⟩

def linkTarget : OriginForm where
  path := ascii "/a"
  query := some (ascii "u=http://h/b")
  path_rooted := rfl
  path_text := by decide +kernel
  query_text q h := by
    cases h
    decide +kernel

def bareHost : AbsoluteForm where
  scheme := ascii "http"
  authority := ascii "h"
  path := []
  query := some (ascii "x=/b")
  scheme_text := by decide +kernel
  authority_text := by decide +kernel
  path_rooted := .inl rfl
  path_text := rfl
  query_text q h := by
    cases h
    decide +kernel

/-- `/a?u=http://h/b` is taken for `/b`, and so is `http://h?x=/b`. -/
theorem link_read_as_uri :
    requestPathOf linkTarget.text = ascii "/b" ∧ requestPathOf linkTarget.text ≠ linkTarget.text ∧
      requestPathOf bareHost.text = ascii "/b" ∧
      requestPathOf bareHost.text ≠ bareHost.requestPath := by
  decide +kernel

end DigestAuthenticator

end RemoteControl
