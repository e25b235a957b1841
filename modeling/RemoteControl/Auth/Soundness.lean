import RemoteControl.Auth.DigestAuthenticator
import RemoteControl.Lib.Separated
import Mathlib.Data.List.Nodup

/-!
# Digest authentication is sound and complete

* `equalConstantTime_iff`: the comparison loop decides equality.
* `checkNonce_of_genuine`, `genuine_of_checkNonce`: what `CheckNonce` accepts.
* `digestResponse_inj`: the response formulas cannot be read as one another.
* `authorize_sound_complete`: what `Authorize` answers, for every header.
-/

namespace RemoteControl

open Separated

/-! ## Comparing -/

theorem diffLoop_eq_zero {diff : UInt8} {a b : Bytes} (h : a.length = b.length) :
    diffLoop diff a b = 0 ↔ diff = 0 ∧ a = b := by
  induction a generalizing diff b with
  | nil =>
    cases b with
    | nil => simp [diffLoop]
    | cons y b => cases h
  | cons x a ih =>
    cases b with
    | nil => cases h
    | cons y b =>
      rw [diffLoop, ih (Nat.succ.inj h), UInt8.or_eq_zero_iff, UInt8.xor_eq_zero_iff,
        List.cons_eq_cons, and_assoc]

theorem diffLoop_ne_zero {diff : UInt8} (a b : Bytes) (h : diff ≠ 0) : diffLoop diff a b ≠ 0 := by
  induction a generalizing diff b with
  | nil => exact h
  | cons x a ih =>
    cases b with
    | nil => exact h
    | cons y b =>
      refine ih b fun h0 => h ?_
      exact (UInt8.or_eq_zero_iff.mp h0).1

theorem equalConstantTime_iff (a b : Bytes) : equalConstantTime a b = true ↔ a = b := by
  rw [equalConstantTime, beq_iff_eq]
  by_cases h : a.length = b.length
  · rw [if_pos h, diffLoop_eq_zero h]
    exact and_iff_right rfl
  · rw [if_neg h]
    constructor
    · intro h0
      exact absurd h0 (diffLoop_ne_zero a b (by decide))
    · rintro rfl
      exact absurd rfl h

namespace DigestAuthenticator

variable {md5Hex : Bytes → Bytes}

/-! ## Nonces -/

/-- A nonce made under the secret of these settings at the time `issued`: the time
stamp is what stands before the first colon. -/
def GenuineNonce (md5Hex : Bytes → Bytes) (settings : AuthSettings) (nonce : Bytes)
    (issued : Int) : Prop :=
  ∃ ts : Bytes, 58 ∉ ts ∧ stoll ts = some issued ∧
    nonce = ts ++ 58 :: md5Hex (ts ++ ascii ":" ++ nonceSecret md5Hex settings)

/-- Every nonce a challenge carries is genuine, whichever process made it. -/
theorem makeNonce_genuine (settings : AuthSettings) {now : Int} (hlo : -2 ^ 63 ≤ now)
    (hhi : now < 2 ^ 63) : GenuineNonce md5Hex settings (makeNonce md5Hex settings now) now := by
  refine ⟨toDecimal now, fun hcolon => ?_, stoll_toDecimal hlo hhi, ?_⟩
  · rcases mem_toDecimal hcolon with h | h <;> cases h
  · rw [makeNonce, List.append_assoc]
    rfl

theorem checkNonce_of_genuine {settings : AuthSettings} {nonce : Bytes} {issued : Int} (now : Int)
    (h : GenuineNonce md5Hex settings nonce issued) :
    checkNonce md5Hex settings now nonce =
      if now - issued ≤ nonceLifetime then .valid else .expired := by
  obtain ⟨ts, hcolon, hts, rfl⟩ := h
  have htake : (ts ++ 58 :: md5Hex (ts ++ ascii ":" ++ nonceSecret md5Hex settings)).take
      ts.length = ts := List.take_left
  have hdrop : (ts ++ 58 :: md5Hex (ts ++ ascii ":" ++ nonceSecret md5Hex settings)).drop
      (ts.length + 1) = md5Hex (ts ++ ascii ":" ++ nonceSecret md5Hex settings) := by
    rw [← List.drop_drop, List.drop_left]
    rfl
  rw [checkNonce, findByte_append_cons hcolon]
  simp only [htake, hdrop, hts, ne_eq, not_true_eq_false, if_false]

theorem genuine_of_checkNonce {settings : AuthSettings} {nonce : Bytes} {now : Int}
    (h : checkNonce md5Hex settings now nonce ≠ .invalid) :
    ∃ issued, GenuineNonce md5Hex settings nonce issued := by
  unfold checkNonce at h
  split at h
  · exact absurd rfl h
  · next colon hfind =>
    obtain ⟨hsplit, hcolon⟩ := findByte_eq_some hfind
    dsimp only at h
    split at h
    · exact absurd rfl h
    · next hhash =>
      rw [ne_eq, not_not] at hhash
      split at h
      · exact absurd rfl h
      · next issued hts => exact ⟨issued, nonce.take colon, hcolon, hts, hhash ▸ hsplit⟩

/-! ## Responses -/

/-- How a client computes its response: RFC 7616 with `qop=auth`, or RFC 2069. -/
inductive Formula
  | rfc7616 (nc cnonce : Bytes)
  | rfc2069

/-- What stands between HA1 and HA2 in the hashed string. -/
def Formula.middle (nonce : Bytes) : Formula → Bytes
  | .rfc7616 nc cnonce =>
    nonce ++ ascii ":" ++ nc ++ ascii ":" ++ cnonce ++ ascii ":" ++ ascii "auth"
  | .rfc2069 => nonce

/-- The response of a client that signs `method` and `uri`. -/
def digestResponse (md5Hex : Bytes → Bytes) (ha1 nonce method uri : Bytes) (formula : Formula) :
    Bytes :=
  md5Hex (ha1 ++ ascii ":" ++ formula.middle nonce ++ ascii ":" ++
    md5Hex (method ++ ascii ":" ++ uri))

/-- The header's `qop`, `nc` and `cnonce` announce this formula. -/
def Formula.Announced (field : String → Bytes) : Formula → Prop
  | .rfc7616 nc cnonce => field "qop" = ascii "auth" ∧ field "nc" = nc ∧ field "cnonce" = cnonce
  | .rfc2069 => field "qop" = []

def isHexDigit (b : UInt8) : Bool := isDigit b || (97 ≤ b && b ≤ 102)

/-- What is assumed of the MD5 library: no collisions, and hexadecimal output. -/
structure IdealMd5 (md5Hex : Bytes → Bytes) : Prop where
  injective : Function.Injective md5Hex
  hex : ∀ s, ∀ b ∈ md5Hex s, isHexDigit b = true

theorem IdealMd5.colon_notMem (h : IdealMd5 md5Hex) (s : Bytes) : 58 ∉ md5Hex s := by
  intro hm
  cases h.hex s 58 hm

theorem ascii_colon_append (x y : Bytes) : x ++ ascii ":" ++ y = x ++ 58 :: y := by
  rw [List.append_assoc]
  rfl

theorem expectedResponse_eq_some {settings : AuthSettings} {method : Bytes}
    {field : String → Bytes} {r : Bytes} :
    expectedResponse md5Hex settings method field = some r ↔
      ∃ formula : Formula, formula.Announced field ∧
        r = digestResponse md5Hex settings.ha1 (field "nonce") method (field "uri") formula := by
  unfold expectedResponse
  constructor
  · intro h
    dsimp only at h
    split at h
    · next hqop => exact ⟨.rfc2069, hqop, (Option.some.inj h).symm⟩
    · split at h
      · next hqop =>
        refine ⟨.rfc7616 (field "nc") (field "cnonce"), ⟨hqop, rfl, rfl⟩, ?_⟩
        rw [← Option.some.inj h]
        simp [digestResponse, Formula.middle, ascii]
      · cases h
  · rintro ⟨formula, hannounced, rfl⟩
    cases formula with
    | rfc2069 => exact if_pos hannounced
    | rfc7616 nc cnonce =>
      obtain ⟨hqop, rfl, rfl⟩ := hannounced
      have hne : ascii "auth" ≠ [] := by decide
      rw [hqop, if_neg hne, if_pos rfl]
      simp [digestResponse, Formula.middle, ascii]

/-- The hashed strings of two responses agree only if all three parts do. -/
theorem digestResponse_inj (h : IdealMd5 md5Hex) {s s' nonce nonce' method method' uri uri' : Bytes}
    {formula formula' : Formula}
    (heq : digestResponse md5Hex (md5Hex s) nonce method uri formula =
      digestResponse md5Hex (md5Hex s') nonce' method' uri' formula') :
    s = s' ∧ formula.middle nonce = formula'.middle nonce' ∧
      method ++ ascii ":" ++ uri = method' ++ ascii ":" ++ uri' := by
  have hstring := h.injective heq
  rw [ascii_colon_append, ascii_colon_append (md5Hex s' ++ _ ++ _),
    append_cons_inj_right (h.colon_notMem _) (h.colon_notMem _), ascii_colon_append,
    ascii_colon_append, append_cons_inj_left (h.colon_notMem _) (h.colon_notMem _)] at hstring
  obtain ⟨⟨hha1, hmiddle⟩, hha2⟩ := hstring
  exact ⟨h.injective hha1, hmiddle, h.injective hha2⟩

/-- A genuine nonce holds one colon, so it never reads as a nonce with `nc`, `cnonce`
and `qop`. -/
theorem GenuineNonce.count_colon (h : IdealMd5 md5Hex) {settings : AuthSettings} {nonce : Bytes}
    {issued : Int} (hn : GenuineNonce md5Hex settings nonce issued) : nonce.count 58 = 1 := by
  obtain ⟨ts, hcolon, -, rfl⟩ := hn
  rw [count_append_cons, List.count_eq_zero.mpr hcolon,
    List.count_eq_zero.mpr (h.colon_notMem _)]

theorem count_middle_rfc7616 (nonce nc cnonce : Bytes) :
    3 ≤ ((Formula.rfc7616 nc cnonce).middle nonce).count 58 := by
  rw [Formula.middle, ascii_colon_append, count_append_cons, ascii_colon_append,
    count_append_cons, ascii_colon_append, count_append_cons]
  omega

theorem GenuineNonce.eq_of_middle (h : IdealMd5 md5Hex) {settings : AuthSettings}
    {nonce nonce' : Bytes} {issued issued' : Int} {formula formula' : Formula}
    (hn : GenuineNonce md5Hex settings nonce issued)
    (hn' : GenuineNonce md5Hex settings nonce' issued')
    (heq : formula.middle nonce = formula'.middle nonce') : nonce = nonce' := by
  have hcount := congrArg (List.count 58) heq
  cases formula with
  | rfc2069 =>
    cases formula' with
    | rfc2069 => exact heq
    | rfc7616 nc' cnonce' =>
      have h3 := count_middle_rfc7616 nonce' nc' cnonce'
      have h1 : ((Formula.rfc2069).middle nonce).count 58 = 1 := hn.count_colon h
      omega
  | rfc7616 nc cnonce =>
    cases formula' with
    | rfc2069 =>
      have h3 := count_middle_rfc7616 nonce nc cnonce
      have h1 : ((Formula.rfc2069).middle nonce').count 58 = 1 := hn'.count_colon h
      omega
    | rfc7616 nc' cnonce' =>
      -- both begin with a time stamp up to the first colon, and it fixes the nonce
      obtain ⟨ts, hcolon, -, rfl⟩ := hn
      obtain ⟨ts', hcolon', -, rfl⟩ := hn'
      simp only [Formula.middle, List.append_assoc, List.cons_append] at heq
      obtain ⟨rfl, -⟩ := (append_cons_inj_left hcolon hcolon').mp heq
      rfl

/-! ## Authorize -/

/-- The header names the user and the realm, and signs this request with this HA1. -/
structure Credentials (md5Hex : Bytes → Bytes) (settings : AuthSettings) (req : Http.Request)
    (field : String → Bytes) : Prop where
  username : field "username" = settings.username
  realm : field "realm" = authRealm
  uri : requestPathOf (field "uri") = req.path ∨ requestPathOf (field "uri") = req.target
  response : ∃ formula : Formula, formula.Announced field ∧
    field "response" =
      digestResponse md5Hex settings.ha1 (field "nonce") req.method (field "uri") formula

section Authorize

variable {parse : Bytes → Bytes → Option Bytes} {reads : Reads} {req : Http.Request}
  {res : Http.Response} {header : Bytes}

theorem authorize_of_credentials (hactive : reads.settings.isActive = true)
    (hheader : req.header? (ascii "Authorization") = some header)
    (h : Credentials md5Hex reads.settings req (fieldOf (parse header))) :
    authorize md5Hex parse reads req res =
      match checkNonce md5Hex reads.checkSettings reads.checkTime
          (fieldOf (parse header) "nonce") with
      | .invalid =>
        (false, challenge md5Hex reads.challengeSettings reads.challengeTime res false)
      | .valid => (true, res)
      | .expired =>
        (false, challenge md5Hex reads.challengeSettings reads.challengeTime res true) := by
  have hexpected := expectedResponse_eq_some.mpr h.response
  have hequal : equalConstantTime (fieldOf (parse header) "response")
      (fieldOf (parse header) "response") = true := (equalConstantTime_iff _ _).mpr rfl
  have hfields : ¬ (fieldOf (parse header) "username" ≠ reads.settings.username ∨
      fieldOf (parse header) "realm" ≠ authRealm) := by
    simp [h.username, h.realm]
  have huri : ¬ (requestPathOf (fieldOf (parse header) "uri") ≠ req.path ∧
      requestPathOf (fieldOf (parse header) "uri") ≠ req.target) := by
    rintro ⟨hpath, htarget⟩
    exact h.uri.elim hpath htarget
  simp only [authorize, hactive, hheader, hexpected, hequal, if_neg hfields, if_neg huri,
    Bool.true_eq_false, if_false]
  cases checkNonce md5Hex reads.checkSettings reads.checkTime (fieldOf (parse header) "nonce") <;>
    simp

theorem authorize_of_not_credentials (hactive : reads.settings.isActive = true)
    (h : ∀ header, req.header? (ascii "Authorization") = some header →
      ¬ Credentials md5Hex reads.settings req (fieldOf (parse header))) :
    authorize md5Hex parse reads req res =
      (false, challenge md5Hex reads.challengeSettings reads.challengeTime res false) := by
  simp only [authorize, hactive, Bool.true_eq_false, if_false]
  split
  · rfl
  · next header hheader =>
    have hnot := h header hheader
    split
    · rfl
    · next hfields =>
      split
      · rfl
      · next huri =>
        split
        · rfl
        · split
          · rfl
          · next expected hexpected =>
            -- the fields are right, so the response is wrong
            have hwrong : equalConstantTime expected (fieldOf (parse header) "response") = false := by
              rw [Bool.eq_false_iff, ne_eq, equalConstantTime_iff]
              rintro rfl
              rw [not_or, not_not, not_not] at hfields
              rw [not_and_or, not_not, not_not] at huri
              exact hnot ⟨hfields.1, hfields.2, huri, expectedResponse_eq_some.mp hexpected⟩
            rw [if_pos hwrong]

end Authorize

/-- The request signs itself correctly, with a nonce of the time `issued`. -/
def Signed (md5Hex : Bytes → Bytes) (parse : Bytes → Bytes → Option Bytes)
    (settings : AuthSettings) (req : Http.Request) (issued : Int) : Prop :=
  ∃ header, req.header? (ascii "Authorization") = some header ∧
    Credentials md5Hex settings req (fieldOf (parse header)) ∧
    GenuineNonce md5Hex settings (fieldOf (parse header) "nonce") issued

/-- A response computed with another password, for another genuine nonce, or for
another method and uri than the header and the request name. -/
def SignedOtherwise (md5Hex : Bytes → Bytes) (settings : AuthSettings) (password : Bytes)
    (req : Http.Request) (field : String → Bytes) : Prop :=
  ∃ password' nonce' method' uri' formula',
    field "response" = digestResponse md5Hex (computeHa1 md5Hex settings.username password')
      nonce' method' uri' formula' ∧
    (password' ≠ password ∨
      (nonce' ≠ field "nonce" ∧ ∃ issued, GenuineNonce md5Hex settings nonce' issued) ∨
      method' ++ ascii ":" ++ uri' ≠ req.method ++ ascii ":" ++ field "uri")

theorem SignedOtherwise.not_genuine (h : IdealMd5 md5Hex) {settings : AuthSettings}
    {password : Bytes} (hha1 : settings.ha1 = computeHa1 md5Hex settings.username password)
    {req : Http.Request} {field : String → Bytes} {issued : Int}
    (hother : SignedOtherwise md5Hex settings password req field)
    (hcredentials : Credentials md5Hex settings req field) :
    ¬ GenuineNonce md5Hex settings (field "nonce") issued := by
  intro hnonce
  obtain ⟨password', nonce', method', uri', formula', hresponse', hdiffers⟩ := hother
  obtain ⟨formula, -, hresponse⟩ := hcredentials.response
  rw [hresponse', hha1] at hresponse
  obtain ⟨hha, hmiddle, hline⟩ := digestResponse_inj h hresponse
  rcases hdiffers with hpassword | ⟨hne, issued', hnonce'⟩ | hne
  · exact hpassword (List.append_cancel_left hha)
  · exact hne (hnonce'.eq_of_middle h hnonce hmiddle)
  · exact hne hline

/-- **Sound and complete.** With active settings and MD5 taken as injective, whatever
the header parser makes of the header: a request that signs itself correctly is let
through while its nonce is fresh and is answered `stale=true` after that; every
other request is refused without `stale`, in particular one whose response was
computed with another password. -/
theorem authorize_sound_complete (h : IdealMd5 md5Hex) {settings : AuthSettings} {password : Bytes}
    (hactive : settings.isActive = true)
    (hha1 : settings.ha1 = computeHa1 md5Hex settings.username password)
    (parse : Bytes → Bytes → Option Bytes) (req : Http.Request) (res : Http.Response)
    (now later : Int) :
    (∀ issued, Signed md5Hex parse settings req issued →
      authorize md5Hex parse (.steady settings now later) req res =
        if now - issued ≤ nonceLifetime then (true, res)
        else (false, challenge md5Hex settings later res true)) ∧
    ((¬ ∃ issued, Signed md5Hex parse settings req issued) →
      authorize md5Hex parse (.steady settings now later) req res =
        (false, challenge md5Hex settings later res false)) ∧
    ∀ header, req.header? (ascii "Authorization") = some header →
      SignedOtherwise md5Hex settings password req (fieldOf (parse header)) →
        authorize md5Hex parse (.steady settings now later) req res =
          (false, challenge md5Hex settings later res false) := by
  have hrefused : (¬ ∃ issued, Signed md5Hex parse settings req issued) →
      authorize md5Hex parse (.steady settings now later) req res =
        (false, challenge md5Hex settings later res false) := by
    intro hnot
    by_cases hcred : ∃ header, req.header? (ascii "Authorization") = some header ∧
        Credentials md5Hex settings req (fieldOf (parse header))
    · obtain ⟨header, hheader, hc⟩ := hcred
      rw [authorize_of_credentials hactive hheader hc]
      have hinvalid : checkNonce md5Hex settings now (fieldOf (parse header) "nonce") =
          .invalid := by
        by_contra hvalid
        obtain ⟨issued, hgenuine⟩ := genuine_of_checkNonce hvalid
        exact hnot ⟨issued, header, hheader, hc, hgenuine⟩
      simp only [Reads.steady, hinvalid]
    · exact authorize_of_not_credentials hactive
        fun header hheader hc => hcred ⟨header, hheader, hc⟩
  refine ⟨?_, hrefused, ?_⟩
  · rintro issued ⟨header, hheader, hc, hgenuine⟩
    rw [authorize_of_credentials hactive hheader hc]
    simp only [Reads.steady, checkNonce_of_genuine now hgenuine]
    by_cases hfresh : now - issued ≤ nonceLifetime
    · simp only [if_pos hfresh]
    · simp only [if_neg hfresh]
  · intro header hheader hother
    refine hrefused ?_
    rintro ⟨issued, header', hheader', hc, hgenuine⟩
    obtain rfl := Option.some.inj (hheader.symm.trans hheader')
    exact hother.not_genuine h hha1 hc hgenuine

/-! ## A signed request -/

/-- What MD5 gives for the strings hashed when `anna` signs a download. -/
def sampleDigests : List (Bytes × Bytes) := [
  (ascii "anna:AIMP Remote Control:tea",
    ascii "12eb2e737e86fc2bbc82fff2df267cf9"),
  (ascii "nonce:12eb2e737e86fc2bbc82fff2df267cf9",
    ascii "992a2cdae92c9b22ec2cdd9e41bd82e2"),
  (ascii "1700000000:992a2cdae92c9b22ec2cdd9e41bd82e2",
    ascii "5b39cd4c1daa6d3f22a6527d0e2f96a7"),
  (ascii "GET:/downloadTrack/playlist_id/3/track_id/7",
    ascii "072f35beee23d0ed2708e7dc38754aee"),
  (ascii "12eb2e737e86fc2bbc82fff2df267cf9:1700000000:5b39cd4c1daa6d3f22a652" ++
    ascii "7d0e2f96a7:00000001:c0ffee:auth:072f35beee23d0ed2708e7dc38754aee",
    ascii "2cab3915c028b48465d4685f260c8551")]

def unary (s : Bytes) : Bytes := s.flatMap fun b => List.replicate b.toNat 97 ++ [48]

theorem unary_injective : Function.Injective unary := by
  intro s t h
  induction s generalizing t with
  | nil =>
    cases t with
    | nil => rfl
    | cons c t => simp [unary] at h
  | cons b s ih =>
    cases t with
    | nil => simp [unary] at h
    | cons c t =>
      have hzero : ∀ n : Nat, (48 : UInt8) ∉ List.replicate n 97 := fun n hn =>
        absurd (List.eq_of_mem_replicate hn) (by decide)
      simp only [unary, List.flatMap_cons, List.append_assoc, List.cons_append,
        List.nil_append, append_cons_inj_left (hzero _) (hzero _)] at h
      have hb : b = c := UInt8.toNat_inj.mp (by simpa using congrArg List.length h.1)
      rw [hb, ih h.2]

theorem mem_unary {s : Bytes} {b : UInt8} (h : b ∈ unary s) : b = 97 ∨ b = 48 := by
  obtain ⟨c, -, hb⟩ := List.mem_flatMap.mp h
  rcases List.mem_append.mp hb with hb | hb
  · exact .inl (List.eq_of_mem_replicate hb)
  · exact .inr (List.mem_singleton.mp hb)

/-- An injective extension of these digests. -/
def sampleMd5 (s : Bytes) : Bytes :=
  ((sampleDigests.find? fun digest => digest.1 = s).map Prod.snd).getD (unary s)

theorem sampleMd5_eq (s : Bytes) : (s, sampleMd5 s) ∈ sampleDigests ∨ sampleMd5 s = unary s := by
  unfold sampleMd5
  cases hfind : sampleDigests.find? fun digest => digest.1 = s with
  | none => exact .inr rfl
  | some digest =>
    obtain rfl : digest.1 = s := by simpa using List.find?_some hfind
    exact .inl (List.mem_of_find?_eq_some hfind)

theorem sampleMd5_ideal : IdealMd5 sampleMd5 where
  injective := by
    have hdistinct : (sampleDigests.map Prod.snd).Nodup := by decide +kernel
    -- every digest holds a byte that no `unary` string does
    have hforeign : ∀ digest ∈ sampleDigests, ∃ b ∈ digest.2, b ≠ 97 ∧ b ≠ 48 := by decide +kernel
    have hdiffers : ∀ {s t}, (s, sampleMd5 s) ∈ sampleDigests → sampleMd5 s ≠ unary t := by
      intro s t hs heq
      obtain ⟨b, hb, h97, h48⟩ := hforeign _ hs
      rw [heq] at hb
      exact (mem_unary hb).elim h97 h48
    intro s t heq
    rcases sampleMd5_eq s with hs | hs <;> rcases sampleMd5_eq t with ht | ht
    · exact congrArg Prod.fst (List.inj_on_of_nodup_map hdistinct hs ht heq)
    · exact absurd (heq.trans ht) (hdiffers hs)
    · exact absurd (heq.symm.trans hs) (hdiffers ht)
    · exact unary_injective (hs.symm.trans (heq.trans ht))
  hex s b hb := by
    have hdigests : ∀ digest ∈ sampleDigests, ∀ b ∈ digest.2, isHexDigit b = true := by
      decide +kernel
    rcases sampleMd5_eq s with hs | hs
    · exact hdigests _ hs b hb
    · rw [hs] at hb
      rcases mem_unary hb with rfl | rfl <;> rfl

def sampleSettings : AuthSettings where
  enabled := true
  username := ascii "anna"
  ha1 := computeHa1 sampleMd5 (ascii "anna") (ascii "tea")

/-- The header's fields, as the parser answers them. -/
def sampleFields (_ k : Bytes) : Option Bytes :=
  if k = ascii "username" then some (ascii "anna")
  else if k = ascii "realm" then some authRealm
  else if k = ascii "uri" then some (ascii "/downloadTrack/playlist_id/3/track_id/7")
  else if k = ascii "nonce" then some (ascii "1700000000:5b39cd4c1daa6d3f22a6527d0e2f96a7")
  else if k = ascii "qop" then some (ascii "auth")
  else if k = ascii "nc" then some (ascii "00000001")
  else if k = ascii "cnonce" then some (ascii "c0ffee")
  else if k = ascii "response" then some (ascii "2cab3915c028b48465d4685f260c8551")
  else none

def sampleRequest : Http.Request where
  method := ascii "GET"
  path := ascii "/downloadTrack/playlist_id/3/track_id/7"
  target := ascii "/downloadTrack/playlist_id/3/track_id/7"
  headers := [(ascii "authorization", ascii "Digest")]

theorem sampleRequest_signed :
    Signed sampleMd5 sampleFields sampleSettings sampleRequest 1700000000 := by
  have hcredentials :
      Credentials sampleMd5 sampleSettings sampleRequest (fieldOf (sampleFields (ascii "Digest"))) := {
    username := rfl
    realm := rfl
    uri := .inl (by decide +kernel)
    response := ⟨.rfc7616 (ascii "00000001") (ascii "c0ffee"), ⟨rfl, rfl, rfl⟩, by decide +kernel⟩ }
  exact ⟨ascii "Digest", rfl, hcredentials, ascii "1700000000", by decide, by decide +kernel,
    by decide +kernel⟩

/-- Ten minutes after the challenge `anna` is let in; after an hour her nonce is stale. -/
theorem authorize_sound_complete_sample :
    authorize sampleMd5 sampleFields (.steady sampleSettings 1700000600 1700000600)
        sampleRequest {} = (true, {}) ∧
      authorize sampleMd5 sampleFields (.steady sampleSettings 1700003600 1700003600)
        sampleRequest {} = (false, challenge sampleMd5 sampleSettings 1700003600 {} true) := by
  have hha1 : sampleSettings.ha1 = computeHa1 sampleMd5 sampleSettings.username (ascii "tea") := rfl
  have h := authorize_sound_complete sampleMd5_ideal (by decide +kernel) hha1 sampleFields
    sampleRequest {}
  constructor
  · rw [(h 1700000600 1700000600).1 1700000000 sampleRequest_signed]
    exact if_pos (by decide)
  · rw [(h 1700003600 1700003600).1 1700000000 sampleRequest_signed]
    exact if_neg (by decide)

end DigestAuthenticator

end RemoteControl
