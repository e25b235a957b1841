import RemoteControl.Auth.Soundness
import RemoteControl.Settings.FailClosed

/-!
# How long a nonce is usable

A nonce holds its time and a hash under the credentials, so it outlives restarts and saves that
keep the user name and password. The server takes it for 15 minutes where 24 hours are
documented: `nonce_lifetime_iff` says when its answer is the documented one.
-/

namespace RemoteControl.NonceLifetime

open DigestAuthenticator Transition

/-- The plugin and the system clock, a `std::int64_t` of seconds. -/
structure ClockedPlugin where
  plugin : PluginSettings
  now : Int

/-- What happens between two requests of one client. -/
inductive Action
  | settings (action : PluginSettings.Action)
  | elapse (seconds : Nat)
  | otherRequest (req : Http.Request)

section Steps

variable (md5Hex : Bytes → Bytes) (platform : Platform)

/-- `Authorize` is `const`: a request changes nothing. -/
def step (s : ClockedPlugin) : Action → Option ClockedPlugin
  | .settings action =>
    (PluginSettings.step md5Hex platform s.plugin action).map fun plugin => { s with plugin }
  | .elapse seconds =>
    if s.now + seconds < 2 ^ 63 then some { s with now := s.now + seconds } else none
  | .otherRequest _ => some s

/-- The first start of the plugin, at some time. -/
def init (start : Nat) : ClockedPlugin := ⟨PluginSettings.init platform, start⟩

/-- The step leaves this user name stored, with this password entered for it. -/
def Keeps (username password : Bytes) (s : ClockedPlugin) (a : Action) : Prop :=
  ∀ t, step md5Hex platform s a = some t →
    (t.plugin.stored platform).username = username ∧ t.plugin.entered = some password

end Steps

/-- The nonce of a challenge issued in this state. -/
def issuedNonce (md5Hex : Bytes → Bytes) (s : ClockedPlugin) : Bytes :=
  makeNonce md5Hex s.plugin.server s.now

/-- The header signs this request with this nonce, user name and password; its uri is one the
server reads as the request's. -/
structure SignedWith (md5Hex : Bytes → Bytes) (username password nonce : Bytes)
    (req : Http.Request) (field : String → Bytes) : Prop where
  response : ∃ formula : Formula, formula.Announced field ∧
    field "response" = digestResponse md5Hex (computeHa1 md5Hex username password) nonce req.method
      (field "uri") formula
  uri : requestPathOf (field "uri") = req.path ∨ requestPathOf (field "uri") = req.target
  nonce : field "nonce" = nonce
  realm : field "realm" = authRealm
  username : field "username" = username

/-- The documented answer to a request with a nonce of this age, in seconds. -/
def DocumentedAnswer (md5Hex : Bytes → Bytes) (settings : AuthSettings) (age later : Int)
    (res : Http.Response) (answer : Bool × Http.Response) : Prop :=
  answer = if age ≤ 24 * 60 * 60 then (true, res)
    else (false, challenge md5Hex settings later res true)

section Runs

variable {md5Hex : Bytes → Bytes} {platform : Platform} {username password : Bytes}
  {s t : ClockedPlugin} {start : Nat}

/-- The settings agree with each other, and the clock is one of 64 bits. -/
structure Inv (md5Hex : Bytes → Bytes) (platform : Platform) (s : ClockedPlugin) : Prop where
  consistent : s.plugin.Consistent md5Hex platform
  nonneg : 0 ≤ s.now
  small : s.now < 2 ^ 63

theorem step_inv {a : Action} (h : Inv md5Hex platform s)
    (hst : step md5Hex platform s a = some t) : Inv md5Hex platform t ∧ s.now ≤ t.now := by
  cases a with
  | settings action =>
    obtain ⟨plugin, hplugin, rfl⟩ := Option.map_eq_some_iff.mp hst
    exact ⟨⟨PluginSettings.step_consistent h.consistent hplugin, h.nonneg, h.small⟩, Int.le_refl _⟩
  | elapse seconds =>
    unfold step at hst
    dsimp only at hst
    split at hst
    · next hsmall =>
      cases hst
      have hlater : s.now ≤ s.now + seconds := by omega
      exact ⟨⟨h.consistent, Int.le_trans h.nonneg hlater, hsmall⟩, hlater⟩
    · cases hst
  | otherRequest req =>
    cases hst
    exact ⟨h, Int.le_refl _⟩

theorem reachable_inv (hstart : start < 2 ^ 63)
    (h : Reachable (step md5Hex platform) (init platform start) s) : Inv md5Hex platform s := by
  refine h.invariant ⟨PluginSettings.start_consistent rfl, ?_, ?_⟩ fun hs hst => (step_inv hs hst).1
  · exact Int.natCast_nonneg start
  · show (start : Int) < 2 ^ 63
    omega

/-- What the credentials are while a run keeps them. -/
structure Keeping (md5Hex : Bytes → Bytes) (platform : Platform) (username password : Bytes)
    (s : ClockedPlugin) : Prop extends Inv md5Hex platform s where
  username : (s.plugin.stored platform).username = username
  password : s.plugin.entered = some password

theorem Keeping.server_username (h : Keeping md5Hex platform username password s) :
    s.plugin.server.username = username := by
  rw [h.consistent.server, h.username]

theorem Keeping.server_ha1 (h : Keeping md5Hex platform username password s) :
    s.plugin.server.ha1 = computeHa1 md5Hex username password := by
  have hmatches := h.consistent.ha1
  rw [h.password] at hmatches
  rw [h.consistent.server, ← h.username]
  exact hmatches

theorem keeping_run (hs : Keeping md5Hex platform username password s)
    (h : ReachableBy (step md5Hex platform) (Keeps md5Hex platform username password) s t) :
    Keeping md5Hex platform username password t ∧ s.now ≤ t.now := by
  refine h.invariant (I := fun t => Keeping md5Hex platform username password t ∧ s.now ≤ t.now)
    ⟨hs, Int.le_refl _⟩ ?_
  rintro u a v ⟨hu, hle⟩ hok hst
  obtain ⟨hinv, hlater⟩ := step_inv hu.toInv hst
  obtain ⟨husername, hpassword⟩ := hok v hst
  exact ⟨⟨hinv, husername, hpassword⟩, Int.le_trans hle hlater⟩

theorem nonceSecret_of_ha1 {settings settings' : AuthSettings} (h : settings.ha1 = settings'.ha1) :
    nonceSecret md5Hex settings = nonceSecret md5Hex settings' := by
  rw [nonceSecret, nonceSecret, h]

theorem GenuineNonce.of_ha1 {settings settings' : AuthSettings} {nonce : Bytes} {issued : Int}
    (hn : GenuineNonce md5Hex settings nonce issued) (h : settings.ha1 = settings'.ha1) :
    GenuineNonce md5Hex settings' nonce issued := by
  rw [GenuineNonce, ← nonceSecret_of_ha1 h]
  exact hn

/-- What a signed request is answered, by the age of its nonce. -/
theorem answer_signed {parse : Bytes → Bytes → Option Bytes} {req : Http.Request} {header : Bytes}
    (hs : Keeping md5Hex platform username password s)
    (h : ReachableBy (step md5Hex platform) (Keeps md5Hex platform username password) s t)
    (hactive : t.plugin.server.isActive = true)
    (hheader : req.header? (ascii "Authorization") = some header)
    (hsigned : SignedWith md5Hex username password (issuedNonce md5Hex s) req
      (fieldOf (parse header))) (later : Int) (res : Http.Response) :
    authorize md5Hex parse (.steady t.plugin.server t.now later) req res =
      if t.now - s.now ≤ nonceLifetime then (true, res)
      else (false, challenge md5Hex t.plugin.server later res true) := by
  obtain ⟨ht, -⟩ := keeping_run hs h
  have hcredentials : Credentials md5Hex t.plugin.server req (fieldOf (parse header)) := by
    refine ⟨hsigned.username.trans ht.server_username.symm, hsigned.realm, hsigned.uri, ?_⟩
    rw [ht.server_ha1, hsigned.nonce]
    exact hsigned.response
  have hgenuine : GenuineNonce md5Hex t.plugin.server (issuedNonce md5Hex s) s.now := by
    refine GenuineNonce.of_ha1 (makeNonce_genuine _ ?_ hs.small)
      (hs.server_ha1.trans ht.server_ha1.symm)
    have := hs.nonneg
    omega
  have hactive' : (Reads.steady t.plugin.server t.now later).settings.isActive = true := hactive
  rw [authorize_of_credentials hactive' hheader hcredentials]
  simp only [Reads.steady, hsigned.nonce, checkNonce_of_genuine t.now hgenuine]
  by_cases hfresh : t.now - s.now ≤ nonceLifetime
  · simp only [if_pos hfresh]
  · simp only [if_neg hfresh]

/-- **A nonce is usable as documented** for its first 15 minutes, and once 24 hours have passed:
over every run of restarts, of saves that keep the user name and password, and of other requests,
in between the answer to a signed request is not the documented one. -/
theorem nonce_lifetime_iff (hstart : start < 2 ^ 63)
    (hs : Reachable (step md5Hex platform) (init platform start) s)
    (husername : (s.plugin.stored platform).username = username)
    (hpassword : s.plugin.entered = some password)
    (h : ReachableBy (step md5Hex platform) (Keeps md5Hex platform username password) s t)
    (hactive : t.plugin.server.isActive = true) {parse : Bytes → Bytes → Option Bytes}
    {req : Http.Request} {header : Bytes}
    (hheader : req.header? (ascii "Authorization") = some header)
    (hsigned : SignedWith md5Hex username password (issuedNonce md5Hex s) req
      (fieldOf (parse header))) (later : Int) (res : Http.Response) :
    DocumentedAnswer md5Hex t.plugin.server (t.now - s.now) later res
        (authorize md5Hex parse (.steady t.plugin.server t.now later) req res) ↔
      t.now - s.now ≤ 15 * 60 ∨ 24 * 60 * 60 < t.now - s.now := by
  rw [DocumentedAnswer,
    answer_signed ⟨reachable_inv hstart hs, husername, hpassword⟩ h hactive hheader hsigned later
      res]
  have hlifetime : nonceLifetime = 15 * 60 := rfl
  by_cases hfresh : t.now - s.now ≤ 15 * 60
  · have hday : t.now - s.now ≤ 24 * 60 * 60 := by omega
    rw [hlifetime, if_pos hfresh, if_pos hday]
    exact iff_of_true rfl (.inl hfresh)
  · by_cases hday : t.now - s.now ≤ 24 * 60 * 60
    · rw [hlifetime, if_neg hfresh, if_pos hday]
      refine iff_of_false (fun heq => ?_) ?_
      · cases congrArg Prod.fst heq
      · omega
    · rw [hlifetime, if_neg hfresh, if_neg hday]
      exact iff_of_true rfl (.inr (by omega))

end Runs

/-! ## Ten minutes and an hour later -/

section Sample

open PluginSettings (samplePlatform sampleSession)

def sampleStep : ClockedPlugin → Action → Option ClockedPlugin := step sampleMd5 samplePlatform

def SampleKeeps : ClockedPlugin → Action → Prop :=
  Keeps sampleMd5 samplePlatform (ascii "anna") (ascii "tea")

instance (s : ClockedPlugin) (a : Action) : Decidable (SampleKeeps s a) :=
  match h : step sampleMd5 samplePlatform s a with
  | none => isTrue fun t ht => by rw [h] at ht; cases ht
  | some t =>
    decidable_of_iff ((t.plugin.stored samplePlatform).username = ascii "anna" ∧
        t.plugin.entered = some (ascii "tea"))
      ⟨fun hkeeps t' ht' => Option.some.inj (h.symm.trans ht') ▸ hkeeps, fun hkeeps => hkeeps t h⟩

/-- `anna` has set her password and is challenged. -/
def challenged : Option ClockedPlugin :=
  run sampleStep (init samplePlatform 1700000000) (sampleSession.map Action.settings)

def ChallengedState (s : ClockedPlugin) : Prop :=
  (s.plugin.stored samplePlatform).username = ascii "anna" ∧ s.plugin.entered = some (ascii "tea") ∧
    s.now = 1700000000 ∧
    issuedNonce sampleMd5 s = ascii "1700000000:5b39cd4c1daa6d3f22a6527d0e2f96a7"

instance (s : ClockedPlugin) : Decidable (ChallengedState s) := inferInstanceAs (Decidable (_ ∧ _))

/-- The player is restarted, and the clock goes on. -/
def restarted (seconds : Nat) (s : ClockedPlugin) : Option ClockedPlugin :=
  run (guarded sampleStep SampleKeeps) s [.settings .restart, .elapse seconds]

theorem challenged_state : ∃ s, challenged = some s ∧ ChallengedState s := by
  obtain ⟨s, hs, hstate⟩ := (Option.any_eq_true _ _).mp
    (show challenged.any (fun s => decide (ChallengedState s)) = true by decide +kernel)
  exact ⟨s, hs, of_decide_eq_true hstate⟩

theorem sampleRequest_signedWith {s : ClockedPlugin} (h : ChallengedState s) :
    SignedWith sampleMd5 (ascii "anna") (ascii "tea") (issuedNonce sampleMd5 s) sampleRequest
      (fieldOf (sampleFields (ascii "Digest"))) := by
  rw [h.2.2.2]
  exact {
    response := ⟨.rfc7616 (ascii "00000001") (ascii "c0ffee"), ⟨rfl, rfl, rfl⟩, by decide +kernel⟩
    uri := .inl (by decide +kernel)
    nonce := rfl
    realm := rfl
    username := rfl }

/-- The restart and the wait keep the settings. -/
theorem restarted_of_check (seconds : Nat) (s : ClockedPlugin) (hs : challenged = some s)
    (hcheck : (challenged.bind (restarted seconds)).any (fun t =>
      decide (t.plugin.server.isActive = true ∧ t.now = 1700000000 + (seconds : Int))) = true) :
    ∃ t, ReachableBy sampleStep SampleKeeps s t ∧ t.plugin.server.isActive = true ∧
      t.now = 1700000000 + (seconds : Int) := by
  obtain ⟨t, ht, hstate⟩ := (Option.any_eq_true _ _).mp hcheck
  rw [hs, Option.bind_some] at ht
  obtain ⟨hactive, hnow⟩ := of_decide_eq_true hstate
  exact ⟨t, .of_guarded ⟨_, ht⟩, hactive, hnow⟩

/-- Ten minutes after the challenge `anna` is let in. -/
theorem nonce_lifetime_iff_sample :
    ∃ s t, Reachable sampleStep (init samplePlatform 1700000000) s ∧
      ReachableBy sampleStep SampleKeeps s t ∧ t.now - s.now = 600 ∧
      DocumentedAnswer sampleMd5 t.plugin.server 600 t.now {}
        (authorize sampleMd5 sampleFields (.steady t.plugin.server t.now t.now) sampleRequest
          {}) := by
  obtain ⟨s, hs, hstate⟩ := challenged_state
  obtain ⟨t, hrun, hactive, hnow⟩ := restarted_of_check 600 s hs (by decide +kernel)
  have hage : t.now - s.now = 600 := by
    rw [hnow, hstate.2.2.1]
    rfl
  have hreach : Reachable sampleStep (init samplePlatform 1700000000) s := ⟨_, hs⟩
  have hheader : sampleRequest.header? (ascii "Authorization") = some (ascii "Digest") := rfl
  have hiff := nonce_lifetime_iff (by decide) hreach hstate.1 hstate.2.1 hrun hactive
    hheader (sampleRequest_signedWith hstate) t.now {}
  rw [hage] at hiff
  exact ⟨s, t, hreach, hrun, hage, hiff.mpr (.inl (by decide))⟩

/-- An hour after it her nonce is stale. -/
theorem nonce_stale_too_early :
    ∃ s t, Reachable sampleStep (init samplePlatform 1700000000) s ∧
      ReachableBy sampleStep SampleKeeps s t ∧ t.now - s.now = 3600 ∧
      SignedWith sampleMd5 (ascii "anna") (ascii "tea") (issuedNonce sampleMd5 s) sampleRequest
        (fieldOf (sampleFields (ascii "Digest"))) ∧
      authorize sampleMd5 sampleFields (.steady t.plugin.server t.now t.now) sampleRequest {} =
        (false, challenge sampleMd5 t.plugin.server t.now {} true) ∧
      ¬DocumentedAnswer sampleMd5 t.plugin.server 3600 t.now {}
        (authorize sampleMd5 sampleFields (.steady t.plugin.server t.now t.now) sampleRequest
          {}) := by
  obtain ⟨s, hs, hstate⟩ := challenged_state
  obtain ⟨t, hrun, hactive, hnow⟩ := restarted_of_check 3600 s hs (by decide +kernel)
  have hage : t.now - s.now = 3600 := by
    rw [hnow, hstate.2.2.1]
    rfl
  have hreach : Reachable sampleStep (init samplePlatform 1700000000) s := ⟨_, hs⟩
  have hheader : sampleRequest.header? (ascii "Authorization") = some (ascii "Digest") := rfl
  have hsigned := sampleRequest_signedWith hstate
  have hanswer := answer_signed ⟨reachable_inv (by decide) hreach, hstate.1, hstate.2.1⟩ hrun
    hactive hheader hsigned t.now {}
  rw [hage, if_neg (by decide)] at hanswer
  refine ⟨s, t, hreach, hrun, hage, hsigned, hanswer, ?_⟩
  intro hdocumented
  rw [DocumentedAnswer, hanswer, if_pos (by decide)] at hdocumented
  cases congrArg Prod.fst hdocumented

end Sample

end RemoteControl.NonceLifetime
