import RemoteControl.Auth.Soundness
import RemoteControl.Lib.Transition
import Mathlib.Logic.Function.Basic

/-!
# Authorize and SetSettings

`Authorize` takes the lock for its copy of the settings and again for the secret of the nonce,
so a `SetSettings` in between mixes two configurations. The sections of the calls and the
changes of the settings as one system.

* `authorize_eq_sections`: the sections of one call, put together, are `authorize`.
* `authorize_atomic_iff`: a call answers as under one of the settings of its time, unless the
  nonce check meets settings that judge a signed nonce otherwise (`Torn`).
-/

namespace RemoteControl.AuthorizeCalls

open DigestAuthenticator Transition

/-- Where a call is: before its copy of the settings, before the nonce check, before the
challenge, or back. -/
inductive Stage
  | copy
  | check (settings : AuthSettings) (header : Bytes)
  | challenge (stale : Bool)
  | done (answer : Bool × Http.Response)

section Sections

variable (md5Hex : Bytes → Bytes) (parse : Bytes → Bytes → Option Bytes) (req : Http.Request)
  (res : Http.Response)

/-- The copy of the settings, up to the nonce check. -/
def copySection (current : AuthSettings) : Stage :=
  if current.isActive = false then .done (true, res)
  else
    match req.header? (ascii "Authorization") with
    | none => .challenge false
    | some header =>
      let field := fieldOf (parse header)
      if field "username" ≠ current.username ∨ field "realm" ≠ authRealm then .challenge false
      else
        let signedUri := requestPathOf (field "uri")
        if signedUri ≠ req.path ∧ signedUri ≠ req.target then .challenge false
        else .check current header

/-- The nonce check with the settings of its time, and the rest with the copied ones. -/
def checkSection (settings : AuthSettings) (header : Bytes) (now : Int) (current : AuthSettings) :
    Stage :=
  let field := fieldOf (parse header)
  match checkNonce md5Hex current now (field "nonce") with
  | .invalid => .challenge false
  | nonceState =>
    match expectedResponse md5Hex settings req.method field with
    | none => .challenge false
    | some expected =>
      if equalConstantTime expected (field "response") = false then .challenge false
      else if nonceState = .expired then .challenge true
      else .done (true, res)

def challengeSection (stale : Bool) (later : Int) (current : AuthSettings) : Bool × Http.Response :=
  (false, DigestAuthenticator.challenge md5Hex current later res stale)

/-- What a call that does not stand before a check comes back with. -/
def finish (later : Int) (current : AuthSettings) : Stage → Bool × Http.Response
  | .done answer => answer
  | .challenge stale => challengeSection md5Hex res stale later current
  | .copy | .check _ _ => (false, res)

def afterCopy (now : Int) (current : AuthSettings) : Stage → Stage
  | .check settings header => checkSection md5Hex parse req res settings header now current
  | stage => stage

/-- The three sections, each with what it reads, are `authorize`. -/
theorem authorize_eq_sections (reads : Reads) : authorize md5Hex parse reads req res =
    finish md5Hex res reads.challengeTime reads.challengeSettings
      (afterCopy md5Hex parse req res reads.checkTime reads.checkSettings
        (copySection parse req res reads.settings)) := by
  unfold authorize copySection
  dsimp only
  split
  · rfl
  · cases req.header? (ascii "Authorization") with
    | none => rfl
    | some header =>
      dsimp only
      split
      · rfl
      · split
        · rfl
        · unfold afterCopy checkSection
          dsimp only
          cases checkNonce md5Hex reads.checkSettings reads.checkTime
              (fieldOf (parse header) "nonce") with
          | invalid => rfl
          | valid | expired =>
            cases expectedResponse md5Hex reads.settings req.method (fieldOf (parse header)) with
            | none => rfl
            | some expected =>
              dsimp only
              split <;> rfl

end Sections

/-! ## Under one settings value -/

section OneValue

variable {md5Hex : Bytes → Bytes} {parse : Bytes → Bytes → Option Bytes} {req : Http.Request}
  {res : Http.Response} {settings settings' : AuthSettings} {header header' : Bytes}
  {now later : Int}

variable (md5Hex parse req res) in
/-- Accepted by a call without interruption that finds these settings. -/
def accepts (settings : AuthSettings) (now later : Int) : Bool :=
  (authorize md5Hex parse (.steady settings now later) req res).1

variable (md5Hex parse) in
/-- The nonce is fresh under these settings. -/
def GoodNonce (settings : AuthSettings) (header : Bytes) (now : Int) : Prop :=
  checkNonce md5Hex settings now (fieldOf (parse header) "nonce") = .valid

variable (md5Hex parse req) in
/-- The response is the one these settings ask for. -/
def GoodResponse (settings : AuthSettings) (header : Bytes) : Prop :=
  expectedResponse md5Hex settings req.method (fieldOf (parse header)) =
    some (fieldOf (parse header) "response")

instance : Decidable (GoodNonce md5Hex parse settings header now) :=
  inferInstanceAs (Decidable (checkNonce md5Hex settings now _ = .valid))

instance : Decidable (GoodResponse md5Hex parse req settings header) :=
  inferInstanceAs (Decidable (expectedResponse md5Hex settings req.method _ = _))

theorem copySection_eq_check (h : copySection parse req res settings = .check settings' header) :
    settings' = settings ∧ settings.isActive = true ∧
      req.header? (ascii "Authorization") = some header ∧
      fieldOf (parse header) "username" = settings.username := by
  unfold copySection at h
  split at h
  · cases h
  · next hactive =>
    split at h
    · cases h
    · next header₀ hheader =>
      dsimp only at h
      split at h
      · cases h
      · next hfields =>
        split at h
        · cases h
        · cases h
          rw [not_or, not_not] at hfields
          exact ⟨rfl, Bool.not_eq_false _ ▸ hactive, hheader, hfields.1⟩

/-- Other settings with the same user name get as far. -/
theorem copySection_of_username (h : copySection parse req res settings = .check settings header)
    (hactive : settings'.isActive = true) (husername : settings'.username = settings.username) :
    copySection parse req res settings' = .check settings' header := by
  obtain ⟨-, hactive₀, hheader, -⟩ := copySection_eq_check h
  simp only [copySection, hactive₀, hheader, Bool.true_eq_false, if_false] at h
  simp only [copySection, hactive, hheader, husername, Bool.true_eq_false, if_false]
  split at h
  · cases h
  · next hfields =>
    split at h
    · cases h
    · next huri => rw [if_neg hfields, if_neg huri]

variable (md5Hex parse req res settings header now) in
/-- A check lets the call through exactly for a good response with a good nonce. -/
theorem checkSection_cases (current : AuthSettings) :
    (GoodNonce md5Hex parse current header now ∧ GoodResponse md5Hex parse req settings header ∧
      checkSection md5Hex parse req res settings header now current = .done (true, res)) ∨
    (¬(GoodNonce md5Hex parse current header now ∧ GoodResponse md5Hex parse req settings header) ∧
      ∃ stale,
        checkSection md5Hex parse req res settings header now current = .challenge stale) := by
  unfold checkSection GoodNonce GoodResponse
  dsimp only
  cases checkNonce md5Hex current now (fieldOf (parse header) "nonce") with
  | invalid => exact .inr ⟨(fun h => by cases h.1), false, rfl⟩
  | valid | expired =>
    cases expectedResponse md5Hex settings req.method (fieldOf (parse header)) with
    | none => exact .inr ⟨(fun h => by cases h.2), false, rfl⟩
    | some expected =>
      dsimp only
      by_cases hresponse : expected = fieldOf (parse header) "response"
      · have hequal := (equalConstantTime_iff _ _).mpr hresponse
        subst hresponse
        simp [hequal]
      · have hequal := mt (equalConstantTime_iff _ _).mp hresponse
        simp [hequal, hresponse]

theorem accepts_eq (settings : AuthSettings) (now later : Int) :
    accepts md5Hex parse req res settings now later =
      (finish md5Hex res later settings (afterCopy md5Hex parse req res now settings
        (copySection parse req res settings))).1 := by
  rw [accepts, authorize_eq_sections]
  rfl

theorem accepts_of_inactive (h : settings.isActive = false) :
    accepts md5Hex parse req res settings now later = true := by
  rw [accepts_eq, copySection, if_pos h]
  rfl

theorem accepts_of_challenge {stale : Bool}
    (h : copySection parse req res settings = .challenge stale) :
    accepts md5Hex parse req res settings now later = false := by
  rw [accepts_eq, h]
  rfl

theorem accepts_of_check (h : copySection parse req res settings = .check settings header) :
    accepts md5Hex parse req res settings now later = true ↔
      GoodNonce md5Hex parse settings header now ∧
        GoodResponse md5Hex parse req settings header := by
  rw [accepts_eq, h, afterCopy]
  rcases checkSection_cases md5Hex parse req res settings header now settings with
    ⟨hnonce, hresponse, hdone⟩ | ⟨hnot, stale, hchallenge⟩
  · rw [hdone]
    exact iff_of_true rfl ⟨hnonce, hresponse⟩
  · rw [hchallenge]
    exact iff_of_false Bool.false_ne_true hnot

variable (parse req res) in
/-- The copy of active settings either ends in a challenge or goes on to the check. -/
theorem copySection_of_active (h : settings.isActive = true) :
    copySection parse req res settings = .challenge false ∨
      ∃ header, copySection parse req res settings = .check settings header := by
  simp only [copySection, h, Bool.true_eq_false, if_false]
  split
  · exact .inl rfl
  · split
    · exact .inl rfl
    · split
      · exact .inl rfl
      · exact .inr ⟨_, rfl⟩

/-- Where one copy goes on to the check of a header, other active settings let the call in for the
same user with a good nonce and a good response. -/
theorem accepts_iff (h : copySection parse req res settings = .check settings header)
    (hactive : settings'.isActive = true) :
    accepts md5Hex parse req res settings' now later = true ↔
      settings'.username = settings.username ∧ GoodNonce md5Hex parse settings' header now ∧
        GoodResponse md5Hex parse req settings' header := by
  constructor
  · intro haccepts
    rcases copySection_of_active parse req res hactive with
      hchallenge | ⟨header', hcheck⟩
    · cases (accepts_of_challenge hchallenge).symm.trans haccepts
    · obtain ⟨-, -, hheader, husername⟩ := copySection_eq_check h
      obtain ⟨-, -, hheader', husername'⟩ := copySection_eq_check hcheck
      obtain rfl : header' = header := Option.some.inj (hheader'.symm.trans hheader)
      exact ⟨husername'.symm.trans husername, (accepts_of_check hcheck).mp haccepts⟩
  · intro ⟨husername, hgood⟩
    exact (accepts_of_check (copySection_of_username h hactive husername)).mpr hgood

/-- With MD5 injective a response or a nonce is good for one HA1 only. -/
theorem GoodResponse.ha1_eq (hmd5 : Function.Injective md5Hex)
    (h : GoodResponse md5Hex parse req settings header)
    (h' : GoodResponse md5Hex parse req settings' header) : settings.ha1 = settings'.ha1 := by
  have heq := h.trans h'.symm
  unfold GoodResponse at h
  unfold expectedResponse at heq h
  dsimp only at heq h
  by_cases hlegacy : fieldOf (parse header) "qop" = []
  · rw [if_pos hlegacy, if_pos hlegacy] at heq
    have hstring := hmd5 (Option.some.inj heq)
    simpa only [List.append_left_inj] using hstring
  · by_cases hauth : fieldOf (parse header) "qop" = ascii "auth"
    · rw [if_neg hlegacy, if_pos hauth, if_neg hlegacy, if_pos hauth] at heq
      have hstring := hmd5 (Option.some.inj heq)
      simpa only [List.append_left_inj] using hstring
    · rw [if_neg hlegacy, if_neg hauth] at h
      cases h

theorem GoodNonce.ha1_eq (hmd5 : Function.Injective md5Hex)
    (h : GoodNonce md5Hex parse settings header now)
    (h' : GoodNonce md5Hex parse settings' header now) : settings.ha1 = settings'.ha1 := by
  have hvalid : NonceState.valid ≠ .invalid := by decide
  obtain ⟨-, ts, hts, -, hnonce⟩ := genuine_of_checkNonce (Eq.trans_ne h hvalid)
  obtain ⟨-, ts', hts', -, hnonce'⟩ := genuine_of_checkNonce (Eq.trans_ne h' hvalid)
  rw [hnonce, Separated.append_cons_inj_left hts hts'] at hnonce'
  obtain ⟨rfl, hhash⟩ := hnonce'
  have hsecret := List.append_cancel_left (hmd5 hhash)
  exact List.append_cancel_left (hmd5 hsecret)

theorem GoodResponse.of_ha1 (h : GoodResponse md5Hex parse req settings header)
    (hha1 : settings.ha1 = settings'.ha1) : GoodResponse md5Hex parse req settings' header := by
  unfold GoodResponse expectedResponse at h ⊢
  rw [← hha1]
  exact h

theorem GoodNonce.of_ha1 (h : GoodNonce md5Hex parse settings header now)
    (hha1 : settings.ha1 = settings'.ha1) : GoodNonce md5Hex parse settings' header now := by
  unfold GoodNonce checkNonce nonceSecret at h ⊢
  rw [← hha1]
  exact h

end OneValue

/-! ## Calls and changes -/

/-- A call. `now` and `seen` are kept for the statements only: the clock at its nonce check, and
the settings that were current at some moment of the call. -/
structure Call where
  req : Http.Request
  res : Http.Response
  stage : Stage := .copy
  now : Int := 0
  seen : List AuthSettings

structure System where
  settings : AuthSettings
  calls : Nat → Option Call

def init (settings : AuthSettings) : System := ⟨settings, fun _ => none⟩

inductive Action
  | enter (id : Nat) (req : Http.Request) (res : Http.Response)
  | advance (id : Nat) (clock : Int)
  | setSettings (settings : AuthSettings)

/-- A call that is not back yet sees a change. -/
def Call.observe (settings : AuthSettings) (c : Call) : Call :=
  match c.stage with
  | .done _ => c
  | _ => { c with seen := settings :: c.seen }

def System.put (s : System) (id : Nat) (c : Call) : System :=
  { s with calls := Function.update s.calls id (some c) }

theorem System.put_self (s : System) (id : Nat) (c : Call) : (s.put id c).calls id = some c :=
  Function.update_self ..

theorem System.put_of_ne (s : System) {id id' : Nat} (c : Call) (h : id' ≠ id) :
    (s.put id c).calls id' = s.calls id' :=
  Function.update_of_ne h ..

section Steps

variable (md5Hex : Bytes → Bytes) (parse : Bytes → Bytes → Option Bytes)

/-- The next section of a call, with the settings it finds. -/
def Call.advance (c : Call) (current : AuthSettings) (clock : Int) : Option Call :=
  match c.stage with
  | .copy => some { c with stage := copySection parse c.req c.res current }
  | .check settings header =>
    some { c with
      stage := checkSection md5Hex parse c.req c.res settings header clock current
      now := clock }
  | .challenge stale =>
    some { c with stage := .done (challengeSection md5Hex c.res stale clock current) }
  | .done _ => none

def step (s : System) : Action → Option System
  | .enter id req res =>
    if (s.calls id).isNone then some (s.put id { req, res, seen := [s.settings] }) else none
  | .advance id clock =>
    (s.calls id).bind fun c => (c.advance md5Hex parse s.settings clock).map (s.put id)
  | .setSettings settings => some ⟨settings, fun id => (s.calls id).map (Call.observe settings)⟩

/-- The answer is that of a call without interruption under one of the settings it has seen. -/
def Explained (c : Call) (accepted : Bool) : Prop :=
  ∃ settings ∈ c.seen, ∀ later, accepts md5Hex parse c.req c.res settings c.now later = accepted

/-- Before its nonce check the call has a good response, the copied and the current settings judge
the nonce differently, and all settings of the call's time contradict the current ones: where
these find the nonce good, all demand authentication; where they do not, those that demand it are
of the same user and find it good. -/
def Call.Torn (c : Call) (current : AuthSettings) (now : Int) : Prop :=
  match c.stage with
  | .check settings header =>
    GoodResponse md5Hex parse c.req settings header ∧
      (GoodNonce md5Hex parse current header now ↔ ¬GoodNonce md5Hex parse settings header now) ∧
      ∀ seen ∈ c.seen,
        (GoodNonce md5Hex parse current header now → seen.isActive = true) ∧
        (¬GoodNonce md5Hex parse current header now → seen.isActive = true →
          seen.username = settings.username ∧ GoodNonce md5Hex parse seen header now)
  | _ => False

/-- A nonce check that mixes two settings to an answer none of the call's settings gives. -/
def Torn (s : System) : Action → Prop
  | .advance id now => ∃ c ∈ s.calls id, c.Torn md5Hex parse s.settings now
  | _ => False

instance (c : Call) (current : AuthSettings) (now : Int) :
    Decidable (c.Torn md5Hex parse current now) :=
  match h : c.stage with
  | .check settings header =>
    decidable_of_iff
      (GoodResponse md5Hex parse c.req settings header ∧
        (GoodNonce md5Hex parse current header now ↔
          ¬GoodNonce md5Hex parse settings header now) ∧
        ∀ seen ∈ c.seen,
          (GoodNonce md5Hex parse current header now → seen.isActive = true) ∧
          (¬GoodNonce md5Hex parse current header now → seen.isActive = true →
            seen.username = settings.username ∧ GoodNonce md5Hex parse seen header now))
      (by rw [Call.Torn, h])
  | .copy | .challenge _ | .done _ => isFalse (by rw [Call.Torn, h]; exact id)

instance (s : System) : (a : Action) → Decidable (Torn md5Hex parse s a)
  | .advance id now =>
    inferInstanceAs (Decidable (∃ c ∈ s.calls id, c.Torn md5Hex parse s.settings now))
  | .enter _ _ _ | .setSettings _ => inferInstanceAs (Decidable False)

end Steps

/-! ## Steps -/

section Runs

variable {md5Hex : Bytes → Bytes} {parse : Bytes → Bytes → Option Bytes} {s t : System}
  {a : Action} {c c' : Call} {current settings : AuthSettings} {header : Bytes} {clock : Int}

/-- What holds of a new call, and is kept by its sections and by the changes it sees, holds of all
calls. -/
theorem calls_step {P : AuthSettings → Call → Prop} (hst : step md5Hex parse s a = some t)
    (h : ∀ id c, s.calls id = some c → P s.settings c)
    (henter : ∀ req res, P s.settings { req, res, seen := [s.settings] })
    (hadvance : ∀ id clock c c', a = .advance id clock → s.calls id = some c →
      c.advance md5Hex parse s.settings clock = some c' → P s.settings c')
    (hobserve : ∀ settings c, P s.settings c → P settings (c.observe settings)) :
    ∀ id c, t.calls id = some c → P t.settings c := by
  have hput : ∀ id c, P s.settings c → ∀ id' c', (s.put id c).calls id' = some c' →
      P s.settings c' := by
    intro id c hc id' c' hc'
    by_cases hid : id' = id
    · subst hid
      rw [System.put_self] at hc'
      cases hc'
      exact hc
    · rw [System.put_of_ne _ _ hid] at hc'
      exact h id' c' hc'
  cases a with
  | enter id req res =>
    rw [step] at hst
    split at hst
    · cases hst
      exact hput id _ (henter req res)
    · cases hst
  | advance id clock =>
    rw [step, Option.bind_eq_some_iff] at hst
    obtain ⟨c, hc, hst⟩ := hst
    obtain ⟨c', hc', rfl⟩ := Option.map_eq_some_iff.mp hst
    exact hput id c' (hadvance id clock c c' rfl hc hc')
  | setSettings settings =>
    cases hst
    intro id c hc
    obtain ⟨c₀, hc₀, rfl⟩ := Option.map_eq_some_iff.mp hc
    exact hobserve settings c₀ (h id c₀ hc₀)

variable (parse) in
/-- A call in progress has seen the current settings, and before its nonce check it stands where
its copied ones lead. -/
structure Call.Sound (current : AuthSettings) (c : Call) : Prop where
  current : (∀ answer, c.stage ≠ .done answer) → current ∈ c.seen
  copied : ∀ settings header, c.stage = .check settings header →
    settings ∈ c.seen ∧ copySection parse c.req c.res settings = .check settings header

variable (md5Hex parse) in
/-- From the decision on, it is explained. -/
structure Call.Decided (c : Call) : Prop where
  challenge : ∀ stale, c.stage = .challenge stale → Explained md5Hex parse c false
  done : ∀ answer, c.stage = .done answer → Explained md5Hex parse c answer.1

theorem Call.observe_stage (c : Call) (settings : AuthSettings) :
    (c.observe settings).stage = c.stage := by
  unfold Call.observe
  split <;> rfl

theorem Call.observe_eq (c : Call) (settings : AuthSettings) :
    ∃ seen, c.seen ⊆ seen ∧ c.observe settings = { c with seen := seen } := by
  unfold Call.observe
  split
  · exact ⟨c.seen, List.Subset.refl _, rfl⟩
  · exact ⟨settings :: c.seen, List.subset_cons_self _ _, rfl⟩

theorem Call.mem_observe_seen (h : ∀ answer, c.stage ≠ .done answer) :
    settings ∈ (c.observe settings).seen := by
  unfold Call.observe
  split
  · next answer hstage => exact absurd hstage (h answer)
  · exact List.mem_cons_self

theorem Explained.observe {accepted : Bool} (h : Explained md5Hex parse c accepted) :
    Explained md5Hex parse (c.observe settings) accepted := by
  obtain ⟨seen, hsub, hobserve⟩ := c.observe_eq settings
  obtain ⟨explaining, hmem, haccepted⟩ := h
  rw [hobserve]
  exact ⟨explaining, hsub hmem, haccepted⟩

theorem Call.Sound.observe (h : c.Sound parse current) :
    (c.observe settings).Sound parse settings where
  current hstage := c.mem_observe_seen fun answer => c.observe_stage settings ▸
    hstage answer
  copied copied header hstage := by
    rw [Call.observe_stage] at hstage
    obtain ⟨hmem, hcopy⟩ := h.copied copied header hstage
    obtain ⟨seen, hsub, hobserve⟩ := c.observe_eq settings
    rw [hobserve]
    exact ⟨hsub hmem, hcopy⟩

theorem Call.Decided.observe (h : c.Decided md5Hex parse) :
    (c.observe settings).Decided md5Hex parse where
  challenge stale hstage := (h.challenge stale (c.observe_stage settings ▸ hstage)).observe
  done answer hstage := (h.done answer (c.observe_stage settings ▸ hstage)).observe

theorem Call.Sound.mem_seen {stage : Stage} (h : c.Sound parse current) (hstage : c.stage = stage)
    (hopen : ∀ answer, stage ≠ .done answer) : current ∈ c.seen :=
  h.current fun answer hdone => hopen answer (hstage.symm.trans hdone)

theorem Call.Sound.advance (h : c.Sound parse current)
    (hst : c.advance md5Hex parse current clock = some c') : c'.Sound parse current := by
  unfold Call.advance at hst
  split at hst
  · next hstage =>
    have hmem := h.mem_seen hstage fun answer hdone => by cases hdone
    cases hst
    refine ⟨fun _ => hmem, fun copied header hcopy => ?_⟩
    obtain ⟨rfl, -⟩ := copySection_eq_check hcopy
    exact ⟨hmem, hcopy⟩
  · next copied header hstage =>
    have hmem := h.mem_seen hstage fun answer hdone => by cases hdone
    cases hst
    refine ⟨fun _ => hmem, fun copied' header' hcheck => ?_⟩
    rcases checkSection_cases md5Hex parse c.req c.res copied header clock current with
      ⟨-, -, hdone⟩ | ⟨-, stale, hchallenge⟩
    · cases hdone.symm.trans hcheck
    · cases hchallenge.symm.trans hcheck
  · cases hst
    exact ⟨fun hdone => absurd rfl (hdone _), fun copied header hcheck => by cases hcheck⟩
  · cases hst

/-- The copy decides only what a call under the copied settings decides. -/
theorem Call.Decided.copy (h : current ∈ c.seen) :
    Call.Decided md5Hex parse { c with stage := copySection parse c.req c.res current } := by
  cases hactive : current.isActive with
  | false =>
    refine ⟨fun stale hcopy => ?_, fun answer hcopy => ?_⟩ <;>
      simp only [copySection, hactive, if_true] at hcopy
    · cases hcopy
    · cases hcopy
      exact ⟨current, h, fun later => accepts_of_inactive hactive⟩
  | true =>
    refine ⟨fun stale hcopy => ⟨current, h, fun later => accepts_of_challenge hcopy⟩,
      fun answer hcopy => ?_⟩
    rcases copySection_of_active parse c.req c.res hactive with
      hchallenge | ⟨header, hcheck⟩
    · cases hchallenge.symm.trans hcopy
    · cases hcheck.symm.trans hcopy

theorem Call.Decided.of_done {answer : Bool × Http.Response} (hstage : c.stage = .done answer)
    (h : Explained md5Hex parse c answer.1) : c.Decided md5Hex parse where
  challenge _ hchallenge := by cases hstage.symm.trans hchallenge
  done _ hdone := by cases hstage.symm.trans hdone; exact h

theorem Call.Decided.of_challenge {stale : Bool} (hstage : c.stage = .challenge stale)
    (h : Explained md5Hex parse c false) : c.Decided md5Hex parse where
  challenge _ _ := h
  done _ hdone := by cases hstage.symm.trans hdone

/-- The nonce check decides what one of the call's settings decides, unless it is torn. -/
theorem Call.Decided.check (hmem : settings ∈ c.seen)
    (hstage : c.stage = .check settings header)
    (hcopy : copySection parse c.req c.res settings = .check settings header)
    (hok : ¬c.Torn md5Hex parse current clock) :
    Call.Decided md5Hex parse { c with
      stage := checkSection md5Hex parse c.req c.res settings header clock current
      now := clock } := by
  have hcopied : ∀ later, accepts md5Hex parse c.req c.res settings clock later = true ↔ _ :=
    fun later => accepts_of_check hcopy
  rw [Call.Torn, hstage] at hok
  dsimp only at hok
  rcases checkSection_cases md5Hex parse c.req c.res settings header clock current with
    ⟨hnonce, hresponse, hdone⟩ | ⟨hnot, stale, hchallenge⟩
  · refine .of_done hdone ?_
    by_cases hcopied_nonce : GoodNonce md5Hex parse settings header clock
    · exact ⟨settings, hmem, fun later => (hcopied later).mpr ⟨hcopied_nonce, hresponse⟩⟩
    · -- the current settings let the call in against the copied ones: some seen ones are inactive
      have hinactive : ∃ seen ∈ c.seen, seen.isActive = false := by
        by_contra hall
        refine hok ⟨hresponse, iff_of_true hnonce hcopied_nonce, fun seen hseen =>
          ⟨fun _ => ?_, fun hbad => absurd hnonce hbad⟩⟩
        rw [← Bool.not_eq_false]
        exact fun hfalse => hall ⟨seen, hseen, hfalse⟩
      obtain ⟨seen, hseen, hactive⟩ := hinactive
      exact ⟨seen, hseen, fun later => accepts_of_inactive hactive⟩
  · refine .of_challenge hchallenge ?_
    by_cases hgood : GoodNonce md5Hex parse settings header clock ∧
        GoodResponse md5Hex parse c.req settings header
    · -- they refuse against the copied ones: some seen ones refuse as well
      have hbad : ¬GoodNonce md5Hex parse current header clock := fun h => hnot ⟨h, hgood.2⟩
      have hrefuse : ∃ seen ∈ c.seen, seen.isActive = true ∧
          ¬(seen.username = settings.username ∧ GoodNonce md5Hex parse seen header clock) := by
        by_contra hall
        refine hok ⟨hgood.2, iff_of_false hbad (not_not_intro hgood.1), fun seen hseen =>
          ⟨fun h => absurd h hbad, fun _ hactive => ?_⟩⟩
        by_contra hrefused
        exact hall ⟨seen, hseen, hactive, hrefused⟩
      obtain ⟨seen, hseen, hactive, hrefused⟩ := hrefuse
      refine ⟨seen, hseen, ?_⟩
      intro later
      rw [← Bool.not_eq_true, accepts_iff hcopy hactive]
      exact fun haccepts => hrefused ⟨haccepts.1, haccepts.2.1⟩
    · refine ⟨settings, hmem, ?_⟩
      intro later
      rw [← Bool.not_eq_true, hcopied later]
      exact hgood

theorem Call.Decided.advance (hsound : c.Sound parse current) (h : c.Decided md5Hex parse)
    (hok : ¬c.Torn md5Hex parse current clock)
    (hst : c.advance md5Hex parse current clock = some c') : c'.Decided md5Hex parse := by
  unfold Call.advance at hst
  split at hst
  · next hstage =>
    cases hst
    exact .copy (hsound.mem_seen hstage fun answer hdone => by cases hdone)
  · next settings header hstage =>
    cases hst
    obtain ⟨hmem, hcopy⟩ := hsound.copied settings header hstage
    exact .check hmem hstage hcopy hok
  · next stale hstage =>
    cases hst
    exact .of_done rfl (h.challenge stale hstage)
  · cases hst

/-- Every call, at every moment, whatever the steps. -/
theorem sound_of_reachable (h : Reachable (step md5Hex parse) (init settings) s) :
    ∀ id c, s.calls id = some c → c.Sound parse s.settings := by
  refine h.invariant (fun id c hc => by cases hc) fun hsound hst =>
    calls_step (P := fun current c => c.Sound parse current) hst hsound (fun req res => ?_)
      (fun _ _ c c' _ hc hc' => ?_) fun settings c hc => hc.observe
  · exact ⟨fun _ => List.mem_singleton_self _, fun _ _ hstage => by cases hstage⟩
  · exact (hsound _ c hc).advance hc'

theorem decided_of_reachableBy
    (h : ReachableBy (step md5Hex parse) (fun s a => ¬Torn md5Hex parse s a) (init settings) s) :
    ∀ id c, s.calls id = some c → c.Sound parse s.settings ∧ c.Decided md5Hex parse := by
  refine h.invariant (fun id c hc => by cases hc) fun hsound hok hst =>
    calls_step (P := fun current c => c.Sound parse current ∧ c.Decided md5Hex parse) hst hsound
      (fun req res => ⟨?_, ?_⟩) (fun id clock c c' ha hc hc' => ?_)
      fun settings c hc => ⟨hc.1.observe, hc.2.observe⟩
  · exact ⟨fun _ => List.mem_singleton_self _, fun _ _ hstage => by cases hstage⟩
  · exact ⟨(fun _ hstage => by cases hstage), fun _ hstage => by cases hstage⟩
  · obtain ⟨hc₁, hc₂⟩ := hsound id c hc
    subst ha
    exact ⟨hc₁.advance hc', hc₂.advance hc₁ (fun htorn => hok ⟨c, hc, htorn⟩) hc'⟩

theorem step_advance {id : Nat} (hc : s.calls id = some c)
    (hst : c.advance md5Hex parse s.settings clock = some c') :
    step md5Hex parse s (.advance id clock) = some (s.put id c') := by
  rw [step, hc, Option.bind_some, hst, Option.map_some]

theorem Call.Torn.goodResponse (hstage : c.stage = .check settings header)
    (h : c.Torn md5Hex parse current clock) : GoodResponse md5Hex parse c.req settings header := by
  rw [Call.Torn, hstage] at h
  exact h.1

/-- What a torn check decides is none of what the call's settings give. -/
theorem Call.Torn.differs (hmd5 : Function.Injective md5Hex)
    (hcopy : copySection parse c.req c.res settings = .check settings header)
    (hstage : c.stage = .check settings header) (h : c.Torn md5Hex parse current clock)
    {seen : AuthSettings} (hseen : seen ∈ c.seen) (later : Int) :
    accepts md5Hex parse c.req c.res seen clock later ≠
      decide (GoodNonce md5Hex parse current header clock) := by
  rw [Call.Torn, hstage] at h
  obtain ⟨hresponse, hdiffer, hall⟩ := h
  by_cases hnonce : GoodNonce md5Hex parse current header clock
  · rw [decide_eq_true hnonce, Ne, accepts_iff hcopy ((hall seen hseen).1 hnonce)]
    rintro ⟨-, hseen_nonce, hseen_response⟩
    have hha1 : seen.ha1 = settings.ha1 := hseen_response.ha1_eq hmd5 hresponse
    exact hdiffer.mp hnonce (hseen_nonce.of_ha1 hha1)
  · have hsettings_nonce : GoodNonce md5Hex parse settings header clock :=
      not_not.mp (mt hdiffer.mpr hnonce)
    rw [decide_eq_false hnonce, Ne, Bool.not_eq_false]
    cases hactive : seen.isActive with
    | false => exact accepts_of_inactive hactive
    | true =>
      obtain ⟨husername, hseen_nonce⟩ := (hall seen hseen).2 hnonce hactive
      have hha1 : settings.ha1 = seen.ha1 := hsettings_nonce.ha1_eq hmd5 hseen_nonce
      exact (accepts_iff hcopy hactive).mpr ⟨husername, hseen_nonce, hresponse.of_ha1 hha1⟩

/-- A torn check is followed by an answer that is not explained. -/
theorem Call.Torn.continues (hmd5 : Function.Injective md5Hex) {id : Nat} (hc : s.calls id = some c)
    (hsound : c.Sound parse s.settings) (h : c.Torn md5Hex parse s.settings clock) :
    ∃ as t c' answer, run (step md5Hex parse) s (.advance id clock :: as) = some t ∧
      t.calls id = some c' ∧ c'.stage = .done answer ∧ ¬Explained md5Hex parse c' answer.1 := by
  obtain ⟨settings, header, hstage⟩ : ∃ settings header, c.stage = .check settings header := by
    unfold Call.Torn at h
    split at h
    · next settings header hstage => exact ⟨settings, header, hstage⟩
    · exact h.elim
  obtain ⟨-, hcopy⟩ := hsound.copied settings header hstage
  have hdiffers : ∀ seen ∈ c.seen, ∀ later, _ := fun seen hseen later =>
    h.differs hmd5 hcopy hstage hseen later
  have hcheck : step md5Hex parse s (.advance id clock) = some (s.put id { c with
      stage := checkSection md5Hex parse c.req c.res settings header clock s.settings
      now := clock }) := step_advance hc (by rw [Call.advance, hstage])
  rcases checkSection_cases md5Hex parse c.req c.res settings header clock s.settings with
    ⟨hnonce, -, hdone⟩ | ⟨hnot, stale, hchallenge⟩
  · refine ⟨[], _, _, _, run_cons_eq_some.mpr ⟨_, hcheck, rfl⟩, System.put_self .., hdone, ?_⟩
    rintro ⟨seen, hseen, haccepts⟩
    exact hdiffers seen hseen 0 ((haccepts 0).trans (decide_eq_true hnonce).symm)
  · have hnonce : ¬GoodNonce md5Hex parse s.settings header clock := fun hgood =>
      hnot ⟨hgood, h.goodResponse hstage⟩
    have hback : ∀ {t : System} {c' : Call}, t.calls id = some c' → c'.stage = .challenge stale →
        step md5Hex parse t (.advance id clock) = some (t.put id { c' with
          stage := .done (challengeSection md5Hex c'.res stale clock t.settings) }) :=
      fun hc' hstage' => step_advance hc' (by rw [Call.advance, hstage'])
    refine ⟨[.advance id clock], _, _, _, run_cons_eq_some.mpr ⟨_, hcheck, run_cons_eq_some.mpr
      ⟨_, hback (System.put_self ..) hchallenge, rfl⟩⟩, System.put_self .., rfl, ?_⟩
    rintro ⟨seen, hseen, haccepts⟩
    exact hdiffers seen hseen 0 ((haccepts 0).trans (decide_eq_false hnonce).symm)

/-- A call answers as one without interruption under one of the settings of its time would, in
every run without a torn nonce check; a torn one goes on to an answer none of them gives. -/
theorem authorize_atomic_iff (md5Hex : Bytes → Bytes) (parse : Bytes → Bytes → Option Bytes)
    (settings : AuthSettings) (s : System) :
    (ReachableBy (step md5Hex parse) (fun s a => ¬Torn md5Hex parse s a) (init settings) s →
      ∀ id c answer, s.calls id = some c → c.stage = .done answer →
        Explained md5Hex parse c answer.1) ∧
    (Function.Injective md5Hex → Reachable (step md5Hex parse) (init settings) s →
      ∀ a, Torn md5Hex parse s a → ∃ as t id c answer,
        run (step md5Hex parse) s (a :: as) = some t ∧ t.calls id = some c ∧
          c.stage = .done answer ∧ ¬Explained md5Hex parse c answer.1) := by
  constructor
  · intro h id c answer hc hdone
    exact (decided_of_reachableBy h id c hc).2.done answer hdone
  · intro hmd5 h a htorn
    cases a with
    | enter id req res => exact htorn.elim
    | setSettings settings => exact htorn.elim
    | advance id clock =>
      obtain ⟨c, hc, hcall⟩ := htorn
      obtain ⟨as, t, c', answer, hrest⟩ :=
        hcall.continues hmd5 hc (sound_of_reachable h id c hc)
      exact ⟨as, t, id, c', answer, hrest⟩

end Runs

/-- Authentication switched off and on again between the sections changes nothing. -/
theorem authorize_atomic_iff_sample :
    ∃ s c res, ReachableBy (step sampleMd5 sampleFields)
        (fun s a => ¬Torn sampleMd5 sampleFields s a) (init sampleSettings) s ∧
      s.calls 0 = some c ∧ c.stage = .done (true, res) ∧
      Explained sampleMd5 sampleFields c true := by
  obtain ⟨s, hrun, hs⟩ := (Option.any_eq_true _ _).mp
    (show (run (guarded (step sampleMd5 sampleFields) fun s a => ¬Torn sampleMd5 sampleFields s a)
      (init sampleSettings) [.enter 0 sampleRequest {}, .advance 0 0, .setSettings {},
        .setSettings sampleSettings, .advance 0 1700000600]).any (fun s =>
          (s.calls 0).any fun c => match c.stage with | .done answer => answer.1 | _ => false) =
        true by decide +kernel)
  obtain ⟨c, hc, hdone⟩ := (Option.any_eq_true _ _).mp hs
  have hreach : ReachableBy (step sampleMd5 sampleFields)
      (fun s a => ¬Torn sampleMd5 sampleFields s a) (init sampleSettings) s := .of_guarded ⟨_, hrun⟩
  split at hdone
  · next answer hstage =>
    have hexplained := (authorize_atomic_iff sampleMd5 sampleFields sampleSettings s).1 hreach 0 c
      answer hc hstage
    obtain ⟨accepted, res⟩ := answer
    cases hdone
    exact ⟨s, c, res, hreach, hc, hstage, hexplained⟩
  · cases hdone

/-! ## Two passwords -/

/-- What MD5 gives for `anna`'s other password, a nonce made under it, and the responses to that
nonce with the first and with the second password. -/
def mixedDigests : List (Bytes × Bytes) := [
  (ascii "anna:AIMP Remote Control:coffee",
    ascii "9dc275b86b37abd87b2a7478834a2a66"),
  (ascii "nonce:9dc275b86b37abd87b2a7478834a2a66",
    ascii "f2f385f1db2eb34e4e9dd192e0764d22"),
  (ascii "1700000000:f2f385f1db2eb34e4e9dd192e0764d22",
    ascii "5b590891e5bc3f30ae4a37a3a202b214"),
  (ascii "12eb2e737e86fc2bbc82fff2df267cf9:1700000000:5b590891e5bc3f30ae4a37" ++
    ascii "a3a202b214:00000001:c0ffee:auth:072f35beee23d0ed2708e7dc38754aee",
    ascii "6263b7f85617197cf955cc9bf9846d84"),
  (ascii "9dc275b86b37abd87b2a7478834a2a66:1700000000:5b590891e5bc3f30ae4a37" ++
    ascii "a3a202b214:00000001:c0ffee:auth:072f35beee23d0ed2708e7dc38754aee",
    ascii "b3b215b6fdda3e4f6c47e6508a0b8c46")]

def mixedMd5 (s : Bytes) : Bytes :=
  ((mixedDigests.find? fun digest => digest.1 = s).map Prod.snd).getD (sampleMd5 s)

def coffeeSettings : AuthSettings where
  enabled := true
  username := ascii "anna"
  ha1 := computeHa1 mixedMd5 (ascii "anna") (ascii "coffee")

/-- The header of a client that has kept the nonce and knows the first password. -/
def mixedFields (header k : Bytes) : Option Bytes :=
  if k = ascii "nonce" then some (ascii "1700000000:5b590891e5bc3f30ae4a37a3a202b214")
  else if k = ascii "response" then some (ascii "6263b7f85617197cf955cc9bf9846d84")
  else sampleFields header k

/-- A challenge under `coffee`, the change to `tea`, and back to `coffee` during the next call. -/
def mixedSchedule : List Action :=
  [.enter 1 { sampleRequest with headers := [] } {}, .advance 1 0, .advance 1 1700000000,
    .setSettings sampleSettings, .enter 0 sampleRequest {}, .advance 0 1700000600,
    .setSettings coffeeSettings, .advance 0 1700000600]

/-- The call is let in, though `tea` and `coffee` both refuse it. -/
theorem authorize_mixes_settings :
    ∃ s c res, run (step mixedMd5 mixedFields) (init coffeeSettings) mixedSchedule = some s ∧
      s.calls 0 = some c ∧ c.stage = .done (true, res) ∧
      ¬Explained mixedMd5 mixedFields c true := by
  obtain ⟨s, hrun, hs⟩ := (Option.any_eq_true _ _).mp
    (show (run (step mixedMd5 mixedFields) (init coffeeSettings) mixedSchedule).any (fun s =>
      (s.calls 0).any fun c =>
        (match c.stage with | .done answer => answer.1 | _ => false) &&
          c.seen.all fun seen => !accepts mixedMd5 mixedFields c.req c.res seen c.now 0) = true
        by decide +kernel)
  obtain ⟨c, hc, hanswer⟩ := (Option.any_eq_true _ _).mp hs
  obtain ⟨hdone, hrefuse⟩ := Bool.and_eq_true_iff.mp hanswer
  split at hdone
  · next answer hstage =>
    obtain ⟨accepted, res⟩ := answer
    cases hdone
    refine ⟨s, c, res, hrun, hc, hstage, ?_⟩
    intro hexplained
    obtain ⟨seen, hseen, haccepts⟩ := hexplained
    have hrefused := List.all_eq_true.mp hrefuse seen hseen
    rw [haccepts 0] at hrefused
    cases hrefused
  · cases hdone

end RemoteControl.AuthorizeCalls
