import RemoteControl.Auth.DigestAuthenticator
import RemoteControl.Lib.Transition
import RemoteControl.Settings.OptionsFrame

/-!
# When authentication is closed

The options dialog, the player's configuration and the server's authenticator as
one system, over any sequence of dialog sessions and restarts. Ticking the
authentication box alone does not close the server (`enabled_but_open`): it is
closed exactly when a user name is stored with it and a password was entered for
that user name (`header_less_refused_iff`).
-/

namespace RemoteControl

open Transition

/-- The parts of the plugin that hold settings. `entered` is kept for the
statements only: the password last entered for the stored user name. -/
structure PluginSettings where
  store : ConfigStore
  frame : OptionsFrame
  /-- The plugin's own copy, `FSettings`. -/
  shared : Settings
  /-- What the server's authenticator was last given. -/
  server : AuthSettings
  entered : Option Bytes

namespace PluginSettings

variable (md5Hex : Bytes → Bytes) (platform : Platform)

/-- The plugin after `Initialize`. -/
def start (store : ConfigStore) (entered : Option Bytes) : PluginSettings where
  store := store
  frame := {}
  shared := Settings.load platform store
  server := (Settings.load platform store).auth
  entered := entered

def init : PluginSettings := start platform .empty none

inductive Action
  | createFrame (controls : Controls)
  | load
  | edit (edit : OptionsFrame.Edit)
  | save
  | destroyFrame
  | restart

/-- The password entered for the user name a save stores. -/
def enteredAfter (s : PluginSettings) (c : Controls) : Option Bytes :=
  if OptionsFrame.editedPassword c ≠ [] then some (OptionsFrame.editedPassword c)
  else if OptionsFrame.editedUsername s.frame.settings c ≠ s.frame.settings.auth.username then none
  else s.entered

def step (s : PluginSettings) : Action → Option PluginSettings
  | .createFrame controls =>
    some { s with frame := s.frame.createFrame platform s.store controls }
  | .load => some { s with frame := s.frame.loadFromSettings platform s.store }
  | .edit edit => s.frame.form.map fun c => { s with frame.form := some (edit.apply c) }
  | .save =>
    match s.frame.form, s.frame.saveToSettings md5Hex platform s.store with
    | some c, some (store, frame, settings) =>
      -- the settings-changed handler
      some { store, frame, shared := settings, server := settings.auth, entered := s.enteredAfter c }
    | _, _ => some s
  | .destroyFrame => some { s with frame := s.frame.destroyFrame }
  | .restart => some (start platform s.store s.entered)

/-! ## The invariant -/

/-- The stored authentication settings. -/
def stored (s : PluginSettings) : AuthSettings := (Settings.load platform s.store).auth

/-- The stored HA1 is that of the stored user name and the password entered for it. -/
def Ha1Matches (auth : AuthSettings) : Option Bytes → Prop
  | none => auth.ha1 = []
  | some password => auth.ha1 = computeHa1 md5Hex auth.username password

structure Consistent (s : PluginSettings) : Prop where
  /-- The server enforces what is stored. -/
  server : s.server = s.stored platform
  /-- An open dialog started from what is stored. -/
  frame : s.frame.form.isSome → s.frame.settings.auth = s.stored platform
  ha1 : Ha1Matches md5Hex (s.stored platform) s.entered

variable {md5Hex platform}

theorem start_consistent {store : ConfigStore} {entered : Option Bytes}
    (h : Ha1Matches md5Hex (Settings.load platform store).auth entered) :
    Consistent md5Hex platform (start platform store entered) where
  server := rfl
  frame h := by cases h
  ha1 := h

/-- The HA1 rule of `SaveToSettings` keeps HA1 and user name together. -/
theorem editedAuth_matches {s : Settings} {c : Controls} {entered : Option Bytes}
    (h : Ha1Matches md5Hex s.auth entered) :
    Ha1Matches md5Hex (OptionsFrame.editedAuth md5Hex s c)
      (if OptionsFrame.editedPassword c ≠ [] then some (OptionsFrame.editedPassword c)
        else if OptionsFrame.editedUsername s c ≠ s.auth.username then none
        else entered) := by
  unfold OptionsFrame.editedAuth
  dsimp only
  split
  · rfl
  · split
    · rfl
    · next hname =>
      rw [ne_eq, not_not] at hname
      rw [hname]
      cases entered with
      | none => exact h
      | some password => exact h

theorem save_consistent {s : PluginSettings} {c : Controls} (h : Consistent md5Hex platform s)
    (hform : s.frame.form = some c) {t : PluginSettings}
    (hst : step md5Hex platform s .save = some t) : Consistent md5Hex platform t := by
  have hauth : s.frame.settings.auth = s.stored platform := h.frame (by rw [hform]; rfl)
  have hmatches := editedAuth_matches (c := c) (hauth ▸ h.ha1)
  simp only [step, OptionsFrame.saveToSettings, hform] at hst
  cases hst
  have hstored : ∀ settings : Settings,
      (Settings.load platform (settings.save platform s.store)).auth = settings.auth :=
    fun settings => Settings.load_save_auth platform settings s.store
  exact {
    server := (hstored _).symm
    frame := fun _ => (hstored _).symm
    ha1 := by
      rw [stored, hstored]
      exact hmatches }

theorem step_consistent {s t : PluginSettings} {a : Action} (h : Consistent md5Hex platform s)
    (hst : step md5Hex platform s a = some t) : Consistent md5Hex platform t := by
  cases a with
  | createFrame controls =>
    cases hst
    refine ⟨h.server, fun hform => ?_, h.ha1⟩
    unfold OptionsFrame.createFrame
    split
    · next hsome => exact h.frame (by rw [hsome]; rfl)
    · rfl
  | load =>
    cases hst
    exact ⟨h.server, fun _ => rfl, h.ha1⟩
  | edit edit =>
    obtain ⟨c, hform, rfl⟩ := Option.map_eq_some_iff.mp hst
    exact ⟨h.server, fun _ => h.frame (by rw [hform]; rfl), h.ha1⟩
  | save =>
    cases hform : s.frame.form with
    | some c => exact save_consistent h hform hst
    | none =>
      simp only [step, hform] at hst
      cases hst
      exact h
  | destroyFrame =>
    cases hst
    exact ⟨h.server, fun hform => absurd hform (by simp [OptionsFrame.destroyFrame]), h.ha1⟩
  | restart =>
    cases hst
    exact start_consistent h.ha1

theorem reachable_consistent {s : PluginSettings}
    (h : Reachable (step md5Hex platform) (init platform) s) : Consistent md5Hex platform s :=
  h.invariant (start_consistent rfl) step_consistent

/-! ## Requests without credentials -/

theorem authorize_without_header {parse : Bytes → Bytes → Option Bytes}
    {reads : DigestAuthenticator.Reads} {req : Http.Request} {res : Http.Response}
    (h : req.header? (ascii "Authorization") = none) :
    (DigestAuthenticator.authorize md5Hex parse reads req res).1 = !reads.settings.isActive := by
  unfold DigestAuthenticator.authorize
  dsimp only
  split
  · next hinactive => simp [hinactive]
  · next hactive =>
    rw [Bool.not_eq_false] at hactive
    rw [hactive]
    split
    · rfl
    · next header hheader =>
      rw [h] at hheader
      cases hheader

theorem Consistent.isActive_iff (hmd5 : ∀ s, (md5Hex s).length = 32) {s : PluginSettings}
    (h : Consistent md5Hex platform s) :
    s.server.isActive = true ↔ (s.stored platform).enabled = true ∧
      (s.stored platform).username ≠ [] ∧ s.entered.isSome := by
  have hha1 : (s.stored platform).ha1 ≠ [] ↔ s.entered.isSome := by
    have hmatches := h.ha1
    cases hentered : s.entered with
    | none =>
      rw [hentered] at hmatches
      have hnil : (s.stored platform).ha1 = [] := hmatches
      simp [hnil]
    | some password =>
      rw [hentered] at hmatches
      have hlength : (s.stored platform).ha1.length = 32 := by
        rw [show (s.stored platform).ha1 = _ from hmatches]
        exact hmd5 _
      have hne : (s.stored platform).ha1 ≠ [] := fun hnil => by
        rw [hnil] at hlength
        cases hlength
      simpa using hne
  rw [h.server, AuthSettings.isActive, Bool.and_eq_true, Bool.and_eq_true, decide_eq_true_eq,
    decide_eq_true_eq, hha1, and_assoc]

/-- **Authentication fails closed** once it is set up: after any sequence of dialog
sessions and restarts the server enforces the stored settings, and it refuses every
request without credentials exactly when authentication is stored as enabled with a
user name for which a password was entered. -/
theorem header_less_refused_iff (hmd5 : ∀ s, (md5Hex s).length = 32) {s : PluginSettings}
    (h : Reachable (step md5Hex platform) (init platform) s) :
    s.server = s.stored platform ∧
      ∀ parse now later req res, req.header? (ascii "Authorization") = none →
        ((DigestAuthenticator.authorize md5Hex parse (.steady s.server now later) req res).1 =
            false ↔
          (s.stored platform).enabled = true ∧ (s.stored platform).username ≠ [] ∧
            s.entered.isSome) := by
  have hc := reachable_consistent h
  refine ⟨hc.server, ?_⟩
  intro parse now later req res hheader
  rw [authorize_without_header hheader, ← hc.isActive_iff hmd5, Bool.not_eq_false']
  rfl

/-! ## Two dialog sessions -/

/-- A form in which every control could be created. -/
def sampleControls : Controls where
  authGroup := some false
  userEdit := some []
  passEdit := some []
  physicalDeletionCheck := some false
  browseFilesCheck := some false
  uploadTracksCheck := some false
  uploadFolderEdit := some []
  schedulerCheck := some false
  interfaceChecks := []

def samplePlatform : Platform := ⟨fun path => path, ascii "/home/anna/Music"⟩

/-- MD5 on the one string these sessions hash. -/
def md5OfAnna (s : Bytes) : Bytes :=
  if s = ascii "anna:AIMP Remote Control:tea" then ascii "12eb2e737e86fc2bbc82fff2df267cf9"
  else List.replicate 32 48

theorem length_md5OfAnna (s : Bytes) : (md5OfAnna s).length = 32 := by
  unfold md5OfAnna
  split <;> rfl

def sampleRequest : Http.Request := ⟨ascii "GET", ascii "/", ascii "/", []⟩

/-- Ticking the box without a user name and a password stores `Enabled`, and every
request is let through. -/
theorem enabled_but_open :
    ∃ s, run (step md5OfAnna samplePlatform) (init samplePlatform)
        [.createFrame sampleControls, .edit (.auth true), .save] = some s ∧
      ((s.stored samplePlatform).enabled &&
        (DigestAuthenticator.authorize md5OfAnna (fun _ _ => none) (.steady s.server 0 0)
          sampleRequest {}).1) = true :=
  (Option.any_eq_true _ _).mp (by decide +kernel)

/-- A user name and a password close the server; storing another user name without a
password opens it again. -/
def sampleSession : List Action :=
  [.createFrame sampleControls, .edit (.auth true), .edit (.username (ascii "anna")),
    .edit (.password (ascii "tea")), .save]

def sampleRename : List Action := [.edit (.username (ascii "bob")), .save]

theorem header_less_refused_iff_sample :
    (∃ s, run (step md5OfAnna samplePlatform) (init samplePlatform) sampleSession = some s ∧
      ∀ parse now later req res, req.header? (ascii "Authorization") = none →
        (DigestAuthenticator.authorize md5OfAnna parse (.steady s.server now later) req res).1 =
          false) ∧
    ∃ s, run (step md5OfAnna samplePlatform) (init samplePlatform)
        (sampleSession ++ sampleRename) = some s ∧
      ∀ parse now later req res, req.header? (ascii "Authorization") = none →
        (DigestAuthenticator.authorize md5OfAnna parse (.steady s.server now later) req res).1 =
          true := by
  constructor
  · obtain ⟨s, hrun, hs⟩ := (Option.any_eq_true _ _).mp
      (show (run (step md5OfAnna samplePlatform) (init samplePlatform) sampleSession).any
        (fun s => (s.stored samplePlatform).enabled && s.entered.isSome &&
          (s.stored samplePlatform).username ≠ []) = true by decide +kernel)
    simp only [Bool.and_eq_true, decide_eq_true_eq] at hs
    refine ⟨s, hrun, ?_⟩
    intro parse now later req res hheader
    exact ((header_less_refused_iff length_md5OfAnna ⟨_, hrun⟩).2 parse now later req res
      hheader).mpr ⟨hs.1.1, hs.2, hs.1.2⟩
  · obtain ⟨s, hrun, hs⟩ := (Option.any_eq_true _ _).mp
      (show (run (step md5OfAnna samplePlatform) (init samplePlatform)
        (sampleSession ++ sampleRename)).any (fun s => s.entered = none) = true by decide +kernel)
    refine ⟨s, hrun, ?_⟩
    intro parse now later req res hheader
    rw [← Bool.not_eq_false, (header_less_refused_iff length_md5OfAnna ⟨_, hrun⟩).2 parse
      now later req res hheader]
    rintro ⟨-, -, hentered⟩
    rw [of_decide_eq_true hs] at hentered
    cases hentered

end PluginSettings

end RemoteControl
