import RemoteControl.Settings.FailClosed

/-!
# The stored HA1 belongs to the stored user name

The plugin's settings with the user names and passwords of all saves so far. The password
of a save stands until a save of another user name or another password (`Stands`), and the
stored HA1 is that of the standing password, or empty (`stored_ha1_belongs`).
-/

namespace RemoteControl

open Transition

/-- The fields that a save took over from the dialog. -/
structure SavedFields where
  username : Bytes
  password : Bytes
deriving DecidableEq

/-- `saves` lists all saves, newest first. -/
structure SaveHistory where
  plugin : PluginSettings
  saves : List SavedFields := []

namespace SaveHistory

variable (md5Hex : Bytes → Bytes) (platform : Platform)

def init : SaveHistory := { plugin := PluginSettings.init platform }

/-- The fields that the action saves; without a dialog nothing is saved. -/
def savedBy (s : PluginSettings) : PluginSettings.Action → Option SavedFields
  | .save => s.frame.form.map fun c => {
      username := OptionsFrame.editedUsername s.frame.settings c
      password := OptionsFrame.editedPassword c }
  | _ => none

def step (s : SaveHistory) (a : PluginSettings.Action) : Option SaveHistory :=
  (s.plugin.step md5Hex platform a).map fun plugin =>
    { plugin, saves := (savedBy s.plugin a).toList ++ s.saves }

/-- The last password that was entered in a save of this user name. -/
def lastPassword (saves : List SavedFields) (username : Bytes) : Option Bytes :=
  (saves.find? fun save => save.username = username ∧ save.password ≠ []).map
    SavedFields.password

/-- The password was saved with the user name, and every save since then kept the user name
and entered no password. -/
def Stands (saves : List SavedFields) (username password : Bytes) : Prop :=
  password ≠ [] ∧ ∃ later earlier, saves = later ++ ⟨username, password⟩ :: earlier ∧
    ∀ save ∈ later, save.username = username ∧ save.password = []

/-! ## Which password stands -/

section Stands

variable {saves : List SavedFields} {username username' password password' : Bytes}

theorem not_stands_nil : ¬Stands [] username password := by
  rintro ⟨-, later, earlier, heq, -⟩
  cases later <;> cases heq

/-- A password that is entered stands, and no other. -/
theorem stands_of_password (hne : password' ≠ []) :
    Stands (⟨username, password'⟩ :: saves) username password ↔ password = password' := by
  constructor
  · rintro ⟨-, later, earlier, heq, hlater⟩
    cases later with
    | nil =>
      cases heq
      rfl
    | cons save later =>
      obtain ⟨rfl, -⟩ := List.cons.inj heq
      exact absurd (hlater _ List.mem_cons_self).2 hne
  · rintro rfl
    exact ⟨hne, [], saves, rfl, by simp⟩

/-- Without a password the one that stood before stands, when it was saved with this name. -/
theorem stands_of_no_password :
    Stands (⟨username, []⟩ :: saves) username password ↔ Stands saves username password := by
  constructor
  · rintro ⟨hne, later, earlier, heq, hlater⟩
    cases later with
    | nil =>
      cases heq
      exact absurd rfl hne
    | cons save later =>
      obtain ⟨-, rfl⟩ := List.cons.inj heq
      exact ⟨hne, later, earlier, rfl, fun save hsave => hlater save (List.mem_cons_of_mem _ hsave)⟩
  · rintro ⟨hne, later, earlier, rfl, hlater⟩
    refine ⟨hne, ⟨username, []⟩ :: later, earlier, rfl, ?_⟩
    intro save hsave
    rcases List.mem_cons.mp hsave with rfl | hsave
    · exact ⟨rfl, rfl⟩
    · exact hlater save hsave

/-- The newest save has the user name of the password that stands. -/
theorem Stands.newest {save : SavedFields} (h : Stands (save :: saves) username password) :
    save.username = username := by
  obtain ⟨-, later, earlier, heq, hlater⟩ := h
  cases later with
  | nil =>
    cases heq
    rfl
  | cons first later =>
    obtain ⟨rfl, -⟩ := List.cons.inj heq
    exact (hlater _ List.mem_cons_self).1

/-- It is the last password that was saved with the user name. -/
theorem Stands.last (h : Stands saves username password) :
    lastPassword saves username = some password := by
  obtain ⟨hne, later, earlier, rfl, hlater⟩ := h
  have hnone : later.find? (fun save => save.username = username ∧ save.password ≠ []) = none := by
    refine List.find?_eq_none.mpr fun save hsave => ?_
    simp [(hlater save hsave).2]
  unfold lastPassword
  rw [List.find?_append, hnone, Option.none_or, List.find?_cons]
  simp [hne]

end Stands

/-! ## The invariant -/

variable {md5Hex platform} {s t : SaveHistory} {a : PluginSettings.Action}

/-- The password that is kept with the settings is the one that stands. -/
structure Kept (md5Hex : Bytes → Bytes) (platform : Platform) (s : SaveHistory) : Prop where
  consistent : PluginSettings.Consistent md5Hex platform s.plugin
  newest : ∀ save ∈ s.saves.head?, save.username = (s.plugin.stored platform).username
  entered_iff : ∀ password, s.plugin.entered = some password ↔
    Stands s.saves (s.plugin.stored platform).username password

theorem init_kept : Kept md5Hex platform (init platform) where
  consistent := PluginSettings.start_consistent rfl
  newest save hsave := by cases hsave
  entered_iff password := iff_of_false (by nofun) not_stands_nil

/-- Only a save with a dialog changes what is stored. -/
theorem step_eq_of_not_saved {s t : PluginSettings}
    (hst : PluginSettings.step md5Hex platform s a = some t) (h : savedBy s a = none) :
    t.stored platform = s.stored platform ∧ t.entered = s.entered := by
  cases a with
  | save =>
    have hform : s.frame.form = none := Option.map_eq_none_iff.mp h
    simp only [PluginSettings.step, hform] at hst
    cases hst
    exact ⟨rfl, rfl⟩
  | edit edit =>
    obtain ⟨c, -, rfl⟩ := Option.map_eq_some_iff.mp hst
    exact ⟨rfl, rfl⟩
  | createFrame | load | destroyFrame | restart =>
    cases hst
    exact ⟨rfl, rfl⟩

/-- A save stores the edited settings, and the password that was entered is kept. -/
theorem save_eq {s t : PluginSettings} {c : Controls}
    (hst : PluginSettings.step md5Hex platform s .save = some t) (hform : s.frame.form = some c) :
    t.stored platform = OptionsFrame.editedAuth md5Hex s.frame.settings c ∧
      t.entered = s.enteredAfter c := by
  simp only [PluginSettings.step, OptionsFrame.saveToSettings, hform] at hst
  cases hst
  exact ⟨Settings.load_save_auth platform _ _, rfl⟩

theorem save_kept {c : Controls} {plugin : PluginSettings} (h : Kept md5Hex platform s)
    (hst : PluginSettings.step md5Hex platform s.plugin .save = some plugin)
    (hform : s.plugin.frame.form = some c) :
    Kept md5Hex platform { plugin, saves :=
      ⟨OptionsFrame.editedUsername s.plugin.frame.settings c, OptionsFrame.editedPassword c⟩ ::
        s.saves } := by
  have ⟨hstored, hentered⟩ := save_eq hst hform
  have husername : (plugin.stored platform).username =
      OptionsFrame.editedUsername s.plugin.frame.settings c := by
    rw [hstored]
    rfl
  have hframe : s.plugin.frame.settings.auth = s.plugin.stored platform :=
    h.consistent.frame (by rw [hform]; rfl)
  refine ⟨PluginSettings.step_consistent h.consistent hst, fun save hsave => ?_, fun password => ?_⟩
  · cases hsave
    exact husername.symm
  · rw [husername, hentered, PluginSettings.enteredAfter]
    by_cases hpassword : OptionsFrame.editedPassword c = []
    · rw [if_neg (not_not.mpr hpassword), hpassword, stands_of_no_password]
      by_cases hname : OptionsFrame.editedUsername s.plugin.frame.settings c =
          s.plugin.frame.settings.auth.username
      · rw [if_neg (not_not.mpr hname), hname, hframe]
        exact h.entered_iff password
      · -- another user name: nothing stood for it
        rw [if_pos hname]
        refine iff_of_false (by nofun) fun hstands => hname ?_
        cases hsaves : s.saves with
        | nil =>
          rw [hsaves] at hstands
          exact absurd hstands not_stands_nil
        | cons save saves =>
          rw [hsaves] at hstands
          have hstored : save.username = (s.plugin.stored platform).username :=
            h.newest save (by rw [hsaves]; rfl)
          rw [hframe, ← hstored, hstands.newest]
    · rw [if_pos hpassword, stands_of_password hpassword]
      simp [eq_comm]

theorem step_kept (h : Kept md5Hex platform s) (hst : step md5Hex platform s a = some t) :
    Kept md5Hex platform t := by
  obtain ⟨plugin, hplugin, rfl⟩ := Option.map_eq_some_iff.mp hst
  cases hsaved : savedBy s.plugin a with
  | none =>
    have ⟨hstored, hentered⟩ := step_eq_of_not_saved hplugin hsaved
    refine ⟨PluginSettings.step_consistent h.consistent hplugin, ?_, ?_⟩
    · rw [hstored]
      exact h.newest
    · rw [hstored, hentered]
      exact h.entered_iff
  | some fields =>
    cases a with
    | save =>
      obtain ⟨c, hform, rfl⟩ := Option.map_eq_some_iff.mp hsaved
      exact save_kept h hplugin hform
    | createFrame | load | edit | destroyFrame | restart => cases hsaved

theorem reachable_kept (h : Reachable (step md5Hex platform) (init platform) s) :
    Kept md5Hex platform s :=
  h.invariant init_kept step_kept

theorem editedAuth_ha1_of_unchanged {settings : Settings} {c : Controls}
    (hpassword : OptionsFrame.editedPassword c = [])
    (hname : OptionsFrame.editedUsername settings c = settings.auth.username) :
    (OptionsFrame.editedAuth md5Hex settings c).ha1 = settings.auth.ha1 := by
  unfold OptionsFrame.editedAuth
  dsimp only
  rw [if_neg (not_not.mpr hpassword), if_neg (not_not.mpr hname)]

/-- **The stored HA1 is empty or that of the stored user name** and the password that
stands for it, and a save without a password and with the stored user name leaves it. -/
theorem stored_ha1_belongs (h : Reachable (step md5Hex platform) (init platform) s) :
    ((s.plugin.stored platform).ha1 = [] ∨
      ∃ password, Stands s.saves (s.plugin.stored platform).username password ∧
        (s.plugin.stored platform).ha1 =
          computeHa1 md5Hex (s.plugin.stored platform).username password) ∧
    (∀ password, Stands s.saves (s.plugin.stored platform).username password →
      lastPassword s.saves (s.plugin.stored platform).username = some password ∧
        (s.plugin.stored platform).ha1 =
          computeHa1 md5Hex (s.plugin.stored platform).username password) ∧
    ∀ c t, s.plugin.frame.form = some c → OptionsFrame.editedPassword c = [] →
      OptionsFrame.editedUsername s.plugin.frame.settings c = (s.plugin.stored platform).username →
      step md5Hex platform s .save = some t →
      (t.plugin.stored platform).ha1 = (s.plugin.stored platform).ha1 := by
  have hkept := reachable_kept h
  have hmatches := hkept.consistent.ha1
  refine ⟨?_, fun password hstands => ?_, fun c t hform hpassword hname hst => ?_⟩
  · cases hentered : s.plugin.entered with
    | none =>
      rw [hentered] at hmatches
      exact Or.inl hmatches
    | some password =>
      rw [hentered] at hmatches
      exact Or.inr ⟨password, (hkept.entered_iff password).mp hentered, hmatches⟩
  · rw [(hkept.entered_iff password).mpr hstands] at hmatches
    exact ⟨hstands.last, hmatches⟩
  · obtain ⟨plugin, hplugin, rfl⟩ := Option.map_eq_some_iff.mp hst
    have hframe := hkept.consistent.frame (by rw [hform]; rfl)
    rw [← hframe] at hname ⊢
    exact (congrArg AuthSettings.ha1 (save_eq hplugin hform).1).trans
      (editedAuth_ha1_of_unchanged hpassword hname)

open PluginSettings (md5OfAnna samplePlatform sampleSession)

/-- The password of the first save stands after a second one that enters none. -/
theorem stored_ha1_belongs_sample :
    ∃ s, run (step md5OfAnna samplePlatform) (init samplePlatform)
        (sampleSession ++ [.edit (.auth false), .save]) = some s ∧
      Stands s.saves (ascii "anna") (ascii "tea") ∧
      (s.plugin.stored samplePlatform).ha1 =
        computeHa1 md5OfAnna (s.plugin.stored samplePlatform).username (ascii "tea") := by
  obtain ⟨s, hrun, hs⟩ := (Option.any_eq_true _ _).mp
    (show (run (step md5OfAnna samplePlatform) (init samplePlatform)
      (sampleSession ++ [.edit (.auth false), .save])).any (fun s =>
        s.saves = [⟨ascii "anna", []⟩, ⟨ascii "anna", ascii "tea"⟩] ∧
          (s.plugin.stored samplePlatform).username = ascii "anna") = true by decide +kernel)
  obtain ⟨hsaves, husername⟩ := of_decide_eq_true hs
  have hstands : Stands s.saves (ascii "anna") (ascii "tea") :=
    ⟨by decide, [⟨ascii "anna", []⟩], [], hsaves, by simp⟩
  exact ⟨s, hrun, hstands, ((stored_ha1_belongs ⟨_, hrun⟩).2.1 _ (husername ▸ hstands)).2⟩

end SaveHistory

end RemoteControl
