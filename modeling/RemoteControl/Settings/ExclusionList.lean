import RemoteControl.Network.RemoteControlServer
import RemoteControl.Settings.FailClosed
import RemoteControl.Settings.Persistence

/-!
# The exclusion list

The check boxes of the interfaces over any sequence of dialog sessions, each with interfaces
of its own. The list holds no interface twice, a save brings it in line with the boxes and
leaves the interfaces that have none (`exclusions_consistent`).
-/

namespace RemoteControl

open Transition

namespace OptionsFrame

/-! ## The boxes of a dialog -/

/-- `FInterfaceChecks` after one more address; `created` tells whether the player would
create a row and a box for it. -/
def addInterface (ids : List Bytes) : NetworkAddress × Bool → List Bytes
  | (a, created) =>
    if a.interfaceId ∈ ids then ids else if created then ids ++ [a.interfaceId] else ids

/-- The interfaces that get a check box in `BuildConnectionGroup`, loopback first. -/
def buildConnectionGroup (addresses : List (NetworkAddress × Bool)) : List Bytes :=
  (addresses.filter (·.1.isLoopback) ++ addresses.filter (!·.1.isLoopback)).foldl addInterface []

/-- Ids that are told apart and survive `JoinList`. -/
structure ProperIds (ids : List Bytes) : Prop where
  nodup : ids.Nodup
  proper : ∀ id ∈ ids, id ≠ [] ∧ interfaceListSeparator ∉ id

instance (ids : List Bytes) : Decidable (ProperIds ids) :=
  decidable_of_iff (ids.Nodup ∧ ∀ id ∈ ids, id ≠ [] ∧ interfaceListSeparator ∉ id)
    ⟨fun h => ⟨h.1, h.2⟩, fun h => ⟨h.nodup, h.proper⟩⟩

theorem ProperIds.concat {ids : List Bytes} {id : Bytes} (h : ProperIds ids) (hnew : id ∉ ids)
    (hid : id ≠ [] ∧ interfaceListSeparator ∉ id) : ProperIds (ids ++ [id]) where
  nodup := List.concat_eq_append ▸ h.nodup.concat hnew
  proper id' hid' := by
    rcases List.mem_append.mp hid' with hid' | hid'
    · exact h.proper id' hid'
    · rw [List.mem_singleton.mp hid']
      exact hid

theorem addInterface_properIds {ids : List Bytes} {a : NetworkAddress × Bool} (h : ProperIds ids)
    (ha : a.1.interfaceId ≠ [] ∧ interfaceListSeparator ∉ a.1.interfaceId) :
    ProperIds (addInterface ids a) := by
  unfold addInterface
  dsimp only
  split
  · exact h
  · next hnew =>
    split
    · exact h.concat hnew ha
    · exact h

/-- A dialog shows every interface once. -/
theorem buildConnectionGroup_properIds {addresses : List (NetworkAddress × Bool)}
    (h : ∀ a ∈ addresses, a.1.interfaceId ≠ [] ∧ interfaceListSeparator ∉ a.1.interfaceId) :
    ProperIds (buildConnectionGroup addresses) := by
  have hfold : ∀ (as : List (NetworkAddress × Bool)) (ids : List Bytes), as ⊆ addresses →
      ProperIds ids → ProperIds (as.foldl addInterface ids) := by
    intro as
    induction as with
    | nil => exact fun ids _ hids => hids
    | cons a as ih =>
      intro ids has hids
      have ⟨ha, has⟩ := List.cons_subset.mp has
      exact ih _ has (addInterface_properIds hids (h a ha))
  refine hfold _ [] (List.append_subset.mpr ⟨?_, ?_⟩) ⟨List.nodup_nil, by simp⟩
  · exact List.filter_subset_self _
  · exact List.filter_subset_self _

/-! ## One box after another -/

section Edits

variable {excluded : List Bytes} {check : Bytes × Bool} {checks : List (Bytes × Bool)} {id : Bytes}

theorem nodup_editExcluded (h : excluded.Nodup) : (editExcluded excluded check).Nodup := by
  unfold editExcluded
  split
  · next hadd =>
    exact List.concat_eq_append ▸ h.concat hadd.2
  · split
    · exact h.erase _
    · exact h

theorem mem_editExcluded (h : excluded.Nodup) : id ∈ editExcluded excluded check ↔
    if id = check.1 then check.2 = false else id ∈ excluded := by
  unfold editExcluded
  by_cases hid : id = check.1
  · subst hid
    rw [if_pos rfl]
    cases check.2 with
    | true =>
      by_cases hmem : check.1 ∈ excluded
      · simp [hmem, h.mem_erase_iff]
      · simp [hmem]
    | false =>
      by_cases hmem : check.1 ∈ excluded
      · simp [hmem]
      · simp [hmem]
  · rw [if_neg hid]
    split
    · simp [hid]
    · split
      · rw [h.mem_erase_iff, and_iff_right hid]
      · rfl

/-- Interfaces that the box is not for stay as they are. -/
theorem filter_editExcluded {p : Bytes → Bool} (hp : p check.1 = false) :
    (editExcluded excluded check).filter p = excluded.filter p := by
  unfold editExcluded
  split
  · rw [List.filter_append, List.filter_cons_of_neg (by simp [hp]), List.filter_nil,
      List.append_nil]
  · split
    · rw [← List.erase_filter, List.erase_of_not_mem]
      simp [hp]
    · rfl

/-! All boxes, one for each interface. -/

theorem nodup_foldl_editExcluded (h : excluded.Nodup) : (checks.foldl editExcluded excluded).Nodup := by
  induction checks generalizing excluded with
  | nil => exact h
  | cons check checks ih => exact ih (nodup_editExcluded h)

theorem filter_foldl_editExcluded {p : Bytes → Bool} (hp : ∀ check ∈ checks, p check.1 = false) :
    (checks.foldl editExcluded excluded).filter p = excluded.filter p := by
  induction checks generalizing excluded with
  | nil => rfl
  | cons check checks ih =>
    rw [List.foldl_cons, ih fun c hc => hp c (List.mem_cons_of_mem check hc),
      filter_editExcluded (hp check List.mem_cons_self)]

theorem mem_foldl_of_notMem (h : excluded.Nodup) (hid : id ∉ checks.map Prod.fst) :
    id ∈ checks.foldl editExcluded excluded ↔ id ∈ excluded := by
  induction checks generalizing excluded with
  | nil => rfl
  | cons check checks ih =>
    rw [List.map_cons, List.mem_cons, not_or] at hid
    rw [List.foldl_cons, ih (nodup_editExcluded h) hid.2, mem_editExcluded h, if_neg hid.1]

theorem mem_foldl_of_mem (h : excluded.Nodup) (hids : (checks.map Prod.fst).Nodup)
    (hcheck : check ∈ checks) :
    check.1 ∈ checks.foldl editExcluded excluded ↔ check.2 = false := by
  induction checks generalizing excluded with
  | nil => cases hcheck
  | cons first checks ih =>
    rw [List.map_cons, List.nodup_cons] at hids
    rw [List.foldl_cons]
    rcases List.mem_cons.mp hcheck with rfl | hcheck
    · -- no later box is for this interface
      rw [mem_foldl_of_notMem (nodup_editExcluded h) hids.1, mem_editExcluded h, if_pos rfl]
    · exact ih (nodup_editExcluded h) hids.2 hcheck

end Edits

/-- The interfaces that have a box. -/
def interfaceIds (c : Controls) : List Bytes := c.interfaceChecks.map Prod.fst

theorem interfaceIds_apply (c : Controls) (edit : Edit) :
    interfaceIds (edit.apply c) = interfaceIds c := by
  cases edit with
  | interface id checked =>
    unfold interfaceIds Edit.apply
    rw [List.map_map]
    apply List.map_congr_left
    intro check _
    by_cases hid : check.1 = id <;> simp [hid]
  | _ => rfl

theorem interfaceIds_showSettings (platform : Platform) (settings : Settings) (c : Controls) :
    interfaceIds (showSettings platform settings c) = interfaceIds c := by
  unfold interfaceIds showSettings
  rw [List.map_map]
  rfl

end OptionsFrame

/-! ## Sessions -/

namespace PluginSettings

open OptionsFrame

variable {md5Hex : Bytes → Bytes} {platform : Platform} {s t : PluginSettings} {a : Action}
  {c : Controls}

/-- The stored exclusion list. -/
def excluded (platform : Platform) (s : PluginSettings) : List Bytes :=
  (Settings.load platform s.store).excludedInterfaces

/-- A dialog that is created shows proper interfaces. -/
def Action.ShowsProper : Action → Prop
  | .createFrame controls => ProperIds (interfaceIds controls)
  | _ => True

instance (a : Action) : Decidable a.ShowsProper := by
  unfold Action.ShowsProper
  split <;> infer_instance

structure ExclusionsKept (platform : Platform) (s : PluginSettings) : Prop where
  nodup : (s.excluded platform).Nodup
  /-- An open dialog started from what is stored. -/
  frame : s.frame.form.isSome → s.frame.settings.excludedInterfaces = s.excluded platform
  shown : ∀ c ∈ s.frame.form, ProperIds (interfaceIds c)

theorem start_exclusionsKept {store : ConfigStore} {entered : Option Bytes}
    (h : (Settings.load platform store).excludedInterfaces.Nodup) :
    ExclusionsKept platform (start platform store entered) where
  nodup := h
  frame hsome := by cases hsome
  shown c hc := by cases hc

/-- What a save stores can be read back. -/
theorem save_excluded (h : ExclusionsKept platform s) (hform : s.frame.form = some c)
    (hst : step md5Hex platform s .save = some t) :
    t.excluded platform = c.interfaceChecks.foldl editExcluded (s.excluded platform) ∧
      t.frame.settings.excludedInterfaces = t.excluded platform ∧
      t.frame.form.map interfaceIds = some (interfaceIds c) := by
  have hframe := h.frame (by rw [hform]; rfl)
  have hproper : ∀ item ∈ (editedSettings md5Hex platform s.frame.settings c).excludedInterfaces,
      item ≠ [] ∧ interfaceListSeparator ∉ item := by
    intro item hitem
    by_cases hshown : item ∈ interfaceIds c
    · exact (h.shown c hform).proper item hshown
    · have hmem := (mem_foldl_of_notMem (hframe ▸ h.nodup) hshown).mp hitem
      rw [hframe] at hmem
      exact mem_splitList hmem
  simp only [step, saveToSettings, hform] at hst
  cases hst
  have hload := @Settings.load_excluded_of_save platform _ s.store hproper
  refine ⟨hload.trans ?_, hload.symm, rfl⟩
  exact congrArg (c.interfaceChecks.foldl editExcluded) hframe

theorem save_exclusionsKept (h : ExclusionsKept platform s) (hform : s.frame.form = some c)
    (hst : step md5Hex platform s .save = some t) : ExclusionsKept platform t := by
  have ⟨hstored, hframe, hids⟩ := save_excluded h hform hst
  refine ⟨?_, fun _ => hframe, ?_⟩
  · rw [hstored]
    exact nodup_foldl_editExcluded h.nodup
  · intro c' hc'
    rw [show t.frame.form = some c' from hc'] at hids
    rw [Option.some.inj hids]
    exact h.shown c hform

theorem step_exclusionsKept (h : ExclusionsKept platform s) (ha : a.ShowsProper)
    (hst : step md5Hex platform s a = some t) : ExclusionsKept platform t := by
  cases a with
  | createFrame controls =>
    cases hst
    cases hform : s.frame.form with
    | some c =>
      have hsame : s.frame.createFrame platform s.store controls = s.frame := by
        rw [createFrame, hform]
      rw [hsame]
      exact h
    | none =>
      have hnew : s.frame.createFrame platform s.store controls =
          loadFromSettings platform s.store { s.frame with form := some controls } := by
        rw [createFrame, hform]
      rw [hnew]
      refine ⟨h.nodup, fun _ => rfl, ?_⟩
      intro c hc
      cases hc
      rw [interfaceIds_showSettings]
      exact ha
  | load =>
    cases hst
    refine ⟨h.nodup, fun _ => rfl, ?_⟩
    intro c hc
    obtain ⟨c', hc', rfl⟩ := Option.map_eq_some_iff.mp hc
    rw [interfaceIds_showSettings]
    exact h.shown c' hc'
  | edit edit =>
    obtain ⟨c, hform, rfl⟩ := Option.map_eq_some_iff.mp hst
    refine ⟨h.nodup, ?_, ?_⟩
    · intro _
      apply h.frame
      rw [hform]
      rfl
    · intro c' hc'
      cases hc'
      rw [interfaceIds_apply]
      exact h.shown c hform
  | save =>
    cases hform : s.frame.form with
    | some c => exact save_exclusionsKept h hform hst
    | none =>
      simp only [step, hform] at hst
      cases hst
      exact h
  | destroyFrame =>
    cases hst
    refine ⟨h.nodup, ?_, ?_⟩
    · intro hsome
      cases hsome
    · intro c hc
      cases hc
  | restart =>
    cases hst
    exact start_exclusionsKept h.nodup

theorem reachable_exclusionsKept
    (h : ReachableBy (step md5Hex platform) (fun _ a => a.ShowsProper) (init platform) s) :
    ExclusionsKept platform s :=
  h.invariant (start_exclusionsKept List.nodup_nil) step_exclusionsKept

/-! ## What a save does to the list -/

/-- The store is written by a save and by nothing else. -/
def Action.Saves : Action → Prop
  | .save => True
  | _ => False

theorem step_store (ha : ¬a.Saves) (hst : step md5Hex platform s a = some t) :
    t.store = s.store := by
  cases a with
  | save => exact absurd trivial ha
  | edit edit =>
    obtain ⟨c, -, rfl⟩ := Option.map_eq_some_iff.mp hst
    rfl
  | createFrame | load | destroyFrame | restart =>
    cases hst
    rfl

/-- A save of these controls leads from `s` to `t`. -/
structure SavesBoxes (md5Hex : Bytes → Bytes) (platform : Platform) (s t : PluginSettings)
    (c : Controls) : Prop where
  shown : ∀ check ∈ c.interfaceChecks, check.1 ∈ t.excluded platform ↔ check.2 = false
  others : (t.excluded platform).filter (· ∉ interfaceIds c) =
    (s.excluded platform).filter (· ∉ interfaceIds c)
  /-- Until the next save, every dialog that loads the settings shows the boxes so. -/
  reload : ∀ u, ReachableBy (step md5Hex platform) (fun _ a => ¬a.Saves) t u →
    ∀ (frame : OptionsFrame) c', (frame.loadFromSettings platform u.store).form = some c' →
      ∀ check ∈ c.interfaceChecks, ∀ check' ∈ c'.interfaceChecks, check'.1 = check.1 →
        check'.2 = check.2

/-- A box that is loaded is ticked unless the interface is excluded. -/
theorem loadFromSettings_check {store : ConfigStore} {frame : OptionsFrame} {c : Controls}
    {check : Bytes × Bool} (hform : (frame.loadFromSettings platform store).form = some c)
    (hcheck : check ∈ c.interfaceChecks) :
    check.2 = decide (check.1 ∉ (Settings.load platform store).excludedInterfaces) := by
  obtain ⟨c', -, rfl⟩ := Option.map_eq_some_iff.mp hform
  obtain ⟨check', -, rfl⟩ := List.mem_map.mp hcheck
  rfl

theorem save_savesBoxes (h : ExclusionsKept platform s) (hform : s.frame.form = some c)
    (hst : step md5Hex platform s .save = some t) : SavesBoxes md5Hex platform s t c := by
  obtain ⟨hstored, -, -⟩ := save_excluded h hform hst
  have hshown : ∀ check ∈ c.interfaceChecks,
      check.1 ∈ t.excluded platform ↔ check.2 = false := by
    intro check hcheck
    rw [hstored]
    exact mem_foldl_of_mem h.nodup (h.shown c hform).nodup hcheck
  refine ⟨hshown, ?_, ?_⟩
  · rw [hstored]
    apply filter_foldl_editExcluded
    intro check hcheck
    have hmem : check.1 ∈ interfaceIds c := List.mem_map_of_mem hcheck
    simpa using hmem
  · intro u hu frame c' hc' check hcheck check' hcheck' hid
    have hstore : u.store = t.store :=
      hu.invariant (I := fun u => u.store = t.store) rfl
        fun hs ha hstep => (step_store ha hstep).trans hs
    have hload := loadFromSettings_check hc' hcheck'
    rw [hload, hid, hstore]
    have hmem := hshown check hcheck
    cases hchecked : check.2 with
    | false =>
      apply decide_eq_false
      exact not_not.mpr (hmem.mpr hchecked)
    | true =>
      apply decide_eq_true
      intro hexcluded
      rw [hmem.mp hexcluded] at hchecked
      cases hchecked

/-- **The exclusion list is consistent** over all dialog sessions: no interface is in it
twice, and a save excludes the shown interfaces whose box is not ticked, keeps the others in
their order, and is what every later dialog shows. -/
theorem exclusions_consistent
    (h : ReachableBy (step md5Hex platform) (fun _ a => a.ShowsProper) (init platform) s) :
    (s.excluded platform).Nodup ∧
      ∀ c t, s.frame.form = some c → step md5Hex platform s .save = some t →
        SavesBoxes md5Hex platform s t c := by
  have hkept := reachable_exclusionsKept h
  exact ⟨hkept.nodup, fun c t hform hst => save_savesBoxes hkept hform hst⟩

/-! ## A network that changes -/

def sampleDialog (checks : List (Bytes × Bool)) : Controls :=
  { sampleControls with interfaceChecks := checks }

/-- `wlan0` is unticked, and gone in the second session; there `eth0` is unticked. -/
def sampleToggles : List Action :=
  [.createFrame (sampleDialog [(ascii "lo", true), (ascii "wlan0", true)]),
    .edit (.interface (ascii "wlan0") false), .save, .destroyFrame, .restart,
    .createFrame (sampleDialog [(ascii "eth0", true), (ascii "lo", true)]),
    .edit (.interface (ascii "eth0") false)]

theorem exclusions_consistent_sample :
    ∃ s t c, run (guarded (step id samplePlatform) fun _ a => a.ShowsProper) (init samplePlatform)
        sampleToggles = some s ∧ s.frame.form = some c ∧
      step id samplePlatform s .save = some t ∧ SavesBoxes id samplePlatform s t c ∧
      t.excluded samplePlatform = [ascii "wlan0", ascii "eth0"] := by
  obtain ⟨s, hrun, hs⟩ := (Option.any_eq_true _ _).mp
    (show (run (guarded (step id samplePlatform) fun _ a => a.ShowsProper) (init samplePlatform)
      sampleToggles).any (fun s => s.frame.form.isSome &&
        (step id samplePlatform s .save).any fun t =>
          t.excluded samplePlatform = [ascii "wlan0", ascii "eth0"]) = true by decide +kernel)
  rw [Bool.and_eq_true, Option.isSome_iff_exists, Option.any_eq_true] at hs
  obtain ⟨⟨c, hform⟩, t, hst, hexcluded⟩ := hs
  exact ⟨s, t, c, hrun, hform, hst,
    (exclusions_consistent (ReachableBy.of_guarded ⟨_, hrun⟩)).2 c t hform hst,
    of_decide_eq_true hexcluded⟩

end PluginSettings

end RemoteControl
