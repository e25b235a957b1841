import RemoteControl.Aimp.LivePlayer
import RemoteControl.Commands.PanelFacts
import Mathlib.Algebra.Ring.Int.Defs

/-!
# The track the control panel shows

* `LivePlayer.selection`: that track, by playlist and index; `panelFacts_core` says that the
  panel shows nothing else of the playlists.
* `PlayerChange.KeepsSelection`: when a change that only the playlist listeners hear of leaves it.
* `selection_eq_iff`: these are the changes that do.
-/

namespace RemoteControl

variable {ι : Type} [DecidableEq ι]

/-! ## Selection -/

namespace LivePlayer

/-- The key an item is reported under; one without a place has the empty playlist id and
index 0. -/
def keyOf : Option (Bytes × Nat) → PlaylistItemKey
  | none => {}
  | some (id, i) => ⟨id, i⟩

theorem keyOf_inj {place place' : Option (Bytes × Nat)} (hne : ∀ p ∈ place, p.1 ≠ [])
    (hne' : ∀ p ∈ place', p.1 ≠ []) (h : keyOf place = keyOf place') : place = place' := by
  cases place with
  | none =>
    cases place' with
    | none => rfl
    | some p =>
      have hid : [] = p.1 := congrArg PlaylistItemKey.aimpPlaylistId h
      exact absurd hid.symm (hne' p rfl)
  | some p =>
    have hid := congrArg PlaylistItemKey.aimpPlaylistId h
    cases place' with
    | none => exact absurd hid (hne p rfl)
    | some q =>
      have hindex : ((p.2 : Nat) : Int) = (q.2 : Nat) := congrArg PlaylistItemKey.index h
      exact congrArg some (Prod.ext hid (by omega))

variable (rest : Core ι) (player : LivePlayer ι)

theorem locate_core (item : ι) : locate (player.core rest) item = keyOf (player.place item) := by
  unfold locate place
  simp only [core]
  cases howner : player.owner item with
  | none => rfl
  | some playlist =>
    obtain ⟨i, hi⟩ : ∃ i, playlist.items.idxOf? item = some i := by
      refine Option.ne_none_iff_exists'.mp ?_
      intro hnone
      exact List.idxOf?_eq_none_iff.mp hnone (mem_items_of_owner howner)
    simp [hi, keyOf, getPlaylistAIMPId, LoadedPlaylist.toPlaylist]

/-- The item `CurrentItemOf` finds. -/
def shownItem : Option ι :=
  player.playback.item.or (player.displayed.bind LoadedPlaylist.offered)

theorem currentItemOf_core :
    currentItemOf (player.core rest) player.service = player.shownItem := by
  unfold currentItemOf shownItem displayed
  simp only [core, service, ← Option.map_or]
  cases player.playback.item with
  | some item => rfl
  | none =>
    cases (player.playback.playlist.bind player.playlist?).or
        (player.active.bind player.playlist?) with
    | none => rfl
    | some playlist =>
      simp only [Option.map_some, LoadedPlaylist.toPlaylist_hasProperties, if_true,
        LoadedPlaylist.focusedObject_or_playbackCursor, LoadedPlaylist.toPlaylist_items,
        List.length_map, LoadedPlaylist.toPlaylist_getItem_zero, Option.none_or,
        Option.bind_some, LoadedPlaylist.offered_eq]

/-- The track the panel shows, and whether it shows it as a radio. -/
def selection : Option (PlaylistItemKey × Bool) :=
  player.shownItem.map fun item =>
    (keyOf (player.place item), player.playback.state ≠ 0 && isUrl rest item)

theorem trackFacts_core :
    trackFacts (player.core rest) player.service = (player.selection rest).map fun shown => {
      key := shown.1
      progress :=
        if player.playback.state ≠ 0 then some (castInt 64 player.playback.duration.ceil, shown.2)
        else none } := by
  have hurl : ∀ item, isUrl (player.core rest) item = isUrl rest item := fun _ => rfl
  unfold trackFacts selection
  rw [currentItemOf_core, Option.map_map]
  congr 1
  funext item
  by_cases hstate : player.playback.state = 0
  · simp [locate_core, service, hstate]
  · simp [locate_core, service, hstate, hurl]

/-- Beside the selection the panel shows these. -/
theorem panelFacts_core :
    panelFacts (player.core rest) = some {
      playbackState := playbackStateName player.playback.state
      volume := lround (player.volume * 100)
      muteModeOn := player.mute
      repeatModeOn := player.repeatMode
      shuffleModeOn := player.shuffle
      radioCaptureModeOn := player.radioCap
      track := (player.selection rest).map fun shown => {
        key := shown.1
        progress :=
          if player.playback.state ≠ 0 then
            some (castInt 64 player.playback.duration.ceil, shown.2)
          else none } } := by
  rw [← trackFacts_core]
  rfl

variable {rest player}

/-- In one playback state, the same track on the panel is the same selection. -/
theorem selection_eq_of_track {player' : LivePlayer ι}
    (hstate : player'.playback.state = player.playback.state)
    (h : (panelFacts (player'.core rest)).bind PanelFacts.track =
      (panelFacts (player.core rest)).bind PanelFacts.track) :
    player'.selection rest = player.selection rest := by
  have htrack : trackFacts (player'.core rest) player'.service =
      trackFacts (player.core rest) player.service := h
  rw [trackFacts_core, trackFacts_core] at htrack
  unfold selection at htrack ⊢
  cases hitem : player.shownItem with
  | none =>
    cases hitem' : player'.shownItem with
    | none => rfl
    | some item' => simp [hitem, hitem'] at htrack
  | some item =>
    cases hitem' : player'.shownItem with
    | none => simp [hitem, hitem'] at htrack
    | some item' =>
      by_cases hstopped : player.playback.state = 0
      · simp_all
      · simp_all

end LivePlayer

/-! ## Changes that keep the selection -/

namespace LivePlayer

variable (rest : Core ι) (player : LivePlayer ι)

/-- A current item stays at its index of its playlist. Without one the playlist on display
offers the same index, and unless the player is stopped, no radio in the place of a file. -/
def KeepsOnReplace (after : LoadedPlaylist ι) : Prop :=
  match player.playback.item with
  | some item => ∀ old ∈ player.playlists, old.id = after.id →
      after.items.idxOf? item = old.items.idxOf? item
  | none => ∀ old ∈ player.displayed, old.id = after.id → after.offer = old.offer ∧
      (player.playback.state = 0 ∨ after.offered.map (isUrl rest) = old.offered.map (isUrl rest))

/-- With neither a current item nor a playing playlist, the active playlist is on display. -/
def KeepsOnActivate (id : Bytes) : Prop :=
  player.playback.item = none → player.playback.playlist = none → player.active = some id ∨
    (∀ old ∈ player.displayed, old.items = []) ∧ ∀ next ∈ player.playlist? id, next.items = []

def KeepsOnAdd (playlist : LoadedPlaylist ι) : Prop :=
  ∀ item ∈ player.playback.item, item ∉ playlist.items

/-- The current item, or else the playlist on display, is not removed; one without items
may be, when another without items takes its place. -/
def KeepsOnDrop (id : Bytes) : Prop :=
  match player.playback.item with
  | some item => ∀ old ∈ player.playlists, old.id = id → item ∉ old.items
  | none => ∀ old ∈ player.displayed, old.id = id → old.items = [] ∧
      ∀ next ∈ (player.drop id).displayed, next.items = []

instance (after : LoadedPlaylist ι) : Decidable (player.KeepsOnReplace rest after) :=
  match hitem : player.playback.item with
  | some item =>
    decidable_of_iff (∀ old ∈ player.playlists, old.id = after.id →
      after.items.idxOf? item = old.items.idxOf? item) (by rw [KeepsOnReplace, hitem])
  | none =>
    decidable_of_iff (∀ old ∈ player.displayed, old.id = after.id → after.offer = old.offer ∧
      (player.playback.state = 0 ∨ after.offered.map (isUrl rest) = old.offered.map (isUrl rest)))
      (by rw [KeepsOnReplace, hitem])

instance (id : Bytes) : Decidable (player.KeepsOnActivate id) :=
  inferInstanceAs (Decidable (player.playback.item = none → player.playback.playlist = none → _))

instance (playlist : LoadedPlaylist ι) : Decidable (player.KeepsOnAdd playlist) :=
  inferInstanceAs (Decidable (∀ item ∈ player.playback.item, item ∉ playlist.items))

instance (id : Bytes) : Decidable (player.KeepsOnDrop id) :=
  match hitem : player.playback.item with
  | some item =>
    decidable_of_iff (∀ old ∈ player.playlists, old.id = id → item ∉ old.items)
      (by rw [KeepsOnDrop, hitem])
  | none =>
    decidable_of_iff (∀ old ∈ player.displayed, old.id = id → old.items = [] ∧
      ∀ next ∈ (player.drop id).displayed, next.items = []) (by rw [KeepsOnDrop, hitem])

end LivePlayer

/-- The changes that only the playlist listeners hear of keep the selection. -/
def PlayerChange.KeepsSelection (rest : Core ι) (player : LivePlayer ι) : PlayerChange ι → Prop
  | .changed after _ => player.KeepsOnReplace rest after
  | .activated id => player.KeepsOnActivate id
  | .added playlist => player.KeepsOnAdd playlist
  | .removed id => player.KeepsOnDrop id
  | .playback _ _ | .property _ | .tick _ | .unrelated _ => True

instance (rest : Core ι) (player : LivePlayer ι) (change : PlayerChange ι) :
    Decidable (change.KeepsSelection rest player) :=
  match change with
  | .changed after _ => inferInstanceAs (Decidable (player.KeepsOnReplace rest after))
  | .activated id => inferInstanceAs (Decidable (player.KeepsOnActivate id))
  | .added playlist => inferInstanceAs (Decidable (player.KeepsOnAdd playlist))
  | .removed id => inferInstanceAs (Decidable (player.KeepsOnDrop id))
  | .playback _ _ | .property _ | .tick _ | .unrelated _ => isTrue trivial

namespace LivePlayer

variable {rest : Core ι} {player : LivePlayer ι}

/-- What a playlist on display has the panel show. -/
def lineUp (rest : Core ι) (player : LivePlayer ι) (playlist : LoadedPlaylist ι) :
    Option (PlaylistItemKey × Bool) :=
  playlist.offer.map fun i =>
    (⟨playlist.id, i⟩, player.playback.state ≠ 0 && playlist.offered.any (isUrl rest))

theorem selection_of_item {item : ι} (hitem : player.playback.item = some item) :
    player.selection rest =
      some (keyOf (player.place item), player.playback.state ≠ 0 && isUrl rest item) := by
  unfold selection shownItem
  rw [hitem]
  rfl

theorem selection_of_displayed (h : player.Consistent) (hitem : player.playback.item = none) :
    player.selection rest = player.displayed.bind (player.lineUp rest) := by
  unfold selection shownItem
  rw [hitem, Option.none_or, Option.map_bind]
  cases hd : player.displayed with
  | none => rfl
  | some playlist =>
    have hmem := h.displayed_mem hd
    simp only [Option.bind_some, Function.comp]
    unfold lineUp LoadedPlaylist.offered
    cases hoffer : playlist.offer with
    | none => rfl
    | some i =>
      have hi := LoadedPlaylist.offer_lt hoffer
      have hplace : player.place playlist.items[i] = some (playlist.id, i) :=
        h.place_eq_some.mpr ⟨playlist, hmem, rfl, List.getElem?_eq_getElem hi⟩
      simp [hi, hplace, keyOf]

/-- While an item is played the selection is its place. -/
theorem selection_eq_iff_place {player' : LivePlayer ι} {item : ι}
    (hitem : player.playback.item = some item) (hitem' : player'.playback.item = some item)
    (hstate : player'.playback.state = player.playback.state) :
    player'.selection rest = player.selection rest ↔ player'.place item = player.place item := by
  rw [selection_of_item hitem, selection_of_item hitem', hstate]
  constructor
  · intro h
    have hkey := congrArg Prod.fst (Option.some.inj h)
    exact keyOf_inj (fun _ => place_id_ne_nil) (fun _ => place_id_ne_nil) hkey
  · intro h
    rw [h]

/-! ### One playlist changes -/

theorem place_replace_iff (h : player.Consistent) {after : LoadedPlaylist ι}
    (h' : (player.replace after).Consistent) {item : ι} :
    (player.replace after).place item = player.place item ↔
      ∀ old ∈ player.playlists, old.id = after.id →
        after.items.idxOf? item = old.items.idxOf? item := by
  constructor
  · intro hplace old hold hid
    have hafter : after ∈ (player.replace after).playlists :=
      mem_replace.mpr (Or.inr ⟨rfl, old, hold, hid⟩)
    refine Option.ext ?_
    intro i
    rw [h'.idxOf?_eq_some hafter, h.idxOf?_eq_some hold, ← h'.place_eq_some_of_mem hafter,
      ← h.place_eq_some_of_mem hold, hplace, hid]
  · intro hindex
    have hitems : ∀ old ∈ player.playlists, old.id = after.id → ∀ i : Nat,
        after.items[i]? = some item ↔ old.items[i]? = some item := by
      intro old hold hid i
      have hafter : after ∈ (player.replace after).playlists :=
        mem_replace.mpr (Or.inr ⟨rfl, old, hold, hid⟩)
      rw [← h'.idxOf?_eq_some hafter, ← h.idxOf?_eq_some hold, hindex old hold hid]
    refine Option.ext fun ⟨id, i⟩ => ?_
    rw [h'.place_eq_some, h.place_eq_some]
    constructor
    · rintro ⟨playlist, hmem, rfl, hi⟩
      rcases mem_replace.mp hmem with ⟨hmem, -⟩ | ⟨rfl, old, hold, hid⟩
      · exact ⟨playlist, hmem, rfl, hi⟩
      · exact ⟨old, hold, hid, (hitems old hold hid i).mp hi⟩
    · rintro ⟨playlist, hmem, rfl, hi⟩
      by_cases hid : playlist.id = after.id
      · exact ⟨after, mem_replace.mpr (Or.inr ⟨rfl, playlist, hmem, hid⟩), hid.symm,
          (hitems playlist hmem hid i).mpr hi⟩
      · exact ⟨playlist, mem_replace.mpr (Or.inl ⟨hmem, hid⟩), rfl, hi⟩

omit [DecidableEq ι] in
theorem lineUp_eq_iff {a b : LoadedPlaylist ι} (hid : a.id = b.id) :
    player.lineUp rest a = player.lineUp rest b ↔
      a.offer = b.offer ∧ (player.playback.state = 0 ∨
        a.offered.map (isUrl rest) = b.offered.map (isUrl rest)) := by
  unfold lineUp LoadedPlaylist.offered
  cases ha : a.offer with
  | none =>
    cases hb : b.offer with
    | none => simp
    | some j => simp
  | some i =>
    have hi := LoadedPlaylist.offer_lt ha
    cases hb : b.offer with
    | none => simp
    | some j =>
      have hj := LoadedPlaylist.offer_lt hb
      by_cases hstate : player.playback.state = 0
      · simp [hid, hstate]
      · simp [hid, hstate, hi, hj]

omit [DecidableEq ι] in
theorem displayed_replace (after : LoadedPlaylist ι) :
    (player.replace after).displayed =
      player.displayed.map fun playlist => if playlist.id = after.id then after else playlist := by
  have hfind : ∀ id, (player.replace after).playlist? id = (player.playlist? id).map
      fun playlist => if playlist.id = after.id then after else playlist := by
    intro id
    unfold playlist? replace
    rw [List.find?_map]
    congr 2
    funext playlist
    by_cases hid : playlist.id = after.id
    · simp [hid]
    · simp [hid]
  unfold displayed
  rw [Option.map_or, Option.map_bind, Option.map_bind]
  simp only [hfind, Function.comp_def]
  rfl

theorem selection_replace_iff (h : player.Consistent) {after : LoadedPlaylist ι}
    (h' : (player.replace after).Consistent) :
    (player.replace after).selection rest = player.selection rest ↔
      player.KeepsOnReplace rest after := by
  unfold KeepsOnReplace
  cases hitem : player.playback.item with
  | some item =>
    have hitem' : (player.replace after).playback.item = some item := hitem
    exact (selection_eq_iff_place hitem hitem' rfl).trans (place_replace_iff h h')
  | none =>
    have hitem' : (player.replace after).playback.item = none := hitem
    rw [selection_of_displayed h hitem, selection_of_displayed h' hitem', displayed_replace]
    cases player.displayed with
    | none => simp
    | some old =>
      by_cases hid : old.id = after.id
      · have hlineUp : player.lineUp rest after = player.lineUp rest old ↔ _ :=
          lineUp_eq_iff hid.symm
        simp only [Option.map_some, Option.bind_some, Option.mem_def,
          Option.some.injEq, forall_eq', hid, true_imp_iff, ← hlineUp]
        exact Iff.rfl
      · simp only [Option.map_some, Option.bind_some, Option.mem_def,
          Option.some.injEq, forall_eq', hid, false_imp_iff, iff_true]
        rfl

/-! ### Another playlist is active -/

omit [DecidableEq ι] in
theorem lineUp_eq_none {playlist : LoadedPlaylist ι} :
    player.lineUp rest playlist = none ↔ playlist.items = [] := by
  unfold lineUp
  rw [Option.map_eq_none_iff]
  constructor
  · intro hoffer
    by_contra hitems
    simp [LoadedPlaylist.offer, hitems] at hoffer
  · intro hitems
    cases hoffer : playlist.offer with
    | none => rfl
    | some i =>
      have hi := LoadedPlaylist.offer_lt hoffer
      simp [hitems] at hi

omit [DecidableEq ι] in
/-- Different playlists show different tracks, unless both have none. -/
theorem bind_lineUp_eq_iff {shown next : Option (LoadedPlaylist ι)}
    (hid : ∀ a ∈ next, ∀ b ∈ shown, a.id ≠ b.id) :
    next.bind (player.lineUp rest) = shown.bind (player.lineUp rest) ↔
      (∀ b ∈ shown, b.items = []) ∧ ∀ a ∈ next, a.items = [] := by
  constructor
  · intro heq
    have hnone : shown.bind (player.lineUp rest) = none := by
      by_contra hsome
      obtain ⟨track, htrack⟩ := Option.ne_none_iff_exists'.mp hsome
      obtain ⟨b, hb, htrack'⟩ := Option.bind_eq_some_iff.mp htrack
      obtain ⟨a, ha, htrack⟩ := Option.bind_eq_some_iff.mp (heq.trans htrack)
      obtain ⟨i, -, hi⟩ := Option.map_eq_some_iff.mp htrack
      obtain ⟨j, -, hj⟩ := Option.map_eq_some_iff.mp htrack'
      have hkey := congrArg (fun t => t.1.aimpPlaylistId) (hi.trans hj.symm)
      exact hid a ha b hb hkey
    rw [hnone] at heq
    exact ⟨fun b hb => lineUp_eq_none.mp (Option.bind_eq_none_iff.mp hnone b hb),
      fun a ha => lineUp_eq_none.mp (Option.bind_eq_none_iff.mp heq a ha)⟩
  · rintro ⟨hshown, hnext⟩
    rw [Option.bind_eq_none_iff.mpr fun a ha => lineUp_eq_none.mpr (hnext a ha),
      Option.bind_eq_none_iff.mpr fun b hb => lineUp_eq_none.mpr (hshown b hb)]

theorem selection_activate_iff (h : player.Consistent) {id : Bytes}
    (h' : (player.activate id).Consistent) :
    (player.activate id).selection rest = player.selection rest ↔ player.KeepsOnActivate id := by
  unfold KeepsOnActivate
  cases hitem : player.playback.item with
  | some item =>
    have hitem' : (player.activate id).playback.item = some item := hitem
    rw [selection_eq_iff_place hitem hitem' rfl]
    simp only [reduceCtorEq, false_imp_iff, iff_true]
    rfl
  | none =>
    have hitem' : (player.activate id).playback.item = none := hitem
    rw [selection_of_displayed h hitem, selection_of_displayed h' hitem']
    cases hplaying : player.playback.playlist with
    | some playing =>
      have hplaying' : (player.activate id).playback.playlist = some playing := hplaying
      rw [h.displayed_of_playing hplaying, h'.displayed_of_playing hplaying']
      simp only [reduceCtorEq, false_imp_iff, imp_true_iff, iff_true]
      rfl
    | none =>
      have hplaying' : (player.activate id).playback.playlist = none := hplaying
      rw [displayed_of_active hplaying, displayed_of_active hplaying']
      change (player.playlist? id).bind (player.lineUp rest) = _ ↔ _
      by_cases hactive : player.active = some id
      · simp [hactive]
      · rw [bind_lineUp_eq_iff]
        · simp [hactive]
        · intro next hnext old hold hid
          obtain ⟨active, hactive', hold⟩ := Option.bind_eq_some_iff.mp hold
          rw [(h.playlist?_eq_some.mp hnext).2, (h.playlist?_eq_some.mp hold).2] at hid
          exact hactive (hid ▸ hactive')

/-! ### A playlist is added -/

theorem place_add_iff (h : player.Consistent) {playlist : LoadedPlaylist ι}
    (h' : (player.add playlist).Consistent) {item : ι} :
    (player.add playlist).place item = player.place item ↔ item ∉ playlist.items := by
  have hnew : playlist ∈ (player.add playlist).playlists := by simp [add]
  have hold : ∀ p ∈ player.playlists, p.id ≠ playlist.id := by
    have hids := h'.ids_nodup
    intro p hp hid
    simp only [add, List.map_append, List.map_cons, List.map_nil] at hids
    exact (List.nodup_append.mp hids).2.2 p.id (List.mem_map_of_mem hp) playlist.id (by simp) hid
  constructor
  · intro hplace hitem
    obtain ⟨i, hi⟩ := List.getElem?_of_mem hitem
    have hplace' := (h'.place_eq_some_of_mem hnew).mpr hi
    obtain ⟨p, hp, hid, -⟩ := h.place_eq_some.mp (hplace ▸ hplace')
    exact hold p hp hid
  · intro hitem
    refine Option.ext fun ⟨id, i⟩ => ?_
    rw [h'.place_eq_some, h.place_eq_some]
    constructor
    · rintro ⟨p, hp, hid, hi⟩
      rcases List.mem_append.mp hp with hp | hp
      · exact ⟨p, hp, hid, hi⟩
      · cases List.mem_singleton.mp hp
        exact absurd (List.mem_of_getElem? hi) hitem
    · rintro ⟨p, hp, hid, hi⟩
      exact ⟨p, List.mem_append_left _ hp, hid, hi⟩

omit [DecidableEq ι] in
theorem displayed_add (h : player.Consistent) (playlist : LoadedPlaylist ι) :
    (player.add playlist).displayed = player.displayed := by
  have hfind : ∀ {o : Option Bytes}, (∀ id ∈ o, ∃ p ∈ player.playlists, p.id = id) →
      o.bind (player.add playlist).playlist? = o.bind player.playlist? := by
    intro o hloaded
    cases o with
    | none => rfl
    | some id =>
      obtain ⟨p, hp, hid⟩ := hloaded id rfl
      have hsome : player.playlist? id = some p := h.playlist?_eq_some.mpr ⟨hp, hid⟩
      have hfind : player.playlists.find? (fun q => q.id = id) = some p := hsome
      simp only [Option.bind_some, hsome]
      unfold playlist? add
      rw [List.find?_append, hfind, Option.some_or]
  unfold displayed
  rw [← hfind h.active_loaded, ← hfind h.playing_loaded]
  rfl

theorem selection_add_iff (h : player.Consistent) {playlist : LoadedPlaylist ι}
    (h' : (player.add playlist).Consistent) :
    (player.add playlist).selection rest = player.selection rest ↔
      player.KeepsOnAdd playlist := by
  unfold KeepsOnAdd
  cases hitem : player.playback.item with
  | some item =>
    have hitem' : (player.add playlist).playback.item = some item := hitem
    rw [selection_eq_iff_place hitem hitem' rfl, place_add_iff h h']
    simp
  | none =>
    have hitem' : (player.add playlist).playback.item = none := hitem
    rw [selection_of_displayed h hitem, selection_of_displayed h' hitem', displayed_add h]
    simp only [Option.mem_def, reduceCtorEq, false_imp_iff, imp_true_iff, iff_true]
    rfl

/-! ### A playlist is removed -/

omit [DecidableEq ι] in
theorem mem_drop {id : Bytes} {playlist : LoadedPlaylist ι} :
    playlist ∈ (player.drop id).playlists ↔ playlist ∈ player.playlists ∧ playlist.id ≠ id := by
  simp [drop]

theorem place_drop_iff (h : player.Consistent) {id : Bytes} (h' : (player.drop id).Consistent)
    {item : ι} :
    (player.drop id).place item = player.place item ↔
      ∀ old ∈ player.playlists, old.id = id → item ∉ old.items := by
  constructor
  · intro hplace old hold hid hitem
    obtain ⟨i, hi⟩ := List.getElem?_of_mem hitem
    have hplace' := (h.place_eq_some_of_mem hold).mpr hi
    obtain ⟨p, hp, hpid, -⟩ := h'.place_eq_some.mp (hplace.trans hplace')
    exact (mem_drop.mp hp).2 (hpid.trans hid)
  · intro hitems
    refine Option.ext fun ⟨q, i⟩ => ?_
    rw [h'.place_eq_some, h.place_eq_some]
    constructor
    · rintro ⟨p, hp, hpid, hi⟩
      exact ⟨p, (mem_drop.mp hp).1, hpid, hi⟩
    · rintro ⟨p, hp, hpid, hi⟩
      refine ⟨p, mem_drop.mpr ⟨hp, fun hid => ?_⟩, hpid, hi⟩
      exact hitems p hp hid (List.mem_of_getElem? hi)

omit [DecidableEq ι] in
/-- A playlist on display that is not removed stays on display. -/
theorem displayed_drop_of_ne (h : player.Consistent) {id : Bytes}
    (h' : (player.drop id).Consistent) {old : LoadedPlaylist ι}
    (hold : player.displayed = some old) (hid : old.id ≠ id) :
    (player.drop id).displayed = some old := by
  have hmem : old ∈ (player.drop id).playlists := mem_drop.mpr ⟨h.displayed_mem hold, hid⟩
  cases hplaying : player.playback.playlist with
  | some playing =>
    rw [h.displayed_of_playing hplaying] at hold
    have hplayingId : playing = old.id := (h.playlist?_eq_some.mp hold).2.symm
    have hplaying' : (player.drop id).playback.playlist = some old.id := by
      simp [drop, hplaying, hplayingId, hid]
    rw [h'.displayed_of_playing hplaying', h'.playlist?_eq_some]
    exact ⟨hmem, rfl⟩
  | none =>
    rw [displayed_of_active hplaying] at hold
    obtain ⟨active, hactive, hold⟩ := Option.bind_eq_some_iff.mp hold
    have hactiveId : active = old.id := (h.playlist?_eq_some.mp hold).2.symm
    have hplaying' : (player.drop id).playback.playlist = none := by simp [drop, hplaying]
    have hactive' : (player.drop id).active = some old.id := by
      simp [drop, hactive, hactiveId, hid]
    rw [displayed_of_active hplaying', hactive', Option.bind_some, h'.playlist?_eq_some]
    exact ⟨hmem, rfl⟩

omit [DecidableEq ι] in
/-- Without a playlist on display there is neither a playing nor an active one. -/
theorem displayed_drop_of_none (h : player.Consistent) {id : Bytes}
    (hold : player.displayed = none) : (player.drop id).displayed = none := by
  have ⟨hplaying, hactive⟩ := Option.or_eq_none_iff.mp hold
  have hnone : ∀ {o : Option Bytes}, (∀ id ∈ o, ∃ p ∈ player.playlists, p.id = id) →
      o.bind player.playlist? = none → o = none := by
    intro o hloaded hbind
    cases o with
    | none => rfl
    | some id =>
      obtain ⟨p, hp, hid⟩ := hloaded id rfl
      have hfind : player.playlist? id = some p := h.playlist?_eq_some.mpr ⟨hp, hid⟩
      rw [Option.bind_some, hfind] at hbind
      cases hbind
  unfold displayed drop
  simp [hnone h.active_loaded hactive, hnone h.playing_loaded hplaying]

theorem selection_drop_iff (h : player.Consistent) {id : Bytes}
    (h' : (player.drop id).Consistent) :
    (player.drop id).selection rest = player.selection rest ↔ player.KeepsOnDrop id := by
  unfold KeepsOnDrop
  cases hitem : player.playback.item with
  | some item =>
    have hitem' : (player.drop id).playback.item = some item := hitem
    exact (selection_eq_iff_place hitem hitem' rfl).trans (place_drop_iff h h')
  | none =>
    have hitem' : (player.drop id).playback.item = none := hitem
    have hlineUp : (player.drop id).lineUp rest = player.lineUp rest := rfl
    rw [selection_of_displayed h hitem, selection_of_displayed h' hitem', hlineUp]
    cases hold : player.displayed with
    | none => simp [displayed_drop_of_none h hold]
    | some old =>
      by_cases hid : old.id = id
      · rw [bind_lineUp_eq_iff]
        · simp [hid]
        · intro next hnext shown hshown heq
          cases hshown
          exact (mem_drop.mp (h'.displayed_mem hnext)).2 (heq.trans hid)
      · rw [displayed_drop_of_ne h h' hold hid]
        simp [hid]

end LivePlayer

/-! ## All changes -/

/-- The changes that only the playlist listeners hear of. -/
def PlayerChange.ofPlaylists : PlayerChange ι → Bool
  | .changed _ _ | .activated _ | .added _ | .removed _ => true
  | .playback _ _ | .property _ | .tick _ | .unrelated _ => false

/-- `KeepsSelection` leaves out only changes of what the panel shows. -/
theorem PlayerChange.selection_eq_iff {rest : Core ι} {player player' : LivePlayer ι}
    {change : PlayerChange ι} (h : player.Consistent) (h' : player'.Consistent)
    (happly : change.apply player = some player')
    (hof : change.ofPlaylists = true) :
    player'.selection rest = player.selection rest ↔ change.KeepsSelection rest player := by
  cases applied_of_apply happly with
  | changed after flags => exact LivePlayer.selection_replace_iff h h'
  | activated id => exact LivePlayer.selection_activate_iff h h'
  | added playlist => exact LivePlayer.selection_add_iff h h'
  | removed id => exact LivePlayer.selection_drop_iff h h'
  | playback | property | tick | unrelated => cases hof

/-- Playlist changes reach the panel through the selection alone. -/
theorem PlayerChange.panelFacts_of_playlists {rest : Core ι} {player player' : LivePlayer ι}
    {change : PlayerChange ι} (happly : change.apply player = some player')
    (hof : change.ofPlaylists = true)
    (hselection : player'.selection rest = player.selection rest) :
    panelFacts (player'.core rest) = panelFacts (player.core rest) := by
  rw [LivePlayer.panelFacts_core, LivePlayer.panelFacts_core, hselection]
  cases applied_of_apply happly with
  | changed | activated | added | removed => rfl
  | playback | property | tick | unrelated => cases hof

/-- And another selection is another track on the panel. -/
theorem PlayerChange.track_ne_of_playlists {rest : Core ι} {player player' : LivePlayer ι}
    {change : PlayerChange ι} (happly : change.apply player = some player')
    (hof : change.ofPlaylists = true)
    (hselection : player'.selection rest ≠ player.selection rest) :
    (panelFacts (player'.core rest)).bind PanelFacts.track ≠
      (panelFacts (player.core rest)).bind PanelFacts.track := by
  have hstate : player'.playback.state = player.playback.state := by
    cases applied_of_apply happly with
    | changed | activated | added | removed => rfl
    | playback | property | tick | unrelated => cases hof
  exact fun htrack => hselection (LivePlayer.selection_eq_of_track hstate htrack)

end RemoteControl
