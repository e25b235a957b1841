import RemoteControl.Lib.Transition
import Mathlib.Logic.Function.Basic
import Mathlib.Data.List.Nodup

/-!
# Calls in several atomic sections

An object shared by concurrent calls. A call goes through atomic sections; only its last one may
change the object, and that one does what the whole operation does in a single step
(`SectionedObject`). The calls are interleaved section by section, and the history is what their
callers see.

* `linearizable`: in every interleaving the single-step operations, in the order of the calls'
  last sections, return the same results, end in the same state, and respect real time.
-/

namespace Linearizable

open Transition

/-! ## Positions in a list -/

section Precedes

variable {α : Type*} {l : List α} {x y z : α}

/-- `x` stands somewhere before `y` in the list. -/
def Precedes (l : List α) (x y : α) : Prop := [x, y].Sublist l

theorem Precedes.mem_left (h : Precedes l x y) : x ∈ l := h.subset List.mem_cons_self

theorem precedes_concat : Precedes (l ++ [z]) x y ↔ Precedes l x y ∨ (x ∈ l ∧ y = z) := by
  rw [Precedes, ← List.reverse_sublist, List.reverse_append, List.reverse_singleton,
    List.singleton_append, List.sublist_cons_iff]
  refine or_congr List.reverse_sublist ?_
  constructor
  · rintro ⟨rest, hrest, hsub⟩
    cases hrest
    exact ⟨List.mem_reverse.mp (List.singleton_sublist.mp hsub), rfl⟩
  · rintro ⟨hx, rfl⟩
    exact ⟨[x], rfl, List.singleton_sublist.mpr (List.mem_reverse.mpr hx)⟩

end Precedes

/-! ## Objects -/

/-- The sections of the operations, and the operations in a single step. -/
structure SectionedObject (σ Op Loc Res : Type*) where
  /-- Where a call begins. -/
  start : Op → Loc
  /-- A section of a call leads on to the next or to the result; `none` stands for one that does
  not end. -/
  advance : Op → Loc → σ → Option ((Loc ⊕ Res) × σ)
  perform : Op → σ → Option (Res × σ)
  silent : ∀ {op l s l' s'}, advance op l s = some (.inl l', s') → s' = s
  commits : ∀ {op l s r s'}, advance op l s = some (.inr r, s') → perform op s = some (r, s')

/-- A call with its operation and its result. -/
structure Entry (ι Op Res : Type*) where
  id : ι
  op : Op
  result : Res

variable {σ ι Op Loc Res : Type*}

/-- The single-step operations in this order, with these results. -/
inductive Replays (perform : Op → σ → Option (Res × σ)) : σ → List (Entry ι Op Res) → σ → Prop
  | nil (s : σ) : Replays perform s [] s
  | cons {s t u : σ} {e : Entry ι Op Res} {order : List (Entry ι Op Res)}
      (h : perform e.op s = some (e.result, t)) (rest : Replays perform t order u) :
      Replays perform s (e :: order) u

section Replays

variable {perform : Op → σ → Option (Res × σ)} {s t u : σ} {order order' : List (Entry ι Op Res)}

theorem replays_append : Replays perform s (order ++ order') u ↔
    ∃ t, Replays perform s order t ∧ Replays perform t order' u := by
  induction order generalizing s with
  | nil =>
    constructor
    · exact fun h => ⟨s, .nil s, h⟩
    · rintro ⟨t, h, h'⟩
      cases h
      exact h'
  | cons e order ih =>
    constructor
    · intro h
      cases h with
      | cons h rest =>
        obtain ⟨t, ht, hu⟩ := ih.mp rest
        exact ⟨t, .cons h ht, hu⟩
    · rintro ⟨t, h, h'⟩
      cases h with
      | cons h rest => exact .cons h (ih.mpr ⟨t, rest, h'⟩)

theorem Replays.concat {e : Entry ι Op Res} (h : Replays perform s order t)
    (he : perform e.op t = some (e.result, u)) : Replays perform s (order ++ [e]) u :=
  replays_append.mpr ⟨t, h, .cons he (.nil u)⟩

end Replays

/-! ## Interleavings -/

/-- What the callers see. -/
inductive Event (ι Op Res : Type*)
  | invoke (id : ι) (op : Op)
  | respond (id : ι) (result : Res)
deriving DecidableEq

inductive Stage (Loc Res : Type*)
  | running (loc : Loc)
  | finished (result : Res)
  | returned (result : Res)

structure Call (Op Loc Res : Type*) where
  op : Op
  stage : Stage Loc Res

structure System (σ ι Op Loc Res : Type*) where
  shared : σ
  calls : ι → Option (Call Op Loc Res)
  history : List (Event ι Op Res)

inductive Action (ι Op : Type*)
  | invoke (id : ι) (op : Op)
  | advance (id : ι)
  | respond (id : ι)

/-- No call yet. -/
def init (s : σ) : System σ ι Op Loc Res := ⟨s, fun _ => none, []⟩

def stageOf : Loc ⊕ Res → Stage Loc Res
  | .inl l => .running l
  | .inr r => .finished r

variable [DecidableEq ι]

def step (O : SectionedObject σ Op Loc Res) (s : System σ ι Op Loc Res) :
    Action ι Op → Option (System σ ι Op Loc Res)
  | .invoke id op =>
    match s.calls id with
    | some _ => none
    | none =>
      some { s with
        calls := Function.update s.calls id (some ⟨op, .running (O.start op)⟩)
        history := s.history ++ [.invoke id op] }
  | .advance id =>
    match s.calls id with
    | some ⟨op, .running l⟩ =>
      (O.advance op l s.shared).map fun out =>
        { s with
          shared := out.2
          calls := Function.update s.calls id (some ⟨op, stageOf out.1⟩) }
    | _ => none
  | .respond id =>
    match s.calls id with
    | some ⟨op, .finished r⟩ =>
      some { s with
        calls := Function.update s.calls id (some ⟨op, .returned r⟩)
        history := s.history ++ [.respond id r] }
    | _ => none

/-! ## The order of the last sections -/

variable {O : SectionedObject σ Op Loc Res} {s₀ : σ} {s t : System σ ι Op Loc Res}
  {order : List (Entry ι Op Res)}

/-- The calls of the order explain the history and the state of the object. -/
structure Linearization (O : SectionedObject σ Op Loc Res) (s₀ : σ)
    (history : List (Event ι Op Res)) (final : σ) (order : List (Entry ι Op Res)) : Prop where
  nodup : (order.map Entry.id).Nodup
  invoked : ∀ e ∈ order, .invoke e.id e.op ∈ history
  responded : ∀ id r, .respond id r ∈ history → ∃ op, ⟨id, op, r⟩ ∈ order
  replays : Replays O.perform s₀ order final
  realTime : ∀ e ∈ order, ∀ e' ∈ order,
    Precedes history (.respond e.id e.result) (.invoke e'.id e'.op) → Precedes order e e'

/-- What holds of an interleaving and of the calls whose last section is over, in the order of
these sections. -/
structure Inv (O : SectionedObject σ Op Loc Res) (s₀ : σ) (s : System σ ι Op Loc Res)
    (order : List (Entry ι Op Res)) : Prop
    extends Linearization O s₀ s.history s.shared order where
  running : ∀ id op l, s.calls id = some ⟨op, .running l⟩ →
    .invoke id op ∈ s.history ∧ ∀ e ∈ order, e.id ≠ id
  finished : ∀ id op r, s.calls id = some ⟨op, .finished r⟩ → ⟨id, op, r⟩ ∈ order
  known : ∀ e ∈ order, (s.calls e.id).isSome = true
  returned : ∀ id r, .respond id r ∈ s.history → ∃ op, s.calls id = some ⟨op, .returned r⟩

omit [DecidableEq ι] in
theorem Inv.init : Inv O s₀ (init s₀ : System σ ι Op Loc Res) [] where
  nodup := List.nodup_nil
  invoked e he := by cases he
  responded id r h := by cases h
  replays := .nil s₀
  realTime e he := by cases he
  running id op l h := by cases h
  finished id op r h := by cases h
  known e he := by cases he
  returned id r h := by cases h

/-- The calls after one of them has changed. -/
theorem update_eq_some {calls : ι → Option (Call Op Loc Res)} {id id' : ι} {c c' : Call Op Loc Res}
    (h : Function.update calls id (some c) id' = some c') :
    (id' = id ∧ c' = c) ∨ (id' ≠ id ∧ calls id' = some c') := by
  by_cases hid : id' = id
  · subst hid
    rw [Function.update_self] at h
    exact .inl ⟨rfl, (Option.some.inj h).symm⟩
  · rw [Function.update_of_ne hid] at h
    exact .inr ⟨hid, h⟩

theorem isSome_update {calls : ι → Option (Call Op Loc Res)} {id id' : ι} (c : Call Op Loc Res)
    (h : (calls id').isSome = true) : (Function.update calls id (some c) id').isSome = true := by
  by_cases hid : id' = id
  · subst hid
    rw [Function.update_self]
    rfl
  · rw [Function.update_of_ne hid]
    exact h

/-- A call that does not finish adds nothing to the order. -/
theorem Inv.finished_update {id : ι} {c : Call Op Loc Res} (h : Inv O s₀ s order)
    (hstage : ∀ r, c.stage ≠ .finished r) :
    ∀ id' op r, Function.update s.calls id (some c) id' = some ⟨op, .finished r⟩ →
      ⟨id', op, r⟩ ∈ order := by
  intro id' op r hr
  rcases update_eq_some hr with ⟨-, heq⟩ | ⟨-, hr⟩
  · subst heq
    exact absurd rfl (hstage r)
  · exact h.finished id' op r hr

theorem Inv.invoke {id : ι} {op : Op} (h : Inv O s₀ s order) (hnew : s.calls id = none) :
    Inv O s₀ { s with
      calls := Function.update s.calls id (some ⟨op, .running (O.start op)⟩)
      history := s.history ++ [.invoke id op] } order := by
  have hother : ∀ e ∈ order, e.id ≠ id := by
    rintro e he rfl
    have hsome := h.known e he
    rw [hnew] at hsome
    cases hsome
  refine ⟨⟨h.nodup, fun e he => List.mem_append_left _ (h.invoked e he), fun id' r hr => ?_,
    h.replays, fun e he e' he' hbefore => ?_⟩, fun id' op' l hl => ?_,
    h.finished_update (fun r hr => by cases hr), fun e he => isSome_update _ (h.known e he),
    fun id' r hr => ?_⟩
  · rcases List.mem_append.mp hr with hr | hr
    · exact h.responded id' r hr
    · cases List.mem_singleton.mp hr
  · rcases precedes_concat.mp hbefore with hbefore | ⟨-, heq⟩
    · exact h.realTime e he e' he' hbefore
    · cases heq
      exact absurd rfl (hother e' he')
  · rcases update_eq_some hl with ⟨rfl, heq⟩ | ⟨-, hl⟩
    · cases heq
      exact ⟨List.mem_append_right _ (List.mem_singleton_self _), hother⟩
    · obtain ⟨hinvoked, hnot⟩ := h.running id' op' l hl
      exact ⟨List.mem_append_left _ hinvoked, hnot⟩
  · rcases List.mem_append.mp hr with hr | hr
    · obtain ⟨op', hop'⟩ := h.returned id' r hr
      have hne : id' ≠ id := by
        rintro rfl
        cases hnew.symm.trans hop'
      exact ⟨op', (Function.update_of_ne hne ..).trans hop'⟩
    · cases List.mem_singleton.mp hr

section Advance

variable {id : ι} {op : Op} {l l' : Loc} {r : Res} {shared : σ}

/-- A call that has not returned stays away from the responses in the history. -/
theorem Inv.returned_update {c c' : Call Op Loc Res} (h : Inv O s₀ s order)
    (hc : s.calls id = some c) (hstage : ∀ r, c.stage ≠ .returned r) :
    ∀ id' r, .respond id' r ∈ s.history →
      ∃ op, Function.update s.calls id (some c') id' = some ⟨op, .returned r⟩ := by
  intro id' r hr
  obtain ⟨op, hop⟩ := h.returned id' r hr
  have hne : id' ≠ id := by
    rintro rfl
    cases hc.symm.trans hop
    exact hstage r rfl
  exact ⟨op, (Function.update_of_ne hne ..).trans hop⟩

theorem Inv.silent (h : Inv O s₀ s order) (hc : s.calls id = some ⟨op, .running l⟩) :
    Inv O s₀ { s with calls := Function.update s.calls id (some ⟨op, .running l'⟩) } order := by
  refine ⟨h.toLinearization, fun id' op' l'' hl => ?_, h.finished_update (fun r hr => by cases hr),
    fun e he => isSome_update _ (h.known e he), h.returned_update hc fun r hr => by cases hr⟩
  rcases update_eq_some hl with ⟨rfl, heq⟩ | ⟨-, hl⟩
  · cases heq
    exact h.running id' op l hc
  · exact h.running id' op' l'' hl

/-- The last section of a call puts it at the end of the order: a call that was back before this
one began is in it already. -/
theorem Inv.commit (h : Inv O s₀ s order) (hc : s.calls id = some ⟨op, .running l⟩)
    (hst : O.perform op s.shared = some (r, shared)) :
    Inv O s₀ { s with shared, calls := Function.update s.calls id (some ⟨op, .finished r⟩) }
      (order ++ [⟨id, op, r⟩]) := by
  obtain ⟨hinvoked, hnot⟩ := h.running id op l hc
  have hsilent : ∀ r', .respond id r' ∉ s.history := by
    intro r' hr'
    obtain ⟨op', hop'⟩ := h.returned id r' hr'
    cases hc.symm.trans hop'
  refine ⟨⟨?_, fun e he => ?_, fun id' r' hr' => ?_, h.replays.concat hst,
    fun e he e' he' hbefore => ?_⟩, fun id' op' l' hl => ?_, fun id' op' r' hr' => ?_,
    fun e he => ?_, h.returned_update hc fun r hr => by cases hr⟩
  · rw [List.map_append, List.nodup_append]
    refine ⟨h.nodup, List.nodup_singleton id, ?_⟩
    intro a ha b hb
    obtain ⟨e, he, rfl⟩ := List.mem_map.mp ha
    rw [List.mem_singleton.mp hb]
    exact hnot e he
  · rcases List.mem_append.mp he with he | he
    · exact h.invoked e he
    · rw [List.mem_singleton.mp he]
      exact hinvoked
  · obtain ⟨op', hop'⟩ := h.responded id' r' hr'
    exact ⟨op', List.mem_append_left _ hop'⟩
  · have hresponded := hbefore.mem_left
    rcases List.mem_append.mp he with he | he
    · rcases List.mem_append.mp he' with he' | he'
      · exact precedes_concat.mpr (.inl (h.realTime e he e' he' hbefore))
      · exact precedes_concat.mpr (.inr ⟨he, List.mem_singleton.mp he'⟩)
    · rw [List.mem_singleton.mp he] at hresponded
      exact absurd hresponded (hsilent r)
  · rcases update_eq_some hl with ⟨-, heq⟩ | ⟨hne, hl⟩
    · cases heq
    · obtain ⟨hinvoked', hnot'⟩ := h.running id' op' l' hl
      refine ⟨hinvoked', ?_⟩
      intro e he
      rcases List.mem_append.mp he with he | he
      · exact hnot' e he
      · rw [List.mem_singleton.mp he]
        exact hne.symm
  · rcases update_eq_some hr' with ⟨rfl, heq⟩ | ⟨-, hr'⟩
    · cases heq
      exact List.mem_append_right _ (List.mem_singleton_self _)
    · exact List.mem_append_left _ (h.finished id' op' r' hr')
  · rcases List.mem_append.mp he with he | he
    · exact isSome_update _ (h.known e he)
    · rw [List.mem_singleton.mp he]
      exact Option.isSome_of_mem (Function.update_self ..)

theorem Inv.respond (h : Inv O s₀ s order) (hc : s.calls id = some ⟨op, .finished r⟩) :
    Inv O s₀ { s with
      calls := Function.update s.calls id (some ⟨op, .returned r⟩)
      history := s.history ++ [.respond id r] } order := by
  refine ⟨⟨h.nodup, fun e he => List.mem_append_left _ (h.invoked e he), fun id' r' hr' => ?_,
    h.replays, fun e he e' he' hbefore => ?_⟩, fun id' op' l' hl => ?_,
    h.finished_update (fun r hr => by cases hr), fun e he => isSome_update _ (h.known e he),
    fun id' r' hr' => ?_⟩
  · rcases List.mem_append.mp hr' with hr' | hr'
    · exact h.responded id' r' hr'
    · cases List.mem_singleton.mp hr'
      exact ⟨op, h.finished id op r hc⟩
  · rcases precedes_concat.mp hbefore with hbefore | ⟨-, heq⟩
    · exact h.realTime e he e' he' hbefore
    · cases heq
  · rcases update_eq_some hl with ⟨-, heq⟩ | ⟨-, hl⟩
    · cases heq
    · obtain ⟨hinvoked, hnot⟩ := h.running id' op' l' hl
      exact ⟨List.mem_append_left _ hinvoked, hnot⟩
  · rcases List.mem_append.mp hr' with hr' | hr'
    · exact h.returned_update hc (fun r hr => by cases hr) id' r' hr'
    · cases List.mem_singleton.mp hr'
      exact ⟨op, Function.update_self ..⟩

end Advance

theorem inv_step {a : Action ι Op} (h : Inv O s₀ s order) (hst : step O s a = some t) :
    ∃ order', Inv O s₀ t order' := by
  cases a with
  | invoke id op =>
    unfold step at hst
    dsimp only at hst
    split at hst
    · cases hst
    · next hnew =>
      cases hst
      exact ⟨order, h.invoke hnew⟩
  | advance id =>
    unfold step at hst
    dsimp only at hst
    split at hst
    · next op l hc =>
      obtain ⟨⟨out, shared⟩, hadvance, rfl⟩ := Option.map_eq_some_iff.mp hst
      cases out with
      | inl l' =>
        obtain rfl := O.silent hadvance
        exact ⟨order, h.silent hc⟩
      | inr r => exact ⟨_, h.commit hc (O.commits hadvance)⟩
    · cases hst
  | respond id =>
    unfold step at hst
    dsimp only at hst
    split at hst
    · next op r hc =>
      cases hst
      exact ⟨order, h.respond hc⟩
    · cases hst

/-- **Every interleaving is linearizable.** -/
theorem linearizable (h : Reachable (step O) (init s₀) s) :
    ∃ order, Linearization O s₀ s.history s.shared order := by
  obtain ⟨order, hinv⟩ := h.invariant (I := fun s => ∃ order, Inv O s₀ s order) ⟨[], .init⟩
    fun ⟨_, hinv⟩ hst => inv_step hinv hst
  exact ⟨order, hinv.toLinearization⟩

end Linearizable
