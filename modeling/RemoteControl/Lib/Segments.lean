import Mathlib.Data.List.Basic
import RemoteControl.Lib.Separated

/-!
# Segments between separators

A segment of a list is a part of it without the separator that cannot be made longer. What
stands before it in the list tells where it is. `splitOn_lists`: `List.splitOn` gives the
segments, all of them and in their order.
-/

namespace Segments

variable {α : Type*} {c : α} {s t x before text : List α}

/-- `text` stands in `s` after `before`, and holds no `c`. -/
def IsFree (c : α) (s before text : List α) : Prop := before ++ text <+: s ∧ c ∉ text

/-- A part without the separator that is contained in no longer one. -/
structure IsSegment (c : α) (s before text : List α) : Prop where
  free : IsFree c s before text
  maximal : ∀ before' left right, before' ++ left = before →
    IsFree c s before' (left ++ text ++ right) → left = [] ∧ right = []

/-! A segment begins after a separator and ends in front of one. -/

theorem IsSegment.before_eq (h : IsSegment c s before text) :
    before = [] ∨ ∃ l, before = l ++ [c] := by
  obtain ⟨⟨⟨after, hs⟩, hfree⟩, hmaximal⟩ := h
  rcases List.eq_nil_or_concat before with hnil | ⟨l, b, hbefore⟩
  · exact Or.inl hnil
  · refine Or.inr ⟨l, ?_⟩
    rw [List.concat_eq_append] at hbefore
    by_cases hb : b = c
    · rw [hbefore, hb]
    · have hlonger : IsFree c s l ([b] ++ text ++ []) := by
        refine ⟨⟨after, ?_⟩, ?_⟩
        · rw [← hs, hbefore]
          simp
        · simp [hfree, Ne.symm hb]
      cases (hmaximal l [b] [] hbefore.symm hlonger).1

theorem IsSegment.after_eq {after : List α} (h : IsSegment c s before text)
    (hs : before ++ text ++ after = s) : after = [] ∨ ∃ r, after = c :: r := by
  obtain ⟨⟨-, hfree⟩, hmaximal⟩ := h
  cases after with
  | nil => exact Or.inl rfl
  | cons b r =>
    by_cases hb : b = c
    · exact Or.inr ⟨r, by rw [hb]⟩
    · have hlonger : IsFree c s before ([] ++ text ++ [b]) := by
        refine ⟨⟨r, ?_⟩, ?_⟩
        · rw [← hs]
          simp
        · simp [hfree, Ne.symm hb]
      cases (hmaximal before [] [b] (List.append_nil _) hlonger).2

/-! What stands between such places cannot be made longer. -/

theorem left_eq_nil {before' left : List α} (hbefore : before = [] ∨ ∃ l, before = l ++ [c])
    (hleft : before' ++ left = before) (hfree : c ∉ left) : left = [] := by
  rcases List.eq_nil_or_concat left with hnil | ⟨l, b, hl⟩
  · exact hnil
  · -- the last element of `left` would be the separator in front of the segment
    rw [List.concat_eq_append] at hl
    rcases hbefore with hnil | ⟨m, hm⟩
    · rw [hnil, hl] at hleft
      simp at hleft
    · have hb : b = c := by
        rw [hl, hm, ← List.append_assoc] at hleft
        exact (List.append_inj' hleft rfl).2 |> List.singleton_inj.mp
      exact absurd (show c ∈ left by simp [hl, hb]) hfree

theorem right_eq_nil {right rest after : List α} (hafter : after = [] ∨ ∃ r, after = c :: r)
    (hright : right ++ rest = after) (hfree : c ∉ right) : right = [] := by
  cases right with
  | nil => rfl
  | cons b r =>
    rcases hafter with hnil | ⟨m, hm⟩
    · rw [hnil] at hright
      cases hright
    · rw [hm] at hright
      have hb : b = c := (List.cons.inj hright).1
      exact absurd (show c ∈ b :: r by simp [hb]) hfree

/-- A segment is one whose neighbours are separators or the ends of the list. -/
theorem isSegment_iff : IsSegment c s before text ↔
    c ∉ text ∧ (before = [] ∨ ∃ l, before = l ++ [c]) ∧
      ∃ after, s = before ++ text ++ after ∧ (after = [] ∨ ∃ r, after = c :: r) := by
  constructor
  · intro h
    obtain ⟨after, hs⟩ := h.free.1
    exact ⟨h.free.2, h.before_eq, after, hs.symm, h.after_eq hs⟩
  · rintro ⟨hfree, hbefore, after, hs, hafter⟩
    refine ⟨⟨⟨after, hs.symm⟩, hfree⟩, ?_⟩
    rintro before' left right hleft ⟨⟨rest, hrest⟩, hlonger⟩
    simp only [List.mem_append, not_or] at hlonger
    have hright : right ++ rest = after := by
      rw [hs, ← hleft] at hrest
      simpa using hrest
    exact ⟨left_eq_nil hbefore hleft hlonger.1.1, right_eq_nil hafter hright hlonger.2⟩

/-! ## The first separator -/

theorem isSegment_of_notMem (h : c ∉ s) : IsSegment c s before text ↔ before = [] ∧ text = s := by
  rw [isSegment_iff]
  constructor
  · rintro ⟨-, hbefore, after, hs, hafter⟩
    have hnil : before = [] := by
      rcases hbefore with hnil | ⟨l, hl⟩
      · exact hnil
      · exact absurd (show c ∈ s by simp [hs, hl]) h
    have hend : after = [] := by
      rcases hafter with hend | ⟨r, hr⟩
      · exact hend
      · exact absurd (show c ∈ s by simp [hs, hr]) h
    exact ⟨hnil, by simp [hs, hnil, hend]⟩
  · rintro ⟨rfl, rfl⟩
    exact ⟨h, Or.inl rfl, [], by simp, Or.inl rfl⟩

/-- The segments of a list are its part up to the first separator and the segments of
the rest. -/
theorem isSegment_append_cons (hx : c ∉ x) : IsSegment c (x ++ c :: t) before text ↔
    (before = [] ∧ text = x) ∨ ∃ l, before = x ++ c :: l ∧ IsSegment c t l text := by
  simp only [isSegment_iff]
  constructor
  · rintro ⟨hfree, rfl | ⟨m, rfl⟩, after, hs, hafter⟩
    · left
      rcases hafter with rfl | ⟨r, rfl⟩
      · -- the separator would be in the segment
        rw [List.nil_append, List.append_nil] at hs
        exact absurd (show c ∈ text by simp [← hs]) hfree
      · exact ⟨rfl, ((Separated.append_cons_inj_left hx hfree).mp hs).1.symm⟩
    · right
      rw [List.append_assoc, List.append_assoc, List.singleton_append] at hs
      by_cases hm : c ∈ m
      · obtain ⟨m₁, m₂, rfl, hm₁⟩ := List.eq_append_cons_of_mem hm
        rw [List.append_assoc, List.cons_append] at hs
        obtain ⟨rfl, rfl⟩ := (Separated.append_cons_inj_left hx hm₁).mp hs
        exact ⟨m₂ ++ [c], by simp, hfree, Or.inr ⟨m₂, rfl⟩, after, by simp, hafter⟩
      · obtain ⟨rfl, rfl⟩ := (Separated.append_cons_inj_left hx hm).mp hs
        exact ⟨[], rfl, hfree, Or.inl rfl, after, by simp, hafter⟩
  · rintro (⟨rfl, rfl⟩ | ⟨l, rfl, hfree, hl, after, rfl, hafter⟩)
    · exact ⟨hx, Or.inl rfl, c :: t, by simp, Or.inr ⟨t, rfl⟩⟩
    · refine ⟨hfree, Or.inr ?_, after, by simp, hafter⟩
      rcases hl with rfl | ⟨m, rfl⟩
      · exact ⟨x, rfl⟩
      · exact ⟨x ++ c :: m, by simp⟩

/-! ## All segments -/

/-- `texts` are the segments of `s` that meet `p`, each once and in their order. -/
def Lists (c : α) (s : List α) (p : List α → Prop) (texts : List (List α)) : Prop :=
  ∃ segments : List (List α × List α),
    (∀ before text, (before, text) ∈ segments ↔ IsSegment c s before text ∧ p text) ∧
      segments.Pairwise (fun a b => a.1.length < b.1.length) ∧ segments.map Prod.snd = texts

theorem Lists.filter {p : List α → Prop} {texts : List (List α)} (h : Lists c s p texts)
    (q : List α → Prop) [DecidablePred q] :
    Lists c s (fun text => p text ∧ q text) (texts.filter (q ·)) := by
  obtain ⟨segments, hmem, horder, rfl⟩ := h
  refine ⟨segments.filter (q ·.2), ?_, horder.filter _, ?_⟩
  · intro before text
    rw [List.mem_filter, hmem, decide_eq_true_eq, and_assoc]
  · rw [List.filter_map]
    rfl

theorem splitOn_lists [BEq α] [LawfulBEq α] (c : α) (s : List α) :
    Lists c s (fun _ => True) (s.splitOn c) := by
  by_cases hc : c ∈ s
  · obtain ⟨x, t, rfl, hx⟩ := List.eq_append_cons_of_mem hc
    obtain ⟨segments, hmem, horder, htexts⟩ := splitOn_lists c t
    refine ⟨([], x) :: segments.map fun part => (x ++ c :: part.1, part.2), ?_, ?_, ?_⟩
    · intro before text
      rw [List.mem_cons, List.mem_map, isSegment_append_cons hx, and_true]
      refine or_congr Prod.ext_iff ⟨?_, ?_⟩
      · rintro ⟨⟨l, text'⟩, hpart, heq⟩
        cases heq
        exact ⟨l, rfl, ((hmem l text').mp hpart).1⟩
      · rintro ⟨l, rfl, hsegment⟩
        exact ⟨(l, text), (hmem l text).mpr ⟨hsegment, trivial⟩, rfl⟩
    · refine List.pairwise_cons.mpr ⟨?_, ?_⟩
      · intro part hpart
        obtain ⟨part', -, rfl⟩ := List.mem_map.mp hpart
        exact List.length_pos_of_ne_nil (by simp)
      · refine List.pairwise_map.mpr (horder.imp fun {a b} hlt => ?_)
        simpa using hlt
    · rw [List.splitOn_append_cons_self_of_not_mem hx, ← htexts, List.map_cons, List.map_map]
      rfl
  · refine ⟨[([], s)], ?_, List.pairwise_singleton _ _, ?_⟩
    · intro before text
      rw [List.mem_singleton, isSegment_of_notMem hc, and_true, Prod.ext_iff]
    · rw [List.splitOn_eq_singleton hc]
      rfl
termination_by s.length

end Segments
