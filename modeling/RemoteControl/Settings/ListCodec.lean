import Mathlib.Computability.StateTransition
import RemoteControl.Lib.Segments
import RemoteControl.Settings.Persistence

/-!
# The codec of the interface list

What `SplitList` and `JoinList` do to any list and any string. The loop of `SplitList` ends
(`turn_ends`), its items are the segments that are not empty, and it undoes `JoinList` on
the lists of such items and on no others (`list_codec_round_trips`).
-/

namespace RemoteControl

open Segments StateTransition

/-! ## The loop ends -/

/-- The variables of the loop of `SplitList`, and whether its `break` was taken. -/
structure SplitVariables where
  start : Nat := 0
  items : List Bytes := []
  broken : Bool := false

namespace SplitVariables

/-- `if (!item.empty()) items.push_back(item)`. -/
def push (items : List Bytes) (item : Bytes) : List Bytes :=
  if item ≠ [] then items ++ [item] else items

/-- One turn of the loop; `none` when it is left. -/
def turn (joined : Bytes) (separator : UInt8) (v : SplitVariables) : Option SplitVariables :=
  if v.broken = false ∧ v.start ≤ joined.length then
    let rest := joined.drop v.start
    match findByte separator rest with
    | none => some { v with items := push v.items rest, broken := true }
    | some n => some { v with start := v.start + n + 1, items := push v.items (rest.take n) }
  else none

variable {joined : Bytes} {separator : UInt8} {v : SplitVariables}

theorem push_append (items rest : List Bytes) (item : Bytes) :
    push items item ++ rest = items ++ if item ≠ [] then item :: rest else rest := by
  unfold push
  split
  · rw [List.append_assoc, List.singleton_append]
  · rfl

/-- Every turn moves `start` forward, so the turns that `splitLoop` allows are enough. -/
theorem turn_ends {turns : Nat} (hrunning : v.broken = false)
    (hturns : joined.length < turns + v.start) :
    ∃ last, Reaches (turn joined separator) v last ∧ turn joined separator last = none ∧
      last.items = v.items ++ splitLoop joined separator turns v.start := by
  induction turns generalizing v with
  | zero =>
    refine ⟨v, .refl, if_neg fun h => ?_, (List.append_nil _).symm⟩
    have hle := h.2
    omega
  | succ turns ih =>
    by_cases hstart : v.start ≤ joined.length
    · cases hfind : findByte separator (joined.drop v.start) with
      | none =>
        have hturn : turn joined separator v =
            some { v with items := push v.items (joined.drop v.start), broken := true } := by
          rw [turn, if_pos ⟨hrunning, hstart⟩]
          simp only [hfind]
        refine ⟨_, .single hturn, if_neg fun h => Bool.noConfusion h.1, ?_⟩
        have hpush := push_append v.items [] (joined.drop v.start)
        rw [List.append_nil] at hpush
        rw [splitLoop, if_pos hstart]
        simp only [hfind]
        exact hpush
      | some n =>
        have hturn : turn joined separator v = some { v with
            start := v.start + n + 1
            items := push v.items ((joined.drop v.start).take n) } := by
          rw [turn, if_pos ⟨hrunning, hstart⟩]
          simp only [hfind]
        obtain ⟨last, hreaches, hlast, hitems⟩ := ih (v := { v with
          start := v.start + n + 1
          items := push v.items ((joined.drop v.start).take n) }) hrunning (by dsimp only; omega)
        refine ⟨last, .head hturn hreaches, hlast, ?_⟩
        rw [hitems, splitLoop, if_pos hstart, push_append]
        simp only [hfind]
    · refine ⟨v, .refl, if_neg fun h => hstart h.2, ?_⟩
      rw [splitLoop, if_neg hstart, List.append_nil]

end SplitVariables

/-! ## The two ways round -/

section Codec

variable {separator : UInt8} {items : List Bytes}

theorem splitList_lists (separator : UInt8) (s : Bytes) :
    Lists separator s (· ≠ []) (splitList s separator) := by
  have h := (splitOn_lists separator s).filter (· ≠ [])
  simp only [true_and] at h
  rw [splitList_eq]
  exact h

theorem splitList_joinList_iff : splitList (joinList items separator) separator = items ↔
    ∀ item ∈ items, item ≠ [] ∧ separator ∉ item := by
  constructor
  · intro h item hitem
    rw [← h] at hitem
    exact mem_splitList hitem
  · intro h
    by_cases hnil : items = []
    · rw [hnil, splitList_eq]
      rfl
    · exact splitList_joinList (fun item hitem => (h item hitem).1)
        (fun item hitem => (h item hitem).2) hnil

/-- **The codec round-trips on its domain.** Joined items are split again exactly when none
is empty or holds the separator; any string is split, after finitely many turns, into its
segments that are not empty, and these survive being joined. -/
theorem list_codec_round_trips (separator : UInt8) :
    (∀ items, splitList (joinList items separator) separator = items ↔
      ∀ item ∈ items, item ≠ [] ∧ separator ∉ item) ∧
    ∀ s, (∃ last, Reaches (SplitVariables.turn s separator) {} last ∧
        SplitVariables.turn s separator last = none ∧ last.items = splitList s separator) ∧
      Lists separator s (· ≠ []) (splitList s separator) ∧
      splitList (joinList (splitList s separator) separator) separator =
        splitList s separator := by
  refine ⟨fun items => splitList_joinList_iff, fun s => ⟨?_, splitList_lists separator s, ?_⟩⟩
  · have hturns : s.length < s.length + 1 + 0 := by omega
    exact SplitVariables.turn_ends (v := {}) rfl hturns
  · exact splitList_joinList_iff.mpr fun item => mem_splitList

example : splitList (ascii "|eth0||lo|") interfaceListSeparator = [ascii "eth0", ascii "lo"] := by
  decide

end Codec

end RemoteControl
