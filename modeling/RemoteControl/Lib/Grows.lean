import Mathlib.Order.Defs.PartialOrder

/-!
# Programs over a state that only grows

A partial stateful program is a `StateT σ Option α`. `Grows x Q`: whenever `x`
returns, the state it leaves is above the one it found, and the result meets `Q`
there. Assertions about what the state already contains survive growth
(`Stable`), so specifications compose by `Grows.bind`.
-/

namespace Growth

variable {σ : Type} [Preorder σ] {α β : Type} {x : StateT σ Option α} {f : α → StateT σ Option β}
  {Q : α → σ → Prop} {R : β → σ → Prop}

omit [Preorder σ] in
/-- A program returns if its parts do, one after the other. -/
theorem bind_returns {s t : σ} {a : α} {r : β × σ} (hx : x s = some (a, t))
    (hf : f a t = some r) : (x >>= f) s = some r :=
  Option.bind_eq_some_iff.mpr ⟨(a, t), hx, hf⟩

omit [Preorder σ] in
theorem map_returns {s t : σ} {a : α} (g : α → β) (hx : x s = some (a, t)) :
    (g <$> x) s = some (g a, t) :=
  Option.bind_eq_some_iff.mpr ⟨(a, t), hx, rfl⟩

/-- An assertion that growth of the state does not undo. -/
def Stable (P : σ → Prop) : Prop := ∀ s t, s ≤ t → P s → P t

/-- Every return of `x` is above its start and meets `Q`. -/
def Grows (x : StateT σ Option α) (Q : α → σ → Prop) : Prop :=
  ∀ s a t, x s = some (a, t) → s ≤ t ∧ Q a t

theorem Grows.pure {a : α} (h : ∀ s, Q a s) : Grows (pure a : StateT σ Option α) Q := by
  intro s b t hx
  cases hx
  exact ⟨le_refl s, h s⟩

/-- What holds of the first result still holds when the second program is done. -/
theorem Grows.bind (hx : Grows x Q) (hQ : ∀ a, Stable (Q a))
    (hf : ∀ a, Grows (f a) fun b s => Q a s → R b s) : Grows (x >>= f) R := by
  intro s b u hxf
  change (x s).bind (fun p => f p.1 p.2) = some (b, u) at hxf
  obtain ⟨⟨a, t⟩, hs, ht⟩ := Option.bind_eq_some_iff.mp hxf
  have ⟨hst, hq⟩ := hx s a t hs
  have ⟨htu, hr⟩ := hf a t b u ht
  exact ⟨le_trans hst htu, hr (hQ a t u htu hq)⟩

theorem Grows.map {g : α → β} (hx : Grows x Q) (h : ∀ a s, Q a s → R (g a) s) :
    Grows (g <$> x) R := by
  intro s b t hgx
  obtain ⟨⟨a, t⟩, hs, heq⟩ := Option.bind_eq_some_iff.mp hgx
  cases heq
  have ⟨hle, hq⟩ := hx s a t hs
  exact ⟨hle, h a t hq⟩

/-- Run again from the state it leaves, `x` gives the same result. -/
def Repeats (x : StateT σ Option α) : Prop :=
  ∀ s a t, x s = some (a, t) → ∃ u, x t = some (a, u)

omit [Preorder σ] in
theorem Repeats.pure {a : α} : Repeats (pure a : StateT σ Option α) := by
  intro s b t hx
  cases hx
  exact ⟨_, rfl⟩

omit [Preorder σ] in
theorem Repeats.map {g : α → β} (hx : Repeats x) : Repeats (g <$> x) := by
  intro s b t hgx
  obtain ⟨⟨a, t⟩, hs, heq⟩ := Option.bind_eq_some_iff.mp hgx
  cases heq
  obtain ⟨u, hu⟩ := hx s a t hs
  exact ⟨u, map_returns g hu⟩

theorem Grows.get_bind {f : σ → StateT σ Option β} (hf : ∀ s, Grows (f s) R) :
    Grows (get >>= f) R :=
  fun s b t h => hf s s b t h

end Growth
