import Mathlib.Data.Multiset.AddSub

/-!
# References counted by hand

Programs that get references to objects from outside, use them, and have to give each of
them back once. A program that counts is compared with the plain program it stands for:
`Meets` says that it gets by without a fault, returns what the plain program returns, and
which references it then holds. The rules follow the programs; `Balanced` is the case of a
program that ends with the references it began with.
-/

namespace References

variable {σ α β γ δ : Type}

/-! ## Programs that count -/

/-- The references that are held, each under a token of its own. -/
structure Ledger where
  next : Nat
  held : Multiset Nat
  fresh : ∀ token ∈ held, token < next

def Ledger.empty : Ledger := ⟨0, 0, fun _ h => absurd h (Multiset.notMem_zero _)⟩

structure Ref (α : Type) where
  object : α
  token : Nat

/-- A call through a null pointer, or through a reference that is not held, or giving back
one that is not held. -/
inductive Fault
  | null
  | used (token : Nat)
  | released (token : Nat)
deriving DecidableEq

/-- Programs over a state `σ`; `none` is a program that never ends. -/
abbrev Counted (σ : Type) := StateT Ledger (ExceptT Fault (StateT σ Option))

def Ledger.take (l : Ledger) : Ledger where
  next := l.next + 1
  held := l.next ::ₘ l.held
  fresh token h := by
    rcases Multiset.mem_cons.mp h with rfl | h
    · exact Nat.lt_succ_self _
    · exact Nat.lt_succ_of_lt (l.fresh token h)

def Ledger.release (l : Ledger) (token : Nat) : Ledger where
  next := l.next
  held := l.held.erase token
  fresh other h := l.fresh other (Multiset.mem_of_mem_erase h)

/-- A call that answers with a reference, or with none. -/
def take : Option α → Counted σ (Option (Ref α))
  | none => pure none
  | some object => fun l => pure (some ⟨object, l.next⟩, l.take)

/-- A call of a method of the object. -/
def call (ref : Ref α) (method : α → β) : Counted σ β := fun l =>
  if ref.token ∈ l.held then pure (method ref.object, l) else throw (.used ref.token)

def release (ref : Ref α) : Counted σ Unit := fun l =>
  if ref.token ∈ l.held then pure ((), l.release ref.token) else throw (.released ref.token)

/-- A step that has nothing to do with references. -/
def plainly (plain : StateT σ Option α) : Counted σ α := fun l s =>
  (plain s).map fun (a, t) => (.ok (a, l), t)

/-- A call of a method that answers with a reference. -/
def query (ref : Ref α) (method : α → Option β) : Counted σ (Option (Ref β)) := do
  let answer ← call ref method
  take answer

/-- Run `body`, then give the reference back. -/
def releasing (ref : Ref α) (body : Counted σ β) : Counted σ β := do
  let b ← body
  release ref
  pure b

/-- With the reference where there is one, and give it back. -/
def withRef (ref : Option (Ref α)) (absent : Counted σ β) (body : Ref α → Counted σ β) :
    Counted σ β :=
  match ref with
  | none => absent
  | some ref => releasing ref (body ref)

/-- The first that answers with a reference. -/
def firstOf (first second : Counted σ (Option (Ref α))) : Counted σ (Option (Ref α)) := do
  let ref ← first
  match ref with
  | some ref => pure (some ref)
  | none => second

/-- Give back what was got, if anything was. -/
def releaseIf : Option (Ref α) → Counted σ Unit
  | none => pure ()
  | some ref => release ref

/-- A loop over the indices `i, .., i + n - 1` of an object; what cannot be got is skipped,
and `body` gives back what was. -/
def forEach (owner : Ref γ) (get : γ → Nat → Option α) (body : Nat → Ref α → β → Counted σ β) :
    Nat → Nat → β → Counted σ β
  | 0, _, acc => pure acc
  | n + 1, i, acc => do
    let ref ← query owner fun object => get object i
    match ref with
    | none => forEach owner get body n (i + 1) acc
    | some ref => do
      let acc ← body i ref acc
      forEach owner get body n (i + 1) acc

/-- The loop without references, over what the indices give. -/
def plainForEach (body : Nat → α → β → StateT σ Option β) :
    List (Option α) → Nat → β → StateT σ Option β
  | [], _, acc => pure acc
  | none :: objects, i, acc => plainForEach body objects (i + 1) acc
  | some object :: objects, i, acc => do
    let acc ← body i object acc
    plainForEach body objects (i + 1) acc

/-- A pointer that is not checked before it is used. -/
def deref : Option (Ref α) → Counted σ (Ref α)
  | none => throw .null
  | some ref => pure ref

/-! ## What a counting program does -/

/-- Holding `held`, the program ends as the plain one does, and without a fault. -/
def Meets (held : Multiset Nat) (p : Counted σ β) (plain : StateT σ Option α)
    (post : α → β → Multiset Nat → Prop) : Prop :=
  ∀ (l : Ledger) (s : σ), l.held = held →
    match plain s with
    | none => p l s = none
    | some (a, t) => ∃ b l', p l s = some (.ok (b, l'), t) ∧ post a b l'.held

/-- Holding `held`, it holds the same again in the end, and the results are related. -/
def Relates (held : Multiset Nat) (related : α → β → Prop) (p : Counted σ β)
    (plain : StateT σ Option α) : Prop :=
  Meets held p plain fun a b after => related a b ∧ after = held

/-- It returns what the plain program returns, and holds on to more than it should. -/
def Loses (held : Multiset Nat) (lost : Multiset Nat → Prop) (p : Counted σ α)
    (plain : StateT σ Option α) : Prop :=
  Meets held p plain fun a b after => b = a ∧ ∃ more, lost more ∧ after = more + held

/-- It returns what the plain program returns. -/
def Returns (held : Multiset Nat) (p : Counted σ α) (plain : StateT σ Option α) : Prop :=
  Meets held p plain fun a b after => b = a ∧ after = held

/-- Whatever is held. -/
def Balanced (p : Counted σ α) (plain : StateT σ Option α) : Prop :=
  ∀ held, Returns held p plain

/-- The answer of a call that gives a reference: it is held on top of the others. -/
inductive Given (held : Multiset Nat) : Option α → Option (Ref α) → Multiset Nat → Prop
  | none : Given held none none held
  | some (object : α) (token : Nat) :
    Given held (some object) (some ⟨object, token⟩) (token ::ₘ held)

/-- A program that answers with a reference, which it leaves to its caller. -/
def Gives (held : Multiset Nat) (p : Counted σ (Option (Ref α))) (answer : Option α) : Prop :=
  Meets held p (pure answer) (Given held)

variable {held rest : Multiset Nat} {p : Counted σ β} {plain : StateT σ Option α}
  {post : α → β → Multiset Nat → Prop}

/-! ### Rules -/

namespace Meets

theorem pure {a : α} {b : β} (h : post a b held) :
    Meets (σ := σ) held (Pure.pure b) (Pure.pure a) post := by
  rintro l s rfl
  exact ⟨b, l, rfl, h⟩

theorem weaken {post' : α → β → Multiset Nat → Prop} (h : Meets held p plain post)
    (himp : ∀ a b after, post a b after → post' a b after) : Meets held p plain post' := by
  intro l s hl
  have hmeets := h l s hl
  cases hplain : plain s with
  | none =>
    rw [hplain] at hmeets
    exact hmeets
  | some result =>
    rw [hplain] at hmeets
    obtain ⟨b, l', hrun, hpost⟩ := hmeets
    exact ⟨b, l', hrun, himp _ _ _ hpost⟩

theorem bind {k : β → Counted σ δ} {kplain : α → StateT σ Option γ}
    {after : γ → δ → Multiset Nat → Prop} (h : Meets held p plain post)
    (hk : ∀ a b held', post a b held' → Meets held' (k b) (kplain a) after) :
    Meets held (p >>= k) (plain >>= kplain) after := by
  intro l s hl
  have hmeets := h l s hl
  show match (plain s).bind fun r => kplain r.1 r.2 with
    | none => ((p l s).bind fun r => ExceptT.bindCont (fun r => k r.1 r.2) r.1 r.2) = none
    | some (c, t) => ∃ d l', ((p l s).bind fun r =>
        ExceptT.bindCont (fun r => k r.1 r.2) r.1 r.2) = some (.ok (d, l'), t) ∧ after c d l'.held
  cases hplain : plain s with
  | none =>
    rw [hplain] at hmeets
    rw [Option.bind_none, hmeets, Option.bind_none]
  | some result =>
    rw [hplain] at hmeets
    obtain ⟨b, l', hrun, hpost⟩ := hmeets
    rw [Option.bind_some, hrun]
    exact hk _ _ _ hpost l' result.2 rfl

/-- A step of the counting program alone. -/
theorem step {a : α} {k : β → Counted σ δ} {kplain : StateT σ Option γ}
    {after : γ → δ → Multiset Nat → Prop} (h : Meets (σ := σ) held p (Pure.pure a) post)
    (hk : ∀ b held', post a b held' → Meets held' (k b) kplain after) :
    Meets held (p >>= k) kplain after := by
  have hbind : Meets held (p >>= k) (Pure.pure a >>= fun _ => kplain) after := by
    have hfirst : Meets held p (Pure.pure a) fun x b held' => x = a ∧ post a b held' := by
      intro l s hl
      obtain ⟨b, l', hrun, hpost⟩ := h l s hl
      exact ⟨b, l', hrun, rfl, hpost⟩
    refine bind hfirst ?_
    rintro _ b held' ⟨-, hpost⟩
    exact hk b held' hpost
  rwa [pure_bind] at hbind

theorem release {ref : Ref α} (h : held = ref.token ::ₘ rest) :
    Meets (σ := σ) held (References.release ref) (Pure.pure ()) fun _ _ after => after = rest := by
  rintro l s rfl
  refine ⟨(), l.release ref.token, ?_, ?_⟩
  · unfold References.release
    rw [if_pos (h ▸ Multiset.mem_cons_self _ _)]
    rfl
  · show l.held.erase ref.token = rest
    rw [h, Multiset.erase_cons_head]

/-- What `body` leaves held has the reference on top. -/
theorem releasing {ref : Ref γ}
    (h : Meets held p plain fun a b after => ∃ rest, after = ref.token ::ₘ rest ∧ post a b rest) :
    Meets held (References.releasing ref p) plain post := by
  have hbind : Meets held (References.releasing ref p) (plain >>= Pure.pure) post := by
    refine bind h ?_
    rintro a b _ ⟨rest, rfl, hpost⟩
    refine step (release rfl) ?_
    rintro _ _ rfl
    exact pure hpost
  rwa [bind_pure] at hbind

/-- A block with a reference that is given back at its end. -/
theorem withRef {q : Counted σ (Option (Ref γ))} {answer : Option γ} {absent : Counted σ β}
    {body : Ref γ → Counted σ β} (hq : Gives held q answer)
    (hnone : answer = none → Meets held absent plain post)
    (hsome : ∀ object token, answer = some object →
      Meets (token ::ₘ held) (body ⟨object, token⟩) plain
        fun a b after => ∃ rest, after = token ::ₘ rest ∧ post a b rest) :
    Meets held (q >>= fun ref => References.withRef ref absent body) plain post := by
  refine step hq fun ref after hgiven => ?_
  cases hgiven with
  | none => exact hnone rfl
  | some object token => exact releasing (hsome object token rfl)

end Meets

namespace Gives

theorem take (answer : Option α) : Gives (σ := σ) held (References.take answer) answer := by
  cases answer with
  | none => exact Meets.pure .none
  | some object =>
    rintro l s rfl
    exact ⟨_, l.take, rfl, .some object l.next⟩

theorem none : Gives (σ := σ) (α := α) held (Pure.pure none) none := Meets.pure .none

theorem firstOf {p q : Counted σ (Option (Ref α))} {first second : Option α}
    (hp : Gives held p first) (hq : first = .none → Gives held q second) :
    Gives held (References.firstOf p q) (first.or second) := by
  refine Meets.step hp fun ref after hgiven => ?_
  cases hgiven with
  | none => exact hq rfl
  | some object token => exact Meets.pure (.some object token)

/-- A reference that is got with the help of another. -/
theorem withRef {q : Counted σ (Option (Ref γ))} {got : Option γ} {answer : Option α}
    {absent : Counted σ (Option (Ref α))} {body : Ref γ → Counted σ (Option (Ref α))}
    (hq : Gives held q got) (hnone : got = .none → Gives held absent answer)
    (hsome : ∀ object token, got = .some object →
      Gives (token ::ₘ held) (body ⟨object, token⟩) answer) :
    Gives held (q >>= fun ref => References.withRef ref absent body) answer := by
  refine Meets.withRef hq hnone fun object token h => (hsome object token h).weaken ?_
  intro a b after hgiven
  cases hgiven with
  | none => exact ⟨held, rfl, .none⟩
  | some object' token' =>
    exact ⟨token' ::ₘ held, Multiset.cons_swap _ _ _, .some object' token'⟩

theorem withRef_bind {q : Counted σ (Option (Ref γ))} {got : Option γ}
    {body : Ref γ → Counted σ (Option (Ref α))} {answer : γ → Option α} (hq : Gives held q got)
    (hbody : ∀ object token, Gives (token ::ₘ held) (body ⟨object, token⟩) (answer object)) :
    Gives held (q >>= fun ref => References.withRef ref (Pure.pure .none) body)
      (got.bind answer) := by
  refine withRef hq ?_ ?_
  · rintro rfl
    exact none
  · rintro object token rfl
    exact hbody object token

end Gives

namespace Relates

variable {related : α → β → Prop}

theorem releasing {ref : Ref γ} {now : Multiset Nat} (hnow : now = ref.token ::ₘ held)
    (h : Relates now related p plain) :
    Meets now (References.releasing ref p) plain fun a b after => related a b ∧ after = held := by
  refine Meets.releasing (h.weaken ?_)
  rintro a b _ ⟨hb, rfl⟩
  exact ⟨held, hnow, hb, rfl⟩

theorem withRef {q : Counted σ (Option (Ref γ))} {answer : Option γ} {absent : Counted σ β}
    {body : Ref γ → Counted σ β} (hq : Gives held q answer)
    (hnone : answer = none → Relates held related absent plain)
    (hsome : ∀ object token, answer = some object →
      Relates (token ::ₘ held) related (body ⟨object, token⟩) plain) :
    Relates held related (q >>= fun ref => References.withRef ref absent body) plain := by
  refine Meets.withRef hq hnone fun object token h => (hsome object token h).weaken ?_
  rintro a b _ ⟨hb, rfl⟩
  exact ⟨held, rfl, hb, rfl⟩

end Relates

namespace Returns

variable {p : Counted σ α} {q : Counted σ β} {qplain : StateT σ Option β}

theorem pure (a : α) : Returns (σ := σ) held (Pure.pure a) (Pure.pure a) := Meets.pure ⟨rfl, rfl⟩

theorem call {ref : Ref α} (method : α → β) (h : ref.token ∈ held) :
    Returns (σ := σ) held (References.call ref method) (Pure.pure (method ref.object)) := by
  rintro l s rfl
  refine ⟨method ref.object, l, ?_, rfl, rfl⟩
  unfold References.call
  rw [if_pos h]
  rfl

theorem plainly (plain : StateT σ Option α) : Returns held (References.plainly plain) plain := by
  rintro l s rfl
  unfold References.plainly
  cases plain s with
  | none => rfl
  | some result => exact ⟨result.1, l, rfl, rfl, rfl⟩

/-- A step that both programs take. -/
theorem both {k : α → Counted σ δ} {kplain : α → StateT σ Option γ}
    {post : γ → δ → Multiset Nat → Prop} (h : Returns held p plain)
    (hk : ∀ a, Meets held (k a) (kplain a) post) :
    Meets held (p >>= k) (plain >>= kplain) post := by
  refine Meets.bind h ?_
  rintro a _ _ ⟨rfl, rfl⟩
  exact hk _

/-- A step that returns a value: whatever follows goes on with it. -/
theorem step {a : α} {k : α → Counted σ δ} {kplain : StateT σ Option γ}
    {post : γ → δ → Multiset Nat → Prop} (h : Returns (σ := σ) held p (Pure.pure a))
    (hk : Meets held (k a) kplain post) : Meets held (p >>= k) kplain post := by
  refine Meets.step h ?_
  rintro _ _ ⟨rfl, rfl⟩
  exact hk

theorem call_step {ref : Ref α} {method : α → β} {k : β → Counted σ δ}
    {kplain : StateT σ Option γ} {post : γ → δ → Multiset Nat → Prop} (h : ref.token ∈ held)
    (hk : Meets held (k (method ref.object)) kplain post) :
    Meets held (References.call ref method >>= k) kplain post := (call method h).step hk

theorem map {a : α} (f : α → β) (h : Returns (σ := σ) held p (Pure.pure a)) :
    Returns (σ := σ) held (f <$> p) (Pure.pure (f a)) := by
  rw [map_eq_pure_bind]
  refine Meets.step h ?_
  rintro _ _ ⟨rfl, rfl⟩
  exact pure _

theorem ite {c : Prop} [Decidable c] {p' : Counted σ α} {a b : α}
    (hp : c → Returns held p (Pure.pure a)) (hq : ¬ c → Returns held p' (Pure.pure b)) :
    Returns held (if c then p else p') (Pure.pure (if c then a else b)) := by
  split
  · next h => exact hp h
  · next h => exact hq h

theorem releasing {ref : Ref γ} {now : Multiset Nat} (hnow : now = ref.token ::ₘ held)
    (h : Returns now q qplain) :
    Meets now (References.releasing ref q) qplain fun a b after => b = a ∧ after = held :=
  Relates.releasing hnow h

theorem withRef {p : Counted σ (Option (Ref γ))} {answer : Option γ} {absent : Counted σ β}
    {body : Ref γ → Counted σ β} (hp : Gives held p answer)
    (hnone : answer = none → Returns held absent qplain)
    (hsome : ∀ object token, answer = some object →
      Returns (token ::ₘ held) (body ⟨object, token⟩) qplain) :
    Returns held (p >>= fun ref => References.withRef ref absent body) qplain :=
  Relates.withRef hp hnone hsome

end Returns

/-- The plain program's value may be looked at through a function. -/
theorem meets_map {p : Counted σ δ} {f : α → β} {post : β → δ → Multiset Nat → Prop} :
    Meets held p (f <$> plain) post ↔
      Meets held p plain fun a d after => post (f a) d after := by
  unfold Meets
  refine forall₃_congr fun l s _ => ?_
  show (match (plain s).bind fun r => some (f r.1, r.2) with
    | none => p l s = none
    | some (b, t) => ∃ d l', p l s = some (.ok (d, l'), t) ∧ post b d l'.held) ↔ _
  cases plain s with
  | none => exact Iff.rfl
  | some result => exact Iff.rfl

/-- What is lost inside a block is lost: the block's own reference is not. -/
theorem Loses.withRef {p : Counted σ (Option (Ref γ))} {answer : Option γ} {absent : Counted σ α}
    {body : Ref γ → Counted σ α} {lost : Multiset Nat → Prop} (hp : Gives held p answer)
    (hnone : answer = none → Loses held lost absent plain)
    (hsome : ∀ object token, answer = some object →
      Loses (token ::ₘ held) lost (body ⟨object, token⟩) plain) :
    Loses held lost (p >>= fun ref => References.withRef ref absent body) plain := by
  refine Meets.withRef hp hnone fun object token h => (hsome object token h).weaken ?_
  rintro a b _ ⟨hb, more, hmore, rfl⟩
  exact ⟨more + held, Multiset.add_cons _ _ _, hb, more, hmore, rfl⟩

theorem Returns.loses {p : Counted σ α} {lost : Multiset Nat → Prop} (h : Returns held p plain)
    (hlost : lost 0) : Loses held lost p plain := by
  refine h.weaken ?_
  rintro a b after ⟨hb, rfl⟩
  exact ⟨hb, 0, hlost, (Multiset.zero_add _).symm⟩

theorem Gives.query {ref : Ref α} (method : α → Option β) (h : ref.token ∈ held) :
    Gives (σ := σ) held (References.query ref method) (method ref.object) :=
  (Returns.call method h).step (Gives.take _)

/-- What comes of a run that ends. -/
theorem Meets.run {l : Ledger} {s t : σ} {result : Except Fault (β × Ledger)}
    (h : Meets l.held p plain post) (hrun : p l s = some (result, t)) :
    ∃ a b l', plain s = some (a, t) ∧ result = .ok (b, l') ∧ post a b l'.held := by
  have hmeets := h l s rfl
  cases hplain : plain s with
  | none =>
    rw [hplain] at hmeets
    exact absurd (hmeets.symm.trans hrun) nofun
  | some answer =>
    rw [hplain] at hmeets
    obtain ⟨b, l', hresult, hpost⟩ := hmeets
    cases hresult.symm.trans hrun
    exact ⟨answer.1, b, l', rfl, rfl, hpost⟩

/-! ### Tokens -/

/-- The token a pointer stands for. -/
def tokens : Option (Ref α) → Multiset Nat
  | none => 0
  | some ref => {ref.token}

theorem Given.eq_tokens {answer : Option α} {ref : Option (Ref α)} {after : Multiset Nat}
    (h : Given held answer ref after) : after = tokens ref + held := by
  cases h with
  | none => exact (Multiset.zero_add _).symm
  | some object token => exact (Multiset.singleton_add _ _).symm

theorem Given.object {answer : Option α} {ref : Option (Ref α)} {after : Multiset Nat}
    (h : Given held answer ref after) : ref.map Ref.object = answer := by
  cases h with
  | none => rfl
  | some object token => rfl

theorem Given.mem {answer : Option α} {ref : Option (Ref α)} {after : Multiset Nat}
    (h : Given held answer ref after) : ∀ ref' ∈ ref, ref'.token ∈ after := by
  cases h with
  | none => exact fun _ h => nomatch h
  | some object token =>
    rintro _ ⟨⟩
    exact Multiset.mem_cons_self _ _

theorem Given.le {answer : Option α} {ref : Option (Ref α)} {after : Multiset Nat}
    (h : Given held answer ref after) : held ≤ after := by
  rw [h.eq_tokens]
  exact Multiset.le_add_left _ _

theorem Meets.releaseIf {ref : Option (Ref α)} (h : held = tokens ref + rest) :
    Meets (σ := σ) held (References.releaseIf ref) (Pure.pure ()) fun _ _ after => after = rest := by
  cases ref with
  | none => exact Meets.pure (h.trans (Multiset.zero_add _))
  | some ref => exact Meets.release (h.trans (Multiset.singleton_add _ _))

/-! ### Loops -/

/-- Both loops keep a relation between what they have gathered, if their bodies do. -/
theorem Meets.forEach {owner : Ref γ} {get : γ → Nat → Option α}
    {body : Nat → Ref α → β → Counted σ β} {plainBody : Nat → α → δ → StateT σ Option δ}
    {related : δ → β → Prop} {objects : List (Option α)} {i : Nat} {a : δ} {b : β}
    (howner : owner.token ∈ held)
    (hbody : ∀ i object token a b, related a b →
      Meets (token ::ₘ held) (body i ⟨object, token⟩ b) (plainBody i object a)
        fun a b after => related a b ∧ after = held)
    (hget : ∀ k (hk : k < objects.length), get owner.object (i + k) = objects[k])
    (h : related a b) :
    Meets held (References.forEach owner get body objects.length i b)
      (plainForEach plainBody objects i a) fun a b after => related a b ∧ after = held := by
  induction objects generalizing i a b with
  | nil => exact Meets.pure ⟨h, rfl⟩
  | cons object objects ih =>
    have hhead : get owner.object i = object := hget 0 (Nat.zero_lt_succ _)
    have htail : ∀ k (hk : k < objects.length), get owner.object (i + 1 + k) = objects[k] := by
      intro k hk
      rw [Nat.add_assoc, Nat.add_comm 1 k]
      exact hget (k + 1) (Nat.succ_lt_succ hk)
    unfold References.forEach plainForEach
    refine Meets.step (Gives.query _ howner) fun ref after hgiven => ?_
    rw [hhead] at hgiven
    cases hgiven with
    | none => exact ih htail h
    | some object token =>
      refine Meets.bind (hbody i object token a b h) ?_
      rintro a b after ⟨h, hafter⟩
      rw [hafter]
      exact ih htail h

end References
