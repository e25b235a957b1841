import RemoteControl.Lib.Linearizable

/-!
# Work done by one thread

Callers hand their work to one thread, which takes a piece whenever it has none, in any order,
and does it step by step. A state and the history behind it are explained by the pieces of work
done in one go, in the order they were finished.

* `Serial.of_reachable`: in every interleaving this order is a linearization, the pieces that
  were not begun or not finished are not in it, and the piece under way began where it ends.
-/

namespace SingleThread

open Transition Linearizable

/-- A piece of work, step by step. -/
inductive Body (σ R : Type)
  | done (result : R)
  | step (change : σ → σ) (next : σ → Body σ R)
  /-- It never gets any further. -/
  | diverges

namespace Body

variable {σ R A : Type}

/-- The work in one go. -/
def perform : Body σ R → σ → Option (R × σ)
  | .done result, s => some (result, s)
  | .step change next, s => (next s).perform (change s)
  | .diverges, _ => none

/-- A program that reads and changes the state at once. -/
def act (program : StateT σ Option R) : Body σ R :=
  .step (fun s => (program s).elim s Prod.snd) fun s =>
    (program s).elim .diverges fun answer => .done answer.1

def bind (k : A → Body σ R) : Body σ A → Body σ R
  | .done a => k a
  | .step change next => .step change fun s => (next s).bind k
  | .diverges => .diverges

theorem perform_act (program : StateT σ Option R) (s : σ) :
    (act program).perform s = program s := by
  show ((program s).elim .diverges fun answer => Body.done answer.1).perform
    ((program s).elim s Prod.snd) = program s
  cases program s with
  | none => rfl
  | some answer => rfl

theorem perform_bind (k : A → Body σ R) (body : Body σ A) (s : σ) :
    (body.bind k).perform s =
      (body.perform s).bind fun answer => (k answer.1).perform answer.2 := by
  induction body generalizing s with
  | done a => rfl
  | step change next ih => exact ih s (change s)
  | diverges => rfl

end Body

variable {σ ι R : Type}

/-- The work as an operation in one go. -/
def object (σ R : Type) : SectionedObject σ (Body σ R) Unit R where
  start _ := ()
  advance body _ s := (body.perform s).map fun answer => (.inr answer.1, answer.2)
  perform body s := body.perform s
  silent h := by
    obtain ⟨_, -, heq⟩ := Option.map_eq_some_iff.mp h
    cases heq
  commits h := by
    obtain ⟨_, hperform, heq⟩ := Option.map_eq_some_iff.mp h
    cases heq
    exact hperform

/-! ## The thread and its callers -/

inductive Stage (σ R : Type)
  | queued
  | running (rest : Body σ R)
  | finished (result : R)
  | returned (result : R)

/-- The work is done. -/
def Stage.Over : Stage σ R → Prop
  | .queued | .running _ => False
  | .finished _ | .returned _ => True

structure Work (σ R : Type) where
  body : Body σ R
  stage : Stage σ R

structure System (σ ι R : Type) where
  shared : σ
  works : ι → Option (Work σ R)
  running : Option ι
  history : List (Event ι (Body σ R) R)

def init (s : σ) : System σ ι R := ⟨s, fun _ => none, none, []⟩

inductive Action (σ ι R : Type)
  | submit (id : ι) (body : Body σ R)
  | take (id : ι)
  /-- The thread takes the next step of its work. -/
  | advance
  | respond (id : ι)

variable [DecidableEq ι]

def System.put (s : System σ ι R) (id : ι) (work : Work σ R) : System σ ι R :=
  { s with works := Function.update s.works id (some work) }

def step (s : System σ ι R) : Action σ ι R → Option (System σ ι R)
  | .submit id body =>
    match s.works id with
    | some _ => none
    | none => some { s.put id ⟨body, .queued⟩ with history := s.history ++ [.invoke id body] }
  | .take id =>
    match s.running, s.works id with
    | none, some ⟨body, .queued⟩ =>
      some { s.put id ⟨body, .running body⟩ with running := some id }
    | _, _ => none
  | .advance =>
    match s.running with
    | none => none
    | some id =>
      match s.works id with
      | some ⟨body, .running (.done result)⟩ =>
        some { s.put id ⟨body, .finished result⟩ with running := none }
      | some ⟨body, .running (.step change next)⟩ =>
        some { s.put id ⟨body, .running (next s.shared)⟩ with shared := change s.shared }
      | _ => none
  | .respond id =>
    match s.works id with
    | some ⟨body, .finished result⟩ =>
      some { s.put id ⟨body, .returned result⟩ with
        history := s.history ++ [.respond id result] }
    | _ => none

section Steps

variable {s : System σ ι R} {id : ι} {body : Body σ R} {result : R}

theorem put_put (id : ι) (work work' : Work σ R) :
    (s.put id work).put id work' = s.put id work' := by
  unfold System.put
  rw [Function.update_idem]

theorem step_take (hidle : s.running = none) (hw : s.works id = some ⟨body, .queued⟩) :
    step s (.take id) = some { s.put id ⟨body, .running body⟩ with running := some id } := by
  simp only [step, hidle, hw]

theorem step_advance {change : σ → σ} {next : σ → Body σ R} (hrunning : s.running = some id)
    (hw : s.works id = some ⟨body, .running (.step change next)⟩) :
    step s .advance =
      some { s.put id ⟨body, .running (next s.shared)⟩ with shared := change s.shared } := by
  simp only [step, hrunning, hw]

theorem step_finish (hrunning : s.running = some id)
    (hw : s.works id = some ⟨body, .running (.done result)⟩) :
    step s .advance = some { s.put id ⟨body, .finished result⟩ with running := none } := by
  simp only [step, hrunning, hw]

theorem step_respond (hw : s.works id = some ⟨body, .finished result⟩) :
    step s (.respond id) =
      some { s.put id ⟨body, .returned result⟩ with
        history := s.history ++ [.respond id result] } := by
  simp only [step, hw]

end Steps

/-! ## In one go -/

def Stage.whole : Stage σ R → Linearizable.Stage Unit R
  | .queued | .running _ => .running ()
  | .finished result => .finished result
  | .returned result => .returned result

def Work.whole (work : Work σ R) : Call (Body σ R) Unit R := ⟨work.body, work.stage.whole⟩

/-- The system with the work under way not yet begun: `base` is the state it began in. -/
def System.whole (s : System σ ι R) (base : σ) : Linearizable.System σ ι (Body σ R) Unit R :=
  ⟨base, fun id => (s.works id).map Work.whole, s.history⟩

/-- The thread has brought `base` to the shared state with what it has done of its work. -/
def System.UnderWay (s : System σ ι R) (base : σ) : Prop :=
  match s.running with
  | none => base = s.shared
  | some id => ∃ body rest, s.works id = some ⟨body, .running rest⟩ ∧
      body.perform base = rest.perform s.shared

/-- The finished works, in the order they were finished, explain what has happened. -/
structure Serial (s₀ : σ) (s : System σ ι R) (order : List (Entry ι (Body σ R) R)) (base : σ) :
    Prop where
  inv : Inv (object σ R) s₀ (s.whole base) order
  returned : ∀ id body result, s.works id = some ⟨body, .returned result⟩ →
    ⟨id, body, result⟩ ∈ order
  underWay : s.UnderWay base
  alone : ∀ id body rest, s.works id = some ⟨body, .running rest⟩ → s.running = some id

variable {s₀ base : σ} {s t : System σ ι R} {order : List (Entry ι (Body σ R) R)}

omit [DecidableEq ι] in
theorem calls_whole {id : ι} {work : Work σ R} (h : s.works id = some work) :
    (s.whole base).calls id = some work.whole := by
  show (s.works id).map Work.whole = some work.whole
  rw [h, Option.map_some]

theorem whole_put (s : System σ ι R) (id : ι) (work : Work σ R) :
    (fun id' => ((s.put id work).works id').map Work.whole) =
      Function.update (fun id' => (s.works id').map Work.whole) id (some work.whole) := by
  funext id'
  unfold System.put
  by_cases hid : id' = id
  · subst hid
    simp only [Function.update_self, Option.map_some]
  · simp only [Function.update_of_ne hid]

theorem put_self (id : ι) (work : Work σ R) : (s.put id work).works id = some work :=
  Function.update_self ..

theorem put_of_ne {id id' : ι} (hid : id' ≠ id) (work : Work σ R) :
    (s.put id work).works id' = s.works id' := Function.update_of_ne hid ..

theorem put_eq_some {id id' : ι} {work work' : Work σ R}
    (h : (s.put id work).works id' = some work') :
    (id' = id ∧ work' = work) ∨ (id' ≠ id ∧ s.works id' = some work') := by
  by_cases hid : id' = id
  · subst hid
    rw [put_self] at h
    exact .inl ⟨rfl, (Option.some.inj h).symm⟩
  · rw [put_of_ne hid] at h
    exact .inr ⟨hid, h⟩

/-- A piece at another stage than the one that is put was there before. -/
theorem works_of_put {id id' : ι} {work work' : Work σ R}
    (h : (s.put id work).works id' = some work') (hne : work' ≠ work) :
    s.works id' = some work' := by
  rcases put_eq_some h with ⟨-, heq⟩ | ⟨-, h⟩
  · exact absurd heq hne
  · exact h

omit [DecidableEq ι] in
theorem System.UnderWay.eq_shared (h : s.UnderWay base) (hidle : s.running = none) :
    base = s.shared := by
  unfold System.UnderWay at h
  rw [hidle] at h
  exact h

omit [DecidableEq ι] in
theorem System.UnderWay.perform_eq {id : ι} {body rest : Body σ R} (h : s.UnderWay base)
    (hrunning : s.running = some id) (hw : s.works id = some ⟨body, .running rest⟩) :
    body.perform base = rest.perform s.shared := by
  unfold System.UnderWay at h
  rw [hrunning] at h
  obtain ⟨body', rest', hw', hperform⟩ := h
  cases hw.symm.trans hw'
  exact hperform

/-- What is not under way may change, and so may the history. -/
theorem System.UnderWay.put {id : ι} {work : Work σ R} {history : List (Event ι (Body σ R) R)}
    (h : s.UnderWay base) (hnot : ∀ body rest, s.works id ≠ some ⟨body, .running rest⟩) :
    System.UnderWay { s.put id work with history } base := by
  unfold System.UnderWay at h ⊢
  split at h
  · next hrunning =>
    show match s.running with | none => _ | some id => _
    rw [hrunning]
    exact h
  · next other hrunning =>
    obtain ⟨body, rest, hw, hperform⟩ := h
    have hne : other ≠ id := by
      rintro rfl
      exact hnot body rest hw
    show match s.running with | none => _ | some id => _
    rw [hrunning]
    exact ⟨body, rest, (put_of_ne hne _).trans hw, hperform⟩

omit [DecidableEq ι] in
theorem Serial.init : Serial s₀ (init s₀ : System σ ι R) [] s₀ where
  inv := .init
  returned _ _ _ h := nomatch h
  underWay := rfl
  alone _ _ _ h := nomatch h

namespace Serial

variable {id : ι} {body rest : Body σ R} {result : R}

theorem submit (h : Serial s₀ s order base) (hnew : s.works id = none) :
    Serial s₀ { s.put id ⟨body, .queued⟩ with history := s.history ++ [.invoke id body] } order
      base where
  inv := by
    have hnone : (s.whole base).calls id = none := by
      show (s.works id).map Work.whole = none
      rw [hnew, Option.map_none]
    unfold System.whole
    rw [whole_put]
    exact h.inv.invoke hnone
  returned id' body' result' hw := h.returned id' body' result' (works_of_put hw (by simp))
  underWay := h.underWay.put fun body' rest' heq => nomatch hnew.symm.trans heq
  alone id' body' rest' hw := h.alone id' body' rest' (works_of_put hw (by simp))

/-- The thread begins: what it is going to do has not been done of the state it finds. -/
theorem take (h : Serial s₀ s order base) (hidle : s.running = none)
    (hw : s.works id = some ⟨body, .queued⟩) :
    Serial s₀ { s.put id ⟨body, .running body⟩ with running := some id } order base where
  inv := by
    have hcalls : (s.whole base).calls id = some ⟨body, .running ()⟩ := calls_whole hw
    unfold System.whole
    rw [whole_put]
    exact h.inv.silent hcalls
  returned id' body' result' hw' := h.returned id' body' result' (works_of_put hw' (by simp))
  underWay := ⟨body, body, put_self id _, congrArg body.perform (h.underWay.eq_shared hidle)⟩
  alone id' body' rest' hw' := by
    rcases put_eq_some hw' with ⟨rfl, -⟩ | ⟨-, hw'⟩
    · rfl
    · cases hidle.symm.trans (h.alone id' body' rest' hw')

/-- A step that the thread takes of its work changes nothing that the others see. -/
theorem advance {change : σ → σ} {next : σ → Body σ R} (h : Serial s₀ s order base)
    (hrunning : s.running = some id) (hw : s.works id = some ⟨body, .running (.step change next)⟩) :
    Serial s₀ { s.put id ⟨body, .running (next s.shared)⟩ with shared := change s.shared } order
      base where
  inv := by
    have hcalls : (s.whole base).calls id = some ⟨body, .running ()⟩ := calls_whole hw
    unfold System.whole
    rw [whole_put]
    exact h.inv.silent hcalls
  returned id' body' result' hw' := h.returned id' body' result' (works_of_put hw' (by simp))
  underWay := by
    have hperform := h.underWay.perform_eq hrunning hw
    unfold System.UnderWay
    show match s.running with | none => _ | some id => _
    rw [hrunning]
    exact ⟨body, next s.shared, put_self id _, hperform⟩
  alone id' body' rest' hw' := by
    rcases put_eq_some hw' with ⟨rfl, -⟩ | ⟨-, hw'⟩
    · exact hrunning
    · exact h.alone id' body' rest' hw'

/-- With the last step the work is done in one go, on the state it began in. -/
theorem finish (h : Serial s₀ s order base) (hrunning : s.running = some id)
    (hw : s.works id = some ⟨body, .running (.done result)⟩) :
    Serial s₀ { s.put id ⟨body, .finished result⟩ with running := none }
      (order ++ [⟨id, body, result⟩]) s.shared where
  inv := by
    have hperform : body.perform base = some (result, s.shared) :=
      h.underWay.perform_eq hrunning hw
    have hinv := h.inv.commit (calls_whole hw) hperform
    unfold System.whole
    rw [whole_put]
    exact hinv
  returned id' body' result' hw' :=
    List.mem_append_left _ (h.returned id' body' result' (works_of_put hw' (by simp)))
  underWay := rfl
  alone id' body' rest' hw' := by
    rcases put_eq_some hw' with ⟨-, heq⟩ | ⟨hne, hw'⟩
    · cases heq
    · have hother := h.alone id' body' rest' hw'
      rw [hrunning] at hother
      exact absurd (Option.some.inj hother).symm hne

theorem respond (h : Serial s₀ s order base) (hw : s.works id = some ⟨body, .finished result⟩) :
    Serial s₀ { s.put id ⟨body, .returned result⟩ with
      history := s.history ++ [.respond id result] } order base where
  inv := by
    have hinv := h.inv.respond (calls_whole hw)
    unfold System.whole
    rw [whole_put]
    exact hinv
  returned id' body' result' hw' := by
    rcases put_eq_some hw' with ⟨rfl, heq⟩ | ⟨-, hw'⟩
    · cases heq
      refine h.inv.finished id' body result ?_
      show (s.works id').map Work.whole = _
      rw [hw]
      rfl
    · exact h.returned id' body' result' hw'
  underWay := h.underWay.put fun body' rest' heq => nomatch hw.symm.trans heq
  alone id' body' rest' hw' := h.alone id' body' rest' (works_of_put hw' (by simp))

theorem step {action : Action σ ι R} (h : Serial s₀ s order base)
    (hst : SingleThread.step s action = some t) :
    ∃ order' base', Serial s₀ t order' base' := by
  cases action with
  | submit id body =>
    unfold SingleThread.step at hst
    dsimp only at hst
    split at hst
    · cases hst
    · next hnew =>
      cases hst
      exact ⟨order, base, h.submit hnew⟩
  | take id =>
    unfold SingleThread.step at hst
    dsimp only at hst
    split at hst
    · next body hidle hw =>
      cases hst
      exact ⟨order, base, h.take hidle hw⟩
    · cases hst
  | advance =>
    unfold SingleThread.step at hst
    dsimp only at hst
    split at hst
    · cases hst
    · next id hrunning =>
      split at hst
      · next body result hw =>
        cases hst
        exact ⟨_, _, h.finish hrunning hw⟩
      · next body change next hw =>
        cases hst
        exact ⟨order, base, h.advance hrunning hw⟩
      · cases hst
  | respond id =>
    unfold SingleThread.step at hst
    dsimp only at hst
    split at hst
    · next body result hw =>
      cases hst
      exact ⟨order, base, h.respond hw⟩
    · cases hst

theorem of_reachable (h : Reachable SingleThread.step (SingleThread.init s₀) s) :
    ∃ order base, Serial s₀ s order base :=
  h.invariant (I := fun s => ∃ order base, Serial s₀ s order base) ⟨[], s₀, .init⟩
    fun ⟨_, _, hs⟩ hst => hs.step hst

/-! What the order says of a piece of work. -/

omit [DecidableEq ι] in
theorem base_eq (h : Serial s₀ s order base) (hidle : s.running = none) : base = s.shared :=
  h.underWay.eq_shared hidle

omit [DecidableEq ι] in
theorem finished (h : Serial s₀ s order base) (hw : s.works id = some ⟨body, .finished result⟩) :
    ⟨id, body, result⟩ ∈ order := h.inv.finished id body result (calls_whole hw)

omit [DecidableEq ι] in
theorem not_mem {stage : Stage σ R} (h : Serial s₀ s order base)
    (hw : s.works id = some ⟨body, stage⟩) (hover : ¬ stage.Over) : ∀ e ∈ order, e.id ≠ id := by
  have hcalls : (s.whole base).calls id = some ⟨body, .running ()⟩ := by
    rw [calls_whole hw]
    cases stage with
    | queued | running => rfl
    | finished | returned => exact absurd trivial hover
  exact (h.inv.running id body () hcalls).2

end Serial

end SingleThread
