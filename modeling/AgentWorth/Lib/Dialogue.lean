/-!
# Dialogues with the outside

A computation that puts questions to its surroundings and waits for the answers
is a dialogue: it is over, or it asks and goes on with what it is told, which
may be that the question threw.  A conduct says which questions are in order at
each phase of a dialogue and how an answer changes the phase; a dialogue that
keeps a conduct asks only lawful questions, whatever it is answered.
-/

namespace AgentWorth.Lib

variable {Q : Type} {A : Q → Type} {P α β : Type}

/-- A computation of an `α` that asks questions `q : Q` answered by an `A q`. -/
inductive Dialogue (Q : Type) (A : Q → Type) (α : Type) where
  | done (result : Except String α)
  | ask (q : Q) (next : Except String (A q) → Dialogue Q A α)

/-- A question with its answer, or with what it threw. -/
abbrev Reply (Q : Type) (A : Q → Type) : Type := (q : Q) × Except String (A q)

namespace Dialogue

/-- `await`: a question that throws ends the dialogue. -/
def await (q : Q) (next : A q → Dialogue Q A α) : Dialogue Q A α :=
  .ask q fun answer =>
    match answer with
    | .ok a => next a
    | .error e => .done (.error e)

/-- The dialogue with its value mapped. -/
def map (f : α → β) : Dialogue Q A α → Dialogue Q A β
  | .done result => .done (result.map f)
  | .ask q next => .ask q fun answer => (next answer).map f

/-- The question that waits for an answer. -/
def pending : Dialogue Q A α → Option Q
  | .done _ => none
  | .ask q _ => some q

/-- How the dialogue ended, if it has. -/
def result : Dialogue Q A α → Option (Except String α)
  | .done r => some r
  | .ask _ _ => none

/-- The dialogue goes on with an answer to the question it waits for. -/
def hear [DecidableEq Q] : Dialogue Q A α → Reply Q A → Option (Dialogue Q A α)
  | .done _, _ => none
  | .ask q next, reply => if h : reply.1 = q then some (next (h ▸ reply.2)) else none

/-- The questions and the result when every question has a fixed answer. -/
def run (answer : (q : Q) → Except String (A q)) : Dialogue Q A α → List Q × Except String α
  | .done result => ([], result)
  | .ask q next =>
      let rest := (next (answer q)).run answer
      (q :: rest.1, rest.2)

theorem run_await (answer : (q : Q) → Except String (A q)) (q : Q)
    (next : A q → Dialogue Q A α) :
    (await q next).run answer =
      match answer q with
      | .ok a => (q :: ((next a).run answer).1, ((next a).run answer).2)
      | .error e => ([q], .error e) := by
  cases h : answer q <;> simp only [await, run, h]

theorem run_map (answer : (q : Q) → Except String (A q)) (f : α → β)
    (dialogue : Dialogue Q A α) :
    (dialogue.map f).run answer =
      ((dialogue.run answer).1, (dialogue.run answer).2.map f) := by
  induction dialogue with
  | done result => rfl
  | ask q next ih => simp only [map, run, ih]

end Dialogue

/-! ## Conducts -/

/-- Rules for the questions of a dialogue, by phases of type `P`. -/
structure Conduct (Q : Type) (A : Q → Type) (P : Type) where
  /-- the question is in order -/
  may : P → Q → Prop
  /-- the phase an answer leads to -/
  after : P → (q : Q) → Except String (A q) → P

namespace Conduct

variable (K : Conduct Q A P)

/-- The phase after some replies. -/
def phase (p : P) (replies : List (Reply Q A)) : P :=
  replies.foldl (fun p r => K.after p r.1 r.2) p

/-- Every question was in order when it was asked. -/
def Lawful : P → List (Reply Q A) → Prop
  | _, [] => True
  | p, r :: rs => K.may p r.1 ∧ Lawful (K.after p r.1 r.2) rs

@[simp] theorem phase_snoc (p : P) (replies : List (Reply Q A)) (r : Reply Q A) :
    K.phase p (replies ++ [r]) = K.after (K.phase p replies) r.1 r.2 := by
  simp [phase]

theorem lawful_snoc {p : P} {replies : List (Reply Q A)} {r : Reply Q A} :
    K.Lawful p (replies ++ [r]) ↔ K.Lawful p replies ∧ K.may (K.phase p replies) r.1 := by
  induction replies generalizing p with
  | nil => simp [Lawful, phase]
  | cons r' rs ih =>
      rw [List.cons_append]
      simp only [Lawful, ih, and_assoc]
      rfl

end Conduct

namespace Dialogue

/-- From this phase on, the dialogue asks in order and ends well or in an
error. -/
def Keeps (K : Conduct Q A P) (post : P → α → Prop) : P → Dialogue Q A α → Prop
  | p, .done (.ok a) => post p a
  | _, .done (.error _) => True
  | p, .ask q next => K.may p q ∧ ∀ answer, Keeps K post (K.after p q answer) (next answer)

variable {K : Conduct Q A P} {post : P → α → Prop} {p : P}

theorem keeps_await {q : Q} {next : A q → Dialogue Q A α} (hmay : K.may p q)
    (hnext : ∀ a, (next a).Keeps K post (K.after p q (.ok a))) :
    (await q next).Keeps K post p := by
  refine ⟨hmay, ?_⟩
  intro answer
  cases answer with
  | ok a => exact hnext a
  | error e => trivial

theorem keeps_map {f : α → β} {post : P → β → Prop} (dialogue : Dialogue Q A α)
    (h : dialogue.Keeps K (fun p a => post p (f a)) p) : (dialogue.map f).Keeps K post p := by
  induction dialogue generalizing p with
  | done result =>
      cases result with
      | ok a => exact h
      | error e => trivial
  | ask q next ih => exact ⟨h.1, fun answer => ih answer (h.2 answer)⟩

/-- What a dialogue ends with may be weakened. -/
theorem Keeps.mono {post' : P → α → Prop} {dialogue : Dialogue Q A α}
    (h : dialogue.Keeps K post p) (hpost : ∀ p a, post p a → post' p a) :
    dialogue.Keeps K post' p := by
  induction dialogue generalizing p with
  | done result =>
      cases result with
      | ok a => exact hpost p a h
      | error e => trivial
  | ask q next ih => exact ⟨h.1, fun answer => ih answer (h.2 answer)⟩

/-- **An answer keeps the conduct**, and was to a question in order. -/
theorem Keeps.hear [DecidableEq Q] {dialogue dialogue' : Dialogue Q A α} {reply : Reply Q A}
    (h : dialogue.Keeps K post p) (hheard : dialogue.hear reply = some dialogue') :
    dialogue.pending = some reply.1 ∧ K.may p reply.1 ∧
      dialogue'.Keeps K post (K.after p reply.1 reply.2) := by
  cases dialogue with
  | done result => cases hheard
  | ask q next =>
      obtain ⟨asked, answer⟩ := reply
      simp only [Dialogue.hear] at hheard
      split at hheard
      · next hq =>
          subst hq
          cases hheard
          exact ⟨rfl, h.1, h.2 answer⟩
      · cases hheard

theorem Keeps.pending {dialogue : Dialogue Q A α} {q : Q} (h : dialogue.Keeps K post p)
    (hpending : dialogue.pending = some q) : K.may p q := by
  cases dialogue with
  | done result => cases hpending
  | ask asked next =>
      cases hpending
      exact h.1

theorem Keeps.result {dialogue : Dialogue Q A α} {a : α} (h : dialogue.Keeps K post p)
    (hresult : dialogue.result = some (.ok a)) : post p a := by
  cases dialogue with
  | done result =>
      cases hresult
      exact h
  | ask asked next => cases hresult

/-- A dialogue that is over waits for nothing. -/
theorem pending_of_result {dialogue : Dialogue Q A α} {r : Except String α}
    (h : dialogue.result = some r) : dialogue.pending = none := by
  cases dialogue with
  | done result => rfl
  | ask asked next => cases h

end Dialogue

end AgentWorth.Lib
