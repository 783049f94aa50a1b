import Edifice.Check
import Edifice.Model.Error

/-!
Changes: operations that change a state, and may be refused on the way.

A change runs to its end with an answer, or is refused with a cause; either way it leaves
a state behind, so a refused change may have changed something.  It is put together of
questions, which can refuse but never change the state (`ask`), and of writes, which
change the state but never refuse.  The lemmas take a run of a change apart into the runs
of its parts.
-/

namespace Edifice

/-- A change of a state that answers a value or is refused. -/
abbrev Change (σ α : Type) := EStateM ModelError σ α

namespace Change

variable {σ τ α β : Type}

/-- Asks the state a question, which may be refused and changes nothing. -/
def ask (question : σ → Except ModelError α) : Change σ α := fun s =>
  match question s with
  | .ok a => .ok a s
  | .error e => .error e s

/-- Runs a change on a part of the state, in whose place the changed part is put whether
the change is refused or not. -/
def within (part : σ → τ) (put : τ → σ → σ) (c : Change τ α) : Change σ α := fun s =>
  match c (part s) with
  | .ok a t => .ok a (put t s)
  | .error e t => .error e (put t s)

/-- What a change answers. -/
def answer (c : Change σ α) (s : σ) : Except ModelError α :=
  match c s with
  | .ok a _ => .ok a
  | .error e _ => .error e

/-- The state that a change leaves behind. -/
def after (c : Change σ α) (s : σ) : σ :=
  match c s with
  | .ok _ s' => s'
  | .error _ s' => s'

/-! ### Taking runs apart -/

variable {s s' s'' : σ} {a : α} {e : ModelError}

@[simp] theorem ask_eq_ok {question : σ → Except ModelError α} :
    ask question s = .ok a s' ↔ question s = .ok a ∧ s = s' := by
  unfold ask
  cases question s <;> simp

@[simp] theorem ask_eq_error {question : σ → Except ModelError α} :
    ask question s = .error e s' ↔ question s = .error e ∧ s' = s := by
  unfold ask
  cases question s <;> simp [eq_comm]

theorem bind_eq_ok {x : Change σ α} {f : α → Change σ β} {b : β} :
    (x >>= f) s = .ok b s'' ↔ ∃ a s', x s = .ok a s' ∧ f a s' = .ok b s'' := by
  simp only [bind, EStateM.bind]
  cases x s <;> simp [and_assoc]

theorem bind_eq_error {x : Change σ α} {f : α → Change σ β} :
    (x >>= f) s = .error e s'' ↔
      x s = .error e s'' ∨ ∃ a s', x s = .ok a s' ∧ f a s' = .error e s'' := by
  simp only [bind, EStateM.bind]
  cases x s <;> simp [and_assoc]

/-- What follows a question starts from the state that was asked. -/
theorem ask_bind_eq_ok {question : σ → Except ModelError α} {f : α → Change σ β} {b : β} :
    (ask question >>= f) s = .ok b s' ↔ ∃ a, question s = .ok a ∧ f a s = .ok b s' := by
  simp only [bind_eq_ok, ask_eq_ok]
  constructor
  · rintro ⟨a, _, ⟨answer, rfl⟩, ran⟩
    exact ⟨a, answer, ran⟩
  · rintro ⟨a, answer, ran⟩
    exact ⟨a, s, ⟨answer, rfl⟩, ran⟩

/-- What follows a check is run exactly if the check is passed. -/
theorem ask_then_eq_ok {check : σ → Except ModelError Unit} {c : Change σ β} {b : β} :
    (ask check >>= fun _ => c) s = .ok b s' ↔ check s = .ok () ∧ c s = .ok b s' := by
  rw [ask_bind_eq_ok]
  exact ⟨fun ⟨(), passed, ran⟩ => ⟨passed, ran⟩, fun ⟨passed, ran⟩ => ⟨(), passed, ran⟩⟩

@[simp] theorem pure_eq_ok {b : α} : (pure b : Change σ α) s = .ok a s' ↔ b = a ∧ s = s' := by
  simp [pure, EStateM.pure]

@[simp] theorem pure_ne_error {b : α} : (pure b : Change σ α) s ≠ .error e s' := by
  simp [pure, EStateM.pure]

@[simp] theorem get_eq_ok {t : σ} : (get : Change σ σ) s = .ok t s' ↔ s = t ∧ s = s' := by
  show EStateM.Result.ok s s = .ok t s' ↔ _
  simp

@[simp] theorem get_ne_error : (get : Change σ σ) s ≠ .error e s' := by
  show EStateM.Result.ok s s ≠ .error e s'
  simp

@[simp] theorem modify_eq_ok {f : σ → σ} {u : Unit} :
    (modify f : Change σ Unit) s = .ok u s' ↔ f s = s' := by
  show EStateM.Result.ok () (f s) = .ok u s' ↔ _
  simp

@[simp] theorem modify_ne_error {f : σ → σ} : (modify f : Change σ Unit) s ≠ .error e s' := by
  show EStateM.Result.ok () (f s) ≠ .error e s'
  simp

@[simp] theorem modifyGet_eq_ok {f : σ → α × σ} :
    (modifyGet f : Change σ α) s = .ok a s' ↔ f s = (a, s') := by
  show EStateM.Result.ok (f s).1 (f s).2 = .ok a s' ↔ _
  simp [Prod.ext_iff]

@[simp] theorem modifyGet_ne_error {f : σ → α × σ} :
    (modifyGet f : Change σ α) s ≠ .error e s' := by
  show EStateM.Result.ok (f s).1 (f s).2 ≠ .error e s'
  simp

theorem within_eq_ok {part : σ → τ} {put : τ → σ → σ} {c : Change τ α} :
    within part put c s = .ok a s' ↔ ∃ t, c (part s) = .ok a t ∧ put t s = s' := by
  unfold within
  cases c (part s) <;> simp [and_assoc]

theorem within_eq_error {part : σ → τ} {put : τ → σ → σ} {c : Change τ α} :
    within part put c s = .error e s' ↔ ∃ t, c (part s) = .error e t ∧ put t s = s' := by
  unfold within
  cases c (part s) <;> simp [and_assoc]

theorem after_of_ok {c : Change σ α} (h : c s = .ok a s') : c.after s = s' := by
  simp [after, h]

theorem after_of_error {c : Change σ α} (h : c s = .error e s') : c.after s = s' := by
  simp [after, h]

theorem answer_eq_ok {c : Change σ α} : c.answer s = .ok a ↔ c s = .ok a (c.after s) := by
  unfold answer after
  cases c s <;> simp

theorem answer_eq_error {c : Change σ α} :
    c.answer s = .error e ↔ c s = .error e (c.after s) := by
  unfold answer after
  cases c s <;> simp

end Change

end Edifice
