import Edifice.Check
import Mathlib.Data.List.Forall2

/-!
Two checks side by side.

Two checks match when both are answered or both are refused, with a relation between the
answers and one between the refusals (`Check.Matches`).  Matching is carried along the ways
to put checks together, so two readings that go the same way are compared step by step, as
one reading is followed by `Check.Gives` and `Check.Yields`.
-/

namespace Edifice.Check

/-- Both are answered, with `R` between the answers, or both are refused, with `E` between
what stands in their way. -/
inductive Matches {ε δ α β : Type} :
    Except ε α → Except δ β → (α → β → Prop) → (ε → δ → Prop) → Prop where
  | ok {a : α} {b : β} {R : α → β → Prop} {E : ε → δ → Prop} (holds : R a b) :
    Matches (.ok a) (.ok b) R E
  | error {e : ε} {d : δ} {R : α → β → Prop} {E : ε → δ → Prop} (holds : E e d) :
    Matches (.error e) (.error d) R E

variable {ε δ α β γ η ι κ : Type} {x : Except ε α} {y : Except δ β} {R : α → β → Prop}
  {S : γ → η → Prop} {E : ε → δ → Prop} {e : ε} {d : δ}

theorem Matches.imp {R' : α → β → Prop} {E' : ε → δ → Prop} (both : Matches x y R E)
    (answered : ∀ a b, R a b → R' a b) (refused : ∀ e d, E e d → E' e d) :
    Matches x y R' E' := by
  cases both with
  | ok holds => exact .ok (answered _ _ holds)
  | error holds => exact .error (refused _ _ holds)

theorem Matches.mono {R' : α → β → Prop} (both : Matches x y R E)
    (more : ∀ a b, R a b → R' a b) : Matches x y R' E :=
  both.imp more fun _ _ => id

/-- Where the first is answered, so is the second. -/
theorem Matches.answered {a : α} (both : Matches x y R E) (answer : x = .ok a) :
    ∃ b, y = .ok b ∧ R a b := by
  subst answer
  cases both with
  | ok holds => exact ⟨_, rfl, holds⟩

theorem Matches.answered' {b : β} (both : Matches x y R E) (answer : y = .ok b) :
    ∃ a, x = .ok a ∧ R a b := by
  subst answer
  cases both with
  | ok holds => exact ⟨_, rfl, holds⟩

/-- What follows on alike answers is alike if it is so for each of them. -/
theorem Matches.bind {f : α → Except ε γ} {g : β → Except δ η} (first : Matches x y R E)
    (then_ : ∀ a b, R a b → Matches (f a) (g b) S E) : Matches (x >>= f) (y >>= g) S E := by
  cases first with
  | ok holds => exact then_ _ _ holds
  | error holds => exact .error holds

/-- The same is asked in both, and goes on with the same answer. -/
theorem Matches.after {y : Except δ α} {f : α → Except ε γ} {g : α → Except δ η}
    (first : Matches x y Eq E) (then_ : ∀ a, Matches (f a) (g a) S E) :
    Matches (x >>= f) (y >>= g) S E := by
  refine first.bind ?_
  rintro a _ rfl
  exact then_ a

theorem Matches.unless {p : Prop} [Decidable p] {f : Unit → Except ε γ} {g : Unit → Except δ η}
    (blocked : p → E e d) (rest : ¬ p → Matches (f ()) (g ()) S E) :
    Matches (if p then throw e >>= f else f ()) (if p then throw d >>= g else g ()) S E := by
  split
  case isTrue holds => exact .error (blocked holds)
  case isFalse fails => exact rest fails

theorem Matches.ite {p : Prop} [Decidable p] {x' : Except ε α} {y' : Except δ β}
    (yes : p → Matches x y R E) (no : ¬ p → Matches x' y' R E) :
    Matches (if p then x else x') (if p then y else y') R E := by
  split
  case isTrue holds => exact yes holds
  case isFalse fails => exact no fails

theorem Matches.map {f : α → γ} {g : β → η} (both : Matches x y (fun a b => S (f a) (g b)) E) :
    Matches (x.map f) (y.map g) S E := by
  cases both with
  | ok holds => exact .ok holds
  | error holds => exact .error holds

/-! ### Loops over lists that correspond -/

variable {T : ι → κ → Prop} {l : List ι} {l' : List κ}

/-- Two loops keep what each of their turns keeps. -/
theorem Matches.foldlM {f : α → ι → Except ε α} {g : β → κ → Except δ β} {a : α} {b : β}
    (listed : List.Forall₂ T l l')
    (turn : ∀ i j, T i j → ∀ a b, R a b → Matches (f a i) (g b j) R E) (start : R a b) :
    Matches (l.foldlM f a) (l'.foldlM g b) R E := by
  induction listed generalizing a b with
  | nil => exact .ok start
  | cons first rest ih =>
    rw [List.foldlM_cons, List.foldlM_cons]
    exact .bind (turn _ _ first a b start) fun _ _ kept => ih kept

/-- Lists are answered alike whose elements are, by induction on both. -/
theorem Matches.mapM {f : ι → Except ε α} {g : κ → Except δ β} (listed : List.Forall₂ T l l')
    (each : ∀ i j, T i j → Matches (f i) (g j) R E) :
    Matches (l.mapM f) (l'.mapM g) (List.Forall₂ R) E := by
  induction listed with
  | nil => exact .ok .nil
  | cons first rest ih =>
    rw [List.mapM_cons, List.mapM_cons]
    exact .bind (each _ _ first) fun _ _ holds => .bind ih fun _ _ hold => .ok (.cons holds hold)

end Edifice.Check
