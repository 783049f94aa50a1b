/-!
Checks.

A check answers in `Except`: with what it has found, or with what stands in the way.  A
check made of several is refused by the first of them that is; the lemmas here take an
answer apart into the answers of its parts, and say what all answers have in common.
-/

namespace Edifice.Check

variable {ε α β : Type} {e : ε} {a : α}

@[simp] theorem throw_eq : (throw e : Except ε α) = .error e :=
  rfl

@[simp] theorem pure_eq : (pure a : Except ε α) = .ok a :=
  rfl

@[simp] theorem error_bind {f : α → Except ε β} : (Except.error e >>= f) = .error e :=
  rfl

@[simp] theorem ok_bind {f : α → Except ε β} : (Except.ok a >>= f) = f a :=
  rfl

/-- Checks made one after the other are answered together. -/
theorem bind_eq_ok {x : Except ε α} {f : α → Except ε β} {b : β} :
    (x >>= f) = .ok b ↔ ∃ a, x = .ok a ∧ f a = .ok b := by
  cases x <;> simp

theorem then_eq_ok {x : Except ε Unit} {f : Unit → Except ε β} {b : β} :
    (x >>= f) = .ok b ↔ x = .ok () ∧ f () = .ok b := by
  cases x <;> simp

/-- Answers, without what stands in the way of others. -/
theorem toOption_eq_some {x : Except ε α} : x.toOption = some a ↔ x = .ok a := by
  cases x <;> simp [Except.toOption]

/-- What is known about an answer tells that there is one. -/
theorem toOption_map_eq_some {x : Except ε α} {f : α → β} {b : β} :
    x.toOption.map f = some b ↔ ∃ a, x = .ok a ∧ f a = b := by
  simp only [Option.map_eq_some_iff, toOption_eq_some]

theorem isOk_iff {x : Except ε α} : x.isOk ↔ ∃ a, x = .ok a := by
  cases x <;> simp [Except.isOk, Except.toBool]

/-- What has something in its way is not answered. -/
@[simp] theorem refuse_eq_ok {p : Prop} [Decidable p] {x : Except ε α} :
    (if p then .error e else x) = .ok a ↔ ¬ p ∧ x = .ok a := by
  split <;> simp [*]

/-! ### What answers are like -/

variable {x : Except ε α} {P Q : α → Prop} {R : β → Prop}

/-- Whatever is answered has the property. -/
def Gives (x : Except ε α) (P : α → Prop) : Prop :=
  ∀ a, x = .ok a → P a

theorem Gives.ok (holds : P a) : Gives (.ok a : Except ε α) P := by
  rintro _ ⟨⟩
  exact holds

theorem Gives.error : Gives (.error e) P := by
  rintro _ ⟨⟩

theorem Gives.bind {f : α → Except ε β} (first : Gives x P) (then_ : ∀ a, P a → Gives (f a) R) :
    Gives (x >>= f) R := by
  intro b answer
  obtain ⟨a, before, after⟩ := bind_eq_ok.mp answer
  exact then_ a (first a before) b after

/-- What is answered depends on what comes last, whatever comes before. -/
theorem Gives.after {f : α → Except ε β} (last : ∀ a, Gives (f a) R) : Gives (x >>= f) R :=
  Gives.bind (P := fun _ => True) (fun _ _ => trivial) fun a _ => last a

/-- What is answered at all has nothing in its way. -/
theorem Gives.unless {p : Prop} [Decidable p] {f : Unit → Except ε β} (rest : Gives (f ()) R) :
    Gives (if p then throw e >>= f else f ()) R := by
  split
  · exact .error
  · exact rest

theorem Gives.ite {p : Prop} [Decidable p] {y : Except ε α} (yes : Gives x P) (no : Gives y P) :
    Gives (if p then x else y) P := by
  split
  · exact yes
  · exact no

theorem Gives.map {f : α → β} (answers : Gives x fun a => R (f a)) : Gives (x.map f) R := by
  cases x with
  | error e => exact .error
  | ok a => exact .ok (answers a rfl)

/-! ### What answers and refusals are like -/

variable {Q : ε → Prop}

/-- Whatever is answered has the property `P`, and whatever stands in the way the property
`Q`. -/
inductive Yields {ε α : Type} : Except ε α → (α → Prop) → (ε → Prop) → Prop where
  | ok {a : α} {P : α → Prop} {Q : ε → Prop} (holds : P a) : Yields (.ok a) P Q
  | error {e : ε} {P : α → Prop} {Q : ε → Prop} (holds : Q e) : Yields (.error e) P Q

theorem Yields.gives (yields : Yields x P Q) : Gives x P := by
  rintro a rfl
  cases yields with
  | ok holds => exact holds

/-- Of what stands in the way nothing need be known. -/
theorem Gives.yields (gives : Gives x P) : Yields x P fun _ => True := by
  cases x with
  | error => exact .error trivial
  | ok a => exact .ok (gives a rfl)

theorem Yields.mono {P' : α → Prop} (yields : Yields x P Q) (more : ∀ a, P a → P' a) :
    Yields x P' Q := by
  cases yields with
  | ok holds => exact .ok (more _ holds)
  | error holds => exact .error holds

theorem Yields.bind {f : α → Except ε β} (first : Yields x P Q)
    (then_ : ∀ a, P a → Yields (f a) R Q) : Yields (x >>= f) R Q := by
  cases first with
  | ok holds => exact then_ _ holds
  | error holds => exact .error holds

/-- Where nothing else stands in the way, what comes last is what counts. -/
theorem Yields.after {f : α → Except ε β} (first : Yields x P Q) (last : ∀ a, Yields (f a) R Q) :
    Yields (x >>= f) R Q :=
  first.bind fun a _ => last a

theorem Yields.unless {p : Prop} [Decidable p] {f : Unit → Except ε β} (blocked : p → Q e)
    (rest : ¬ p → Yields (f ()) R Q) : Yields (if p then throw e >>= f else f ()) R Q := by
  split
  case isTrue holds => exact .error (blocked holds)
  case isFalse fails => exact rest fails

theorem Yields.ite {p : Prop} [Decidable p] {y : Except ε α} (yes : p → Yields x P Q)
    (no : ¬ p → Yields y P Q) : Yields (if p then x else y) P Q := by
  split
  case isTrue holds => exact yes holds
  case isFalse fails => exact no fails

theorem Yields.map {f : α → β} (yields : Yields x (fun a => R (f a)) Q) : Yields (x.map f) R Q := by
  cases yields with
  | ok holds => exact .ok holds
  | error holds => exact .error holds

/-- A loop keeps what each of its turns keeps. -/
theorem Yields.foldlM {ι : Type} {f : α → ι → Except ε α} {l : List ι}
    (turn : ∀ i ∈ l, ∀ a, P a → Yields (f a i) P Q) (start : P a) :
    Yields (l.foldlM f a) P Q := by
  induction l generalizing a with
  | nil => exact .ok start
  | cons i rest ih =>
    refine .bind (turn i (List.mem_cons_self ..) a start) fun a' kept => ?_
    exact ih (fun j listed => turn j (List.mem_cons_of_mem i listed)) kept

theorem Yields.mapM {ι : Type} {f : ι → Except ε α} {l : List ι} (each : ∀ i, Yields (f i) P Q) :
    Yields (l.mapM f) (fun answers => ∀ a ∈ answers, P a) Q := by
  induction l with
  | nil => exact .ok (List.forall_mem_nil P)
  | cons i rest ih =>
    rw [List.mapM_cons]
    exact .bind (each i) fun a holds => .bind ih fun answers hold =>
      .ok (List.forall_mem_cons.mpr ⟨holds, hold⟩)

theorem Gives.foldlM {ι : Type} {f : α → ι → Except ε α} {l : List ι}
    (turn : ∀ i a, P a → Gives (f a i) P) (start : P a) : Gives (l.foldlM f a) P :=
  (Yields.foldlM (fun i _ a kept => (turn i a kept).yields) start).gives

theorem Gives.mapM {ι : Type} {f : ι → Except ε α} {l : List ι} (each : ∀ i, Gives (f i) P) :
    Gives (l.mapM f) fun answers => ∀ a ∈ answers, P a :=
  (Yields.mapM fun i => (each i).yields).gives

end Edifice.Check
