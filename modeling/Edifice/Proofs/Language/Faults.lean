import Edifice.Language.Interpreter
import Edifice.Proofs.Builder.Referents

/-!
Faults of the source and faults of the reader.

A diagnostic that says that something the reader itself refers to is not there would be a
fault of the reader and not of the source (`Diagnostic.IsInternal`).  The codes tell most of
the two apart; among the diagnostics about views the wording does.  Reading the tokens of a
statement finds faults of the source only (`Fair`).
-/

namespace Edifice

open Check

/-! ### Internal errors -/

/-- The diagnostic reports a fault of the reader: under the code `E900`, or as a view that
is not there. -/
def Diagnostic.IsInternal (d : Diagnostic) : Prop :=
  d.code = some .inconsistency ∨ d.kind = some .internalConsistency ∨
    d.code = some .invalidView ∧ ∃ key, d.message = (ModelError.unknownView key).message

/-- The diagnostic reports a fault of the source. -/
def Diagnostic.Ordinary (d : Diagnostic) : Prop :=
  ¬ d.IsInternal

/-- The codes that no internal error has. -/
def Code.isOrdinary : Code → Bool
  | .inconsistency | .invalidView => false
  | _ => true

namespace Diagnostic.Ordinary

variable {d : Diagnostic}

theorem of_code (ordinary : d.code.any Code.isOrdinary = true) : d.Ordinary := by
  obtain ⟨c, code, plain⟩ := (Option.any_eq_true _ _).mp ordinary
  rintro (internal | kind | ⟨invalid, -⟩)
  · obtain rfl := Option.some.inj (code.symm.trans internal)
    cases plain
  · rw [Diagnostic.kind, code] at kind
    cases c <;> cases kind
    cases plain
  · obtain rfl := Option.some.inj (code.symm.trans invalid)
    cases plain

/-- Where a diagnostic was raised does not matter. -/
theorem withLine (ordinary : d.Ordinary) (line : SourceLine) : (d.withLine line).Ordinary :=
  ordinary

/-- Nor does it matter how severe it is. -/
theorem asError (ordinary : d.Ordinary) : d.asError.Ordinary :=
  ordinary

end Diagnostic.Ordinary

/-! ### Refusals -/

theorem head_append {s t : String} {c : Char} (first : s.toList.head? = some c) :
    (s ++ t).toList.head? = some c := by
  rw [String.toList_append, List.head?_append, first]
  rfl

/-- The wording about a view that is not there begins as no other one about a view does. -/
theorem ModelError.message_ne_unknownView {e : ModelError} (invalid : e.code = .invalidView)
    (found : e.isDangling = false) (key : String) :
    e.message ≠ (ModelError.unknownView key).message := by
  intro same
  have first : (ModelError.unknownView key).message.toList.head? = some 'n' :=
    head_append (head_append rfl)
  have differs : ∀ c : Char, c ≠ 'n' → e.message.toList.head? ≠ some c := by
    intro c other head
    rw [same, first] at head
    exact other (Option.some.inj head).symm
  cases e with
  | unknownView => cases found
  | missingEnvironment => exact differs 'a' (by decide) rfl
  | missingViewScope | duplicateViewKey =>
    exact differs 'a' (by decide) (head_append (head_append rfl))
  | invalidViewKey => exact differs 'v' (by decide) (head_append (head_append rfl))
  | unsupportedViewOperation =>
    exact differs '\x60' (by decide) (head_append (head_append (head_append (head_append rfl))))
  | invalidViewScope =>
    exact differs 'a' (by decide) (head_append (head_append (head_append (head_append
      (head_append (head_append rfl))))))
  | _ => cases invalid

/-- A refusal of the model is a fault of the source, unless something is missing. -/
theorem ModelError.ordinary {e : ModelError} (found : e.isDangling = false) (span : Span) :
    (e.diagnostic span).Ordinary := by
  rintro (internal | kind | ⟨invalid, key, message⟩)
  · have code : e.code = .inconsistency := Option.some.inj internal
    cases e <;> cases code <;> cases found
  · have kind : e.code.kind = .internalConsistency := Option.some.inj kind
    cases e <;> cases kind <;> cases found
  · exact e.message_ne_unknownView (Option.some.inj invalid) found key message

theorem RegistryError.ordinary (e : RegistryError) (span : Span) :
    (e.diagnostic span).Ordinary := by
  cases e <;> exact .of_code rfl

/-! ### Reading tokens -/

/-- What stands in the way, if anything, is a fault of the source. -/
abbrev Check.Fair {α : Type} (x : Except Diagnostic α) : Prop :=
  Yields x (fun _ => True) Diagnostic.Ordinary

/-- A reading whose answer is put in another form. -/
theorem Check.Fair.then_pure {α β : Type} {x : Except Diagnostic α} {f : α → β} (fair : Fair x) :
    Fair (x >>= fun a => pure (f a)) :=
  .after fair fun _ => .ok trivial

namespace Language

open Diagnostic.Ordinary (of_code)

theorem fair_checkTokens (ts : Tokens) (needed last : Nat) (grammar : String) :
    Fair (checkTokens ts needed last grammar) := by
  refine .ite (fun _ => .error (of_code rfl)) fun _ => ?_
  exact .ite (fun _ => .error (of_code rfl)) fun _ => .ok trivial

theorem fair_requireBlock (st : Statement) (grammar : String) :
    Fair (requireBlock st grammar) :=
  .ite (fun _ => .ok trivial) fun _ => .error (of_code rfl)

theorem fair_checkBare (st : Statement) : Fair (checkBare st) :=
  .after (fair_checkTokens _ _ _ _) fun _ => fair_requireBlock _ _

theorem fair_readWord {α : Type} (ts : Tokens) (i : Nat) (parse : String → Except String α) :
    Fair (readWord ts i parse) := by
  unfold readWord
  split
  · exact .ok trivial
  · exact .error (of_code rfl)

theorem fair_readBool (ts : Tokens) (i : Nat) : Fair (readBool ts i) := by
  unfold readBool
  dsimp only
  split
  · exact .ok trivial
  · exact .ok trivial
  · exact .error (of_code rfl)

theorem fair_readNumber (ts : Tokens) (i limit : Nat) (what : String) :
    Fair (readNumber ts i limit what) := by
  unfold readNumber
  dsimp only
  split
  · exact .ok trivial
  · exact .error (of_code rfl)

theorem fair_readSize (ts : Tokens) (i : Nat) : Fair (readSize ts i) :=
  fair_readNumber ts i _ _

theorem fair_readPercentage (ts : Tokens) (i : Nat) : Fair (readPercentage ts i) :=
  .after (fair_readNumber ts i _ _) fun _ => .unless (fun _ => of_code rfl) fun _ => .ok trivial

/-- Settings of an element style are refused with faults of the source only. -/
theorem fair_readElementSetting (colors : ColorReader) (ts : Tokens) :
    Fair (readElementSetting colors ts) := by
  unfold readElementSetting
  split
  case h_2 | h_15 => exact .ok trivial
  case h_1 | h_5 | h_6 | h_7 | h_8 | h_11 => exact .then_pure (fair_readWord ts 1 _)
  case h_3 | h_4 | h_9 | h_10 => exact .then_pure (fair_readSize ts 1)
  case h_12 => exact .then_pure (fair_readPercentage ts 1)
  case h_13 | h_14 => exact .then_pure (fair_readBool ts 1)

theorem fair_readRelationshipSetting (colors : ColorReader) (ts : Tokens) :
    Fair (readRelationshipSetting colors ts) := by
  unfold readRelationshipSetting
  split
  case h_2 | h_3 | h_4 | h_6 => exact .then_pure (fair_readWord ts 1 _)
  case h_5 => exact .then_pure (fair_readBool ts 1)
  case h_1 | h_7 | h_8 => exact .then_pure (fair_readSize ts 1)
  case h_9 | h_10 => exact .then_pure (fair_readPercentage ts 1)
  case h_11 => exact .ok trivial

theorem fair_readSeparation (ts : Tokens) (i : Nat) : Fair (readSeparation ts i) :=
  .ite (fun _ => fair_readNumber ts i _ _) fun _ => .ok trivial

theorem fair_readAutoLayout (ts : Tokens) : Fair (readAutoLayout ts) := by
  have direction : Fair (readDirection ts 1) :=
    .ite (fun _ => fair_readWord ts 1 _) fun _ => .ok trivial
  exact .after direction fun _ => .after (fair_readSeparation ts 2) fun _ =>
    Fair.then_pure (fair_readSeparation ts 3)

theorem fair_readScope (ts : Tokens) (i : Nat) : Fair (readScope ts i) :=
  .ite (fun _ => .ok trivial) fun _ => .map (fair_readWord ts i _)

theorem fair_readTags (t : Token) (value : String) : Fair (readTags t value) := by
  unfold readTags
  split
  · exact .error (of_code rfl)
  · exact .ok trivial

/-! ### Warnings -/

/-- Every advice is about the source, in whichever block the line stands. -/
theorem ordinary_of_advice {block : Option Block} {ts : Tokens} :
    ∀ d ∈ advice block ts, d.Ordinary := by
  have setting : ∀ settings style, ∀ d ∈ settingAdvice settings style ts, d.Ordinary := by
    intro settings style d member
    unfold settingAdvice at member
    dsimp only at member
    split at member
    · obtain rfl := List.mem_singleton.mp member
      exact of_code rfl
    · cases member
  unfold advice
  split
  · split
    · exact List.forall_mem_singleton.mpr (of_code rfl)
    · exact List.forall_mem_nil _
  · exact setting _ _
  · exact setting _ _
  · exact List.forall_mem_nil _

theorem ordinary_of_constantAdvice {constants : Dictionary String} {ts : Tokens} :
    ∀ d ∈ constantAdvice constants ts, d.Ordinary := by
  intro d member
  obtain ⟨_, -, rfl⟩ := List.mem_map.mp member
  exact of_code rfl

end Language

end Edifice
