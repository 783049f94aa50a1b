import Edifice.Language.Interpreter
import Edifice.Proofs.Source.Boundaries

/-!
Where labels are put.

Whatever a line says and wherever it is read, a diagnostic about it labels ranges that are
made of the ranges of its tokens: a label starts and stops where a token does, or at the very
start of the source where there is no token to point at (`Tokens.Bounded`, `Marking`).  There
is one lemma for each form of statement.  None of them looks into the session: what is
refused there is reported on a range that the statement hands over.
-/

namespace Edifice

open Check

/-! ### Diagnostics without a line -/

/-- Whether a line can be refused under the code: that a block is never closed shows only at the
end. -/
def Code.isOfLine (c : Code) : Bool :=
  c != .unclosedBlock

/-- The labels of the diagnostic start and stop in the set, no line has been attached, and the
code is one for lines. -/
structure Diagnostic.Marks (S : Nat → Prop) (d : Diagnostic) : Prop where
  line : d.line = none
  labels : ∀ label ∈ d.labels, label.span.Ends S
  code : d.code.any Code.isOfLine = true

namespace Diagnostic.Marks

variable {S : Nat → Prop} {d : Diagnostic} {span : Span}

theorem error {code : Code} {message label : String} (ends : span.Ends S)
    (ofLine : code.isOfLine = true) :
    (Diagnostic.error code message span label).Marks S :=
  ⟨rfl, List.forall_mem_singleton.mpr ends, ofLine⟩

theorem warning {code : Code} {message label : String} (ends : span.Ends S)
    (ofLine : code.isOfLine = true) :
    (Diagnostic.warning code message span label).Marks S :=
  ⟨rfl, List.forall_mem_singleton.mpr ends, ofLine⟩

theorem withHelp (marks : d.Marks S) (help : String) : (d.withHelp help).Marks S :=
  ⟨marks.line, marks.labels, marks.code⟩

end Diagnostic.Marks

/-- What stands in the way, if anything, is marked in the set. -/
abbrev Check.Marking (S : Nat → Prop) {α : Type} (x : Except Diagnostic α) : Prop :=
  Yields x (fun _ => True) (Diagnostic.Marks S)

/-- A list is read as each of its elements is. -/
theorem Check.yields_mapM {ε α ι : Type} {f : ι → Except ε α} {P : α → Prop} {Q : ε → Prop}
    {l : List ι} (each : ∀ i ∈ l, Yields (f i) P Q) :
    Yields (l.mapM f) (fun answers => ∀ a ∈ answers, P a) Q := by
  induction l with
  | nil => exact .ok (List.forall_mem_nil P)
  | cons i rest ih =>
    obtain ⟨first, later⟩ := List.forall_mem_cons.mp each
    rw [List.mapM_cons]
    exact .bind first fun a holds => .bind (ih later) fun answers hold =>
      .ok (List.forall_mem_cons.mpr ⟨holds, hold⟩)

/-- A loop is marked as its turns are. -/
theorem Check.marking_foldlM {S : Nat → Prop} {α ι : Type} {f : α → ι → Except Diagnostic α}
    {l : List ι} {a : α} (turn : ∀ i ∈ l, ∀ a, Marking S (f a i)) : Marking S (l.foldlM f a) :=
  .foldlM (fun i listed a _ => turn i listed a) trivial

/-! ### Ranges of tokens -/

section Ranges

variable {S : Nat → Prop} {ts ts' : Tokens} {t : Token}

/-- The smallest range around two starts with one of them and stops with one. -/
theorem Span.Ends.union {span span' : Span} (ends : span.Ends S) (ends' : span'.Ends S) :
    (span.union span').Ends S where
  start := by
    change S (min span.start span'.start)
    rcases Nat.le_total span.start span'.start with le | le
    · rw [Nat.min_eq_left le]
      exact ends.start
    · rw [Nat.min_eq_right le]
      exact ends'.start
  stop := by
    change S (max span.stop span'.stop)
    rcases Nat.le_total span.stop span'.stop with le | le
    · rw [Nat.max_eq_right le]
      exact ends'.stop
    · rw [Nat.max_eq_left le]
      exact ends.stop

/-- All ranges of tokens start and stop in the set, which has the start of the source. -/
structure Tokens.Bounded (S : Nat → Prop) (ts : Tokens) : Prop where
  zero : S 0
  tokens : ∀ t ∈ ts, t.span.Ends S

namespace Tokens.Bounded

theorem of_subset (bounded : ts.Bounded S) (part : ts' ⊆ ts) : Tokens.Bounded S ts' :=
  ⟨bounded.zero, fun t mem => bounded.tokens t (part mem)⟩

theorem drop (bounded : ts.Bounded S) (n : Nat) : Tokens.Bounded S (ts.drop n) :=
  bounded.of_subset (List.drop_subset n ts)

theorem getElem? (bounded : ts.Bounded S) {i : Nat} (own : ts[i]? = some t) : t.span.Ends S :=
  bounded.tokens t (List.mem_of_getElem? own)

theorem stop (bounded : ts.Bounded S) : S ts.stop := by
  unfold Tokens.stop
  cases last : ts.getLast? with
  | none => exact bounded.zero
  | some t => exact (bounded.tokens t (List.mem_of_getLast? last)).stop

theorem span (bounded : ts.Bounded S) (i : Nat) : (ts.span i).Ends S := by
  unfold Tokens.span
  split
  case h_1 own => exact bounded.getElem? own
  case h_2 => exact ⟨bounded.stop, bounded.stop⟩

theorem spanFrom (bounded : ts.Bounded S) (i : Nat) : (ts.spanFrom i).Ends S := by
  unfold Tokens.spanFrom
  split
  case h_1 last => exact (bounded.span i).union (bounded.tokens _ (List.mem_of_getLast? last))
  case h_2 => exact bounded.span i

end Tokens.Bounded

end Ranges

namespace Language

variable {S : Nat → Prop} {s : Session} {ts : Tokens} {t : Token} {st : Statement} {span : Span}
  {colors : ColorReader}

theorem bounded_substituteTokens (constants : Dictionary String) (bounded : ts.Bounded S) :
    (substituteTokens constants ts).Bounded S :=
  ⟨bounded.zero, List.forall_mem_map.mpr bounded.tokens⟩

theorem bounded_ofTokens (bounded : ts.Bounded S) : (Statement.ofTokens ts).tokens.Bounded S := by
  unfold Statement.ofTokens
  split
  · exact bounded.of_subset (List.dropLast_subset ts)
  · exact bounded

/-! ### Reading tokens -/

theorem marks_missingTokens (bounded : ts.Bounded S) (grammar : String) :
    (missingTokens ts grammar).Marks S :=
  .error (bounded.span _) rfl

theorem marks_tooManyTokens (bounded : ts.Bounded S) (last : Nat) (grammar : String) :
    (tooManyTokens ts last grammar).Marks S :=
  .error (bounded.spanFrom _) rfl

theorem marks_invalidValue (bounded : ts.Bounded S) (i : Nat) (message : String) :
    (invalidValue ts i message).Marks S :=
  .error (bounded.span i) rfl

theorem marks_unexpectedStatement (bounded : st.tokens.Bounded S) (block : Option Block) :
    (unexpectedStatement st block).Marks S :=
  .error (bounded.span 0) rfl

theorem marking_checkTokens (bounded : ts.Bounded S) (needed last : Nat) (grammar : String) :
    Marking S (checkTokens ts needed last grammar) := by
  refine .ite (fun _ => .error (marks_tooManyTokens bounded _ _)) fun _ => ?_
  exact .ite (fun _ => .error (marks_missingTokens bounded _)) fun _ => .ok trivial

theorem marking_requireBlock (bounded : st.tokens.Bounded S) (grammar : String) :
    Marking S (requireBlock st grammar) :=
  .ite (fun _ => .ok trivial) fun _ => .error (.error (bounded.span _) rfl)

theorem marking_checkBare (bounded : st.tokens.Bounded S) : Marking S (checkBare st) :=
  .after (marking_checkTokens bounded _ _ _) fun _ => marking_requireBlock bounded _

theorem marking_readWord {α : Type} (bounded : ts.Bounded S) (i : Nat)
    (parse : String → Except String α) : Marking S (readWord ts i parse) := by
  unfold readWord
  split
  · exact .ok trivial
  · exact .error (marks_invalidValue bounded _ _)

theorem marking_readBool (bounded : ts.Bounded S) (i : Nat) : Marking S (readBool ts i) := by
  unfold readBool
  dsimp only
  split
  · exact .ok trivial
  · exact .ok trivial
  · exact .error (marks_invalidValue bounded _ _)

theorem marking_readNumber (bounded : ts.Bounded S) (i limit : Nat) (what : String) :
    Marking S (readNumber ts i limit what) := by
  unfold readNumber
  dsimp only
  split
  · exact .ok trivial
  · exact .error (marks_invalidValue bounded _ _)

theorem marking_readPercentage (bounded : ts.Bounded S) (i : Nat) :
    Marking S (readPercentage ts i) :=
  .after (marking_readNumber bounded i _ _) fun _ =>
    .unless (fun _ => marks_invalidValue bounded _ _) fun _ => .ok trivial

/-! ### Changing the workspace -/

theorem marks_modelError (ends : span.Ends S) (e : ModelError) : (e.diagnostic span).Marks S :=
  .error ends (by cases e <;> rfl)

theorem marks_registryError (ends : span.Ends S) (e : RegistryError) :
    (e.diagnostic span).Marks S :=
  .error ends (by cases e <;> rfl)

theorem marking_buildWith {α : Type} (ends : span.Ends S) (c : Change Builder α) :
    Marking S (s.buildWith span c) := by
  unfold Session.buildWith
  split
  · exact .ok trivial
  · exact .error (marks_modelError ends _)

theorem marking_build (ends : span.Ends S) (c : Change Builder Unit) :
    Marking S (s.build span c) :=
  .map (marking_buildWith ends c)

theorem marking_element (ends : span.Ends S) (id : ElementId) : Marking S (s.element id span) := by
  unfold Session.element
  split
  · exact .ok trivial
  · exact .error (marks_modelError ends _)

/-- Where a closing brace is refused, the labels are those of the line and of the block. -/
theorem marking_closeBlock (bounded : ts.Bounded S) : Marking S (s.closeBlock ts) := by
  unfold Session.closeBlock
  split
  · exact .error (.error (bounded.span 0) rfl)
  case h_2 frame frames _ =>
    dsimp only
    split
    · exact .ok trivial
    case h_2 key _ =>
      have ended := marking_buildWith (s := { s with frames }) (bounded.span 0)
        (Builder.endParallel key)
      split
      · exact .ok trivial
      · exact .error (.error (bounded.span 0) rfl)
      case h_3 refused =>
        rw [refused] at ended
        cases ended with
        | error marks => exact .error marks
    · exact .ok trivial

/-! ### Identifiers -/

theorem marking_resolveElement (ends : t.span.Ends S) (role : String) :
    Marking S (s.resolveElement t role) := by
  unfold Session.resolveElement
  split
  · exact .ok trivial
  · exact .error (.error ends rfl)
  · exact .error (.error ends rfl)

theorem marking_resolveRelationship (ends : t.span.Ends S) :
    Marking S (s.resolveRelationship t) := by
  unfold Session.resolveRelationship
  split
  · exact .ok trivial
  · exact .error (.error ends rfl)
  · exact .error (.error ends rfl)

theorem marking_register (ends : t.span.Ends S) (binding : Binding) (scope : Scope) :
    Marking S (s.register t binding scope) := by
  refine .ite (fun _ => .error (marks_registryError ends _)) fun _ => ?_
  split
  · exact .ok trivial
  · exact .error (marks_registryError ends _)

theorem marking_bindElement {identifier : Option Token}
    (chosen : ∀ t ∈ identifier, t.span.Ends S) (id : ElementId) :
    Marking S (s.bindElement identifier id) := by
  cases identifier with
  | none => exact .ok trivial
  | some t => exact marking_register (chosen t rfl) _ _

theorem marking_bindRelationship {identifier : Option Token}
    (chosen : ∀ t ∈ identifier, t.span.Ends S) (id : RelationshipId) :
    Marking S (s.bindRelationship identifier id) := by
  cases identifier with
  | none => exact .ok trivial
  | some t => exact marking_register (chosen t rfl) _ _

/-! ### Items -/

theorem marking_executeItem (bounded : st.tokens.Bounded S) (ref : ItemRef) :
    Marking S (executeItem s ref st) := by
  unfold executeItem
  split
  · refine .unless (fun _ => marks_missingTokens bounded _) fun _ => ?_
    refine .after (marking_foldlM fun t listed _ => ?_) fun _ => .ok trivial
    exact marking_build ((bounded.drop 1).tokens t listed) _
  · exact .after (marking_checkTokens bounded _ _ _) fun _ =>
      .after (marking_build (bounded.spanFrom 0) _) fun _ => .ok trivial
  · exact .after (marking_checkBare bounded) fun _ => .ok trivial
  · exact .after (marking_checkBare bounded) fun _ => .ok trivial
  · exact .error (marks_unexpectedStatement bounded _)

theorem marking_executeProperty (bounded : st.tokens.Bounded S) (target : PropertyTarget) :
    Marking S (executeProperty s target st) :=
  .after (marking_checkTokens bounded _ _ _) fun _ =>
    .after (marking_build (bounded.spanFrom 0) _) fun _ => .ok trivial

theorem marking_executePerspective (bounded : st.tokens.Bounded S) (ref : ItemRef) :
    Marking S (executePerspective s ref st) :=
  .after (marking_checkTokens bounded _ _ _) fun _ =>
    .after (marking_build (bounded.spanFrom 0) _) fun _ => .ok trivial

/-! ### Relationships -/

/-- The tokens from the destination on are tokens of the statement. -/
theorem bounded_resolveSource (bounded : ts.Bounded S) :
    Yields (resolveSource s ts) (fun answer => answer.2.Bounded S) (Diagnostic.Marks S) := by
  unfold resolveSource
  refine .ite (fun _ => .after (marking_checkTokens bounded _ _ _) fun _ => ?_)
    fun _ => .after (marking_checkTokens bounded _ _ _) fun _ => ?_
  · split
    · exact .ok (bounded.drop 1)
    · exact .error (.withHelp (.error (bounded.span 0) rfl) _)
  · split
    · exact .error (marks_missingTokens bounded _)
    · exact .after (marking_resolveElement (bounded.tokens _ List.mem_cons_self) _) fun _ =>
        .ok (bounded.drop 2)

theorem marking_tagRelationship (id : RelationshipId) {tags : Option Token}
    (given : ∀ t ∈ tags, t.span.Ends S) : Marking S (s.tagRelationship id tags) := by
  cases tags with
  | none => exact .ok trivial
  | some t => exact .ite (fun _ => .ok trivial) fun _ => marking_build (given t rfl) _

theorem marking_executeRelationship (bounded : st.tokens.Bounded S) {identifier : Option Token}
    (chosen : ∀ t ∈ identifier, t.span.Ends S) :
    Marking S (executeRelationship s identifier st) := by
  refine .bind (bounded_resolveSource bounded) fun answer later => ?_
  obtain ⟨source, rest⟩ := answer
  cases rest with
  | nil => exact .error (marks_missingTokens bounded _)
  | cons t rest =>
    refine .after (marking_resolveElement (later.tokens t List.mem_cons_self) _) fun _ => ?_
    refine .after (marking_buildWith (bounded.spanFrom 0) _) fun added => ?_
    refine .after (marking_tagRelationship _ fun t own => later.getElem? own) fun _ => ?_
    exact .after (marking_bindRelationship chosen _) fun _ => .ok trivial

/-! ### Elements -/

theorem marking_setInstances (id : ElementId) (ends : t.span.Ends S) :
    Marking S (s.setInstances id t) :=
  .ite (fun _ => marking_build ends _) fun _ => .error (.error ends rfl)

theorem marking_describe (id : ElementId) (detail : Detail × Token)
    (ends : detail.2.span.Ends S) : Marking S (s.describe id detail) := by
  refine .ite (fun _ => .ok trivial) fun _ => ?_
  split
  · exact .ok trivial
  · exact marking_build ends _
  · exact marking_build ends _
  · exact marking_build ends _
  · exact marking_setInstances id ends

theorem marking_resolveDeployable (bounded : ts.Bounded S) (kind : ElementKind) :
    Marking S (resolveDeployable s kind ts) := by
  unfold resolveDeployable
  split
  · exact .error (marks_missingTokens bounded _)
  case h_2 t own =>
    have ends := bounded.getElem? own
    refine .after (marking_resolveElement ends _) fun id => ?_
    refine .after (marking_element ends id) fun e => ?_
    exact .ite (fun _ => .ok trivial) fun _ => .error (.error ends rfl)

theorem marking_declare (bounded : ts.Bounded S) (kind : ElementKind) (block : Block) :
    Marking S (declare s kind block ts) := by
  have add : ∀ c, Marking S (s.buildWith (ts.span 1) c) := fun c =>
    marking_buildWith (α := ElementId) (bounded.span 1) c
  unfold declare
  split
  case h_14 | h_15 => exact .after (marking_resolveDeployable bounded _) fun _ => add _
  case h_16 => exact .error (.error (bounded.span 0) rfl)
  all_goals exact add _

theorem marking_executeElement (bounded : st.tokens.Bounded S) (kind : ElementKind)
    {identifier : Option Token} (chosen : ∀ t ∈ identifier, t.span.Ends S) (block : Block) :
    Marking S (executeElement s kind identifier st block) := by
  refine .after (marking_checkTokens bounded _ _ _) fun _ => ?_
  refine .after (marking_declare bounded kind block) fun declared => ?_
  refine .after (marking_foldlM fun detail listed s => ?_) fun _ => ?_
  · have given : detail.2 ∈ st.tokens.drop 2 := (List.of_mem_zip listed).2
    exact marking_describe declared.1 detail ((bounded.drop 2).tokens _ given)
  · exact .after (marking_bindElement chosen _) fun _ => .ok trivial

theorem marking_executeGroup (bounded : st.tokens.Bounded S) (block : Block) :
    Marking S (executeGroup s st block) := by
  refine .after (marking_checkTokens bounded _ _ _) fun _ =>
    .after (marking_requireBlock bounded _) fun _ => ?_
  split
  · exact .ok trivial
  · refine .after (marking_element (bounded.span 0) _) fun e => ?_
    exact .ite (fun _ => .ok trivial) fun _ => .error (.error (bounded.span 0) rfl)
  · split
    · exact .ok trivial
    · exact .error (.withHelp (.error (bounded.span 0) rfl) _)
  · exact .error (marks_unexpectedStatement bounded _)

theorem marking_nameEnvironment {identifier : Option Token}
    (chosen : ∀ t ∈ identifier, t.span.Ends S) (name : String) :
    Marking S (s.nameEnvironment identifier name) := by
  cases identifier with
  | none => exact .ok trivial
  | some t =>
    refine .ite (fun _ => .error (.error (chosen t rfl) rfl)) fun _ => ?_
    exact .ite (fun _ => .error (.error (chosen t rfl) rfl)) fun _ => .ok trivial

theorem marking_executeEnvironment (bounded : st.tokens.Bounded S) {identifier : Option Token}
    (chosen : ∀ t ∈ identifier, t.span.Ends S) (block : Block) :
    Marking S (executeEnvironment s identifier st block) := by
  unfold executeEnvironment
  refine .unless (fun _ => marks_unexpectedStatement bounded _) fun _ => ?_
  refine .after (marking_checkTokens bounded _ _ _) fun _ =>
    .after (marking_requireBlock bounded _) fun _ => ?_
  refine .unless (fun _ => marks_invalidValue bounded _ _) fun _ => ?_
  exact .after (marking_nameEnvironment chosen _) fun _ => .ok trivial

theorem marking_executeElementBody (bounded : st.tokens.Bounded S) (id : ElementId)
    (block : Block) : Marking S (executeElementBody s id st block) := by
  have change : ∀ c, Marking S (do (← s.build st.span c).done) := fun c =>
    .after (marking_build (bounded.spanFrom 0) c) fun _ => .ok trivial
  unfold executeElementBody
  split
  · exact .after (marking_checkTokens bounded _ _ _) fun _ => change _
  · exact .after (marking_checkTokens bounded _ _ _) fun _ => change _
  · refine .after (marking_checkTokens bounded _ _ _) fun _ => ?_
    split
    case h_1 t own =>
      exact .after (marking_setInstances id (bounded.getElem? own)) fun _ => .ok trivial
    · exact .ok trivial
  · exact marking_executeItem bounded _
  · exact marking_executeItem bounded _
  · exact marking_executeItem bounded _
  · exact marking_executeItem bounded _
  · exact .error (marks_unexpectedStatement bounded _)

theorem marking_executeDeclaration (bounded : st.tokens.Bounded S) {identifier : Option Token}
    (chosen : ∀ t ∈ identifier, t.span.Ends S) (block : Block) :
    Marking S (executeDeclaration s identifier st block) := by
  unfold executeDeclaration
  refine .ite (fun _ => marking_executeRelationship bounded chosen) fun _ => ?_
  split
  · exact marking_executeElement bounded _ chosen block
  · refine .ite (fun _ => marking_executeEnvironment bounded chosen block) fun _ => ?_
    refine .ite (fun _ => .error (.error (bounded.span 0) rfl)) fun _ => ?_
    refine .ite (fun _ => marking_executeGroup bounded block) fun _ => ?_
    refine .ite (fun _ => .after (marking_checkBare bounded) fun _ => .ok trivial) fun _ => ?_
    split
    · exact marking_executeElementBody bounded _ block
    · exact .error (marks_unexpectedStatement bounded _)

theorem marking_executeModel (bounded : st.tokens.Bounded S) (block : Block) :
    Marking S (executeModel s st block) := by
  refine .ite (fun _ => .ite (fun _ => .error (marks_missingTokens bounded _)) fun _ => ?_)
    fun _ => ?_
  · exact marking_executeDeclaration (bounded.drop 2)
      (fun t own => bounded.tokens t (List.mem_of_head? own)) block
  · exact marking_executeDeclaration bounded (by rintro _ ⟨⟩) block

/-! ### Expressions -/

theorem marking_readTags (ends : t.span.Ends S) (value : String) :
    Marking S (readTags t value) := by
  unfold readTags
  split
  · exact .error (.error ends rfl)
  · exact .ok trivial

theorem marking_readReference (ends : t.span.Ends S) : Marking S (readReference s t) := by
  unfold readReference
  split
  case h_1 name coupling _ =>
    exact .map (marking_resolveElement (t := { t with text := name }) ends _)
  · split
    · exact .ok trivial
    · exact .ok trivial
    · exact .error (.error ends rfl)

theorem marking_readExpression (ends : t.span.Ends S) : Marking S (readExpression s t) := by
  refine .ite (fun _ => .ok trivial) fun _ => .ite (fun _ => .ok trivial) fun _ => ?_
  split
  · exact .map (marking_readTags ends _)
  split
  · split
    · exact .ok trivial
    · exact .error (.error ends rfl)
  split
  · exact .map (marking_readTags ends _)
  · exact .ite (fun _ => .error (.error ends rfl)) fun _ => marking_readReference ends

theorem marking_readEnd (ends : t.span.Ends S) (role : String) : Marking S (readEnd s t role) :=
  .ite (fun _ => .ok trivial) fun _ => .map (marking_resolveElement ends role)

/-- What expressions select comes with ranges of their tokens. -/
theorem ends_readExpressions (bounded : ts.Bounded S) :
    Yields (readExpressions s ts) (fun selections => ∀ x ∈ selections, x.2.Ends S)
      (Diagnostic.Marks S) := by
  have each : ∀ {ts : Tokens}, ts.Bounded S →
      Yields (ts.mapM fun t => return (← readExpression s t, t.span))
        (fun selections => ∀ x ∈ selections, x.2.Ends S) (Diagnostic.Marks S) := by
    intro ts bounded
    refine yields_mapM fun t listed => ?_
    have ends := bounded.tokens t listed
    exact .after (marking_readExpression ends) fun _ => .ok ends
  unfold readExpressions
  split
  case h_1 source mark destination =>
    obtain ⟨first, later⟩ := List.forall_mem_cons.mp bounded.tokens
    have last := later destination (List.mem_cons_of_mem _ List.mem_cons_self)
    refine .ite (fun _ => ?_) fun _ => each bounded
    refine .after (marking_readEnd first _) fun _ => .after (marking_readEnd last _) fun _ => ?_
    exact .ok (List.forall_mem_singleton.mpr (bounded.spanFrom 0))
  case h_2 => exact each bounded

/-! ### Views -/

theorem ends_viewPart? (bounded : ts.Bounded S) (kind : ViewKind) (part : ViewPart) :
    ∀ t ∈ viewPart? kind ts part, t.span.Ends S := by
  intro t own
  obtain ⟨before, after, listed, -⟩ := List.lookup_eq_some_iff.mp own
  have given : (part, t) ∈ (viewParts kind).zip (ts.drop 1) := by
    rw [listed]
    exact List.mem_append_right _ List.mem_cons_self
  exact (bounded.drop 1).tokens t (List.of_mem_zip given).2

theorem ends_filledPart? (bounded : ts.Bounded S) (kind : ViewKind) (part : ViewPart) :
    ∀ t ∈ filledPart? kind ts part, t.span.Ends S := fun t own =>
  ends_viewPart? bounded kind part t (Option.filter_eq_some_iff.mp own).1

theorem marking_readViewScope (bounded : ts.Bounded S) (kind : ViewKind) :
    Marking S (readViewScope s kind ts) := by
  unfold readViewScope
  split
  · exact .ok trivial
  case h_2 t own =>
    have ends := ends_viewPart? bounded kind .scope t own
    exact .ite (fun _ => .ok trivial) fun _ => .map (marking_resolveElement ends _)

theorem marking_readEnvironment (bounded : ts.Bounded S) (kind : ViewKind) :
    Marking S (readEnvironment s kind ts) := by
  unfold readEnvironment
  split
  · exact .ok trivial
  case h_2 t own =>
    split
    · exact .ok trivial
    · exact .error (.error (ends_viewPart? bounded kind .environment t own) rfl)

theorem marking_titleView (key : String) {title : Option Token}
    (given : ∀ t ∈ title, t.span.Ends S) : Marking S (s.titleView key title) := by
  cases title with
  | none => exact .ok trivial
  | some t => exact marking_build (given t rfl) _

theorem marking_describeView (key : String) {description : Option Token}
    (given : ∀ t ∈ description, t.span.Ends S) : Marking S (s.describeView key description) := by
  cases description with
  | none => exact .ok trivial
  | some t => exact marking_build (given t rfl) _

theorem marking_executeView (bounded : st.tokens.Bounded S) (kind : ViewKind) :
    Marking S (executeView s kind st) := by
  have filled := ends_filledPart? bounded kind
  refine .after (marking_checkTokens bounded _ _ _) fun _ =>
    .after (marking_requireBlock bounded _) fun _ => ?_
  refine .after (marking_readViewScope bounded kind) fun scope =>
    .after (marking_readEnvironment bounded kind) fun environment => ?_
  refine .after (marking_buildWith (bounded.spanFrom 0) _) fun added => ?_
  refine .after (marking_titleView _ (filled .title)) fun _ => ?_
  exact .after (marking_describeView _ (filled .description)) fun _ => .ok trivial

theorem marking_addThemes (bounded : ts.Bounded S) : Marking S (s.addThemes ts) :=
  marking_foldlM fun t listed _ => marking_build (bounded.tokens t listed) _

theorem marking_executeViews (bounded : st.tokens.Bounded S) :
    Marking S (executeViews s st) := by
  unfold executeViews
  dsimp only
  split
  · exact marking_executeView bounded _
  · split
    · exact .after (marking_checkBare bounded) fun _ => .ok trivial
    · exact .after (marking_checkTokens bounded _ _ _) fun _ =>
        .after (marking_addThemes (bounded.drop 1)) fun _ => .ok trivial
    · refine .unless (fun _ => marks_missingTokens bounded _) fun _ => ?_
      exact .after (marking_addThemes (bounded.drop 1)) fun _ => .ok trivial
    · exact .after (marking_checkBare bounded) fun _ => .ok trivial
    · exact .error (marks_unexpectedStatement bounded _)

theorem marking_readSeparation (bounded : ts.Bounded S) (i : Nat) :
    Marking S (readSeparation ts i) :=
  .ite (fun _ => marking_readNumber bounded i _ _) fun _ => .ok trivial

theorem marking_readAutoLayout (bounded : ts.Bounded S) : Marking S (readAutoLayout ts) := by
  have direction : Marking S (readDirection ts 1) :=
    .ite (fun _ => marking_readWord bounded 1 _) fun _ => .ok trivial
  refine .after direction fun _ => .after (marking_readSeparation bounded 2) fun _ => ?_
  exact .after (marking_readSeparation bounded 3) fun _ => .ok trivial

theorem marking_executeViewSetting (bounded : st.tokens.Bounded S) (key : String)
    (block : Block) : Marking S (executeViewSetting s key st block) := by
  have change : ∀ c, Marking S (do (← s.build st.span c).done) := fun c =>
    .after (marking_build (bounded.spanFrom 0) c) fun _ => .ok trivial
  unfold executeViewSetting
  split
  · exact .after (marking_checkTokens bounded _ _ _) fun _ => change _
  · exact .after (marking_checkTokens bounded _ _ _) fun _ => change _
  · exact .after (marking_checkTokens bounded _ _ _) fun _ =>
      .after (marking_readAutoLayout bounded) fun _ => change _
  · exact .after (marking_checkTokens bounded _ _ _) fun _ =>
      .after (marking_readAutoLayout bounded) fun _ => change _
  · exact .after (marking_checkBare bounded) fun _ => .ok trivial
  · exact .error (marks_unexpectedStatement bounded _)

theorem marking_includeAll (bounded : ts.Bounded S) (key : String) :
    Marking S (s.includeAll key ts) :=
  .bind (ends_readExpressions bounded) fun _ ends =>
    marking_foldlM fun x listed _ => marking_build (ends x listed) _

theorem marking_excludeAll (bounded : ts.Bounded S) (key : String) :
    Marking S (s.excludeAll key ts) :=
  .bind (ends_readExpressions bounded) fun _ ends =>
    marking_foldlM fun x listed _ => marking_build (ends x listed) _

theorem marking_executeStaticView (bounded : st.tokens.Bounded S) (key : String) :
    Marking S (executeStaticView s key st) := by
  unfold executeStaticView
  split
  · refine .unless (fun _ => marks_missingTokens bounded _) fun _ => ?_
    exact .after (marking_includeAll (bounded.drop 1) key) fun _ => .ok trivial
  · refine .unless (fun _ => marks_missingTokens bounded _) fun _ => ?_
    exact .after (marking_excludeAll (bounded.drop 1) key) fun _ => .ok trivial
  · exact marking_executeViewSetting bounded key _

/-! ### Dynamic views -/

theorem marking_executeParallel (bounded : st.tokens.Bounded S) (key : String) :
    Marking S (executeParallel s key st) :=
  .after (marking_build (bounded.spanFrom 0) _) fun _ => .ok trivial

theorem marking_readParticipant (ends : t.span.Ends S) (role : String) :
    Marking S (readParticipant s t role) := by
  refine .after (marking_resolveElement ends role) fun id => ?_
  refine .after (marking_element ends id) fun e => ?_
  refine .ite (fun _ => .ok trivial) fun _ => .ite (fun _ => .ok trivial) fun _ => ?_
  exact .error (.withHelp (.error ends rfl) _)

theorem marking_executeInteraction (bounded : ts.Bounded S) (key : String)
    (order : Option String) : Marking S (executeInteraction s key order ts) := by
  unfold executeInteraction
  refine .unless (fun _ => marks_tooManyTokens bounded _ _) fun _ => ?_
  split
  case h_1 source destination _ _ =>
    obtain ⟨first, later⟩ := List.forall_mem_cons.mp bounded.tokens
    have third := later destination (List.mem_cons_of_mem _ List.mem_cons_self)
    refine .after (marking_readParticipant first _) fun _ => ?_
    refine .after (marking_readParticipant third _) fun _ => ?_
    exact marking_build (bounded.spanFrom 0) _
  · exact .error (marks_missingTokens bounded _)

theorem marking_executeRelationshipLine (bounded : ts.Bounded S) (key : String)
    (order : Option String) : Marking S (executeRelationshipLine s key order ts) := by
  unfold executeRelationshipLine
  split
  · exact .error (marks_missingTokens bounded _)
  · refine .unless (fun _ => marks_tooManyTokens bounded _ _) fun _ => ?_
    refine .after (marking_resolveRelationship (bounded.tokens _ List.mem_cons_self)) fun _ => ?_
    exact marking_build (bounded.spanFrom 0) _

theorem bounded_splitOrder (bounded : ts.Bounded S) : (splitOrder ts).2.Bounded S := by
  unfold splitOrder
  split
  · exact bounded.drop 1
  · exact bounded

theorem marking_executeDynamicLine (bounded : st.tokens.Bounded S) (key : String) :
    Marking S (executeDynamicLine s key st) := by
  have rest := bounded_splitOrder bounded
  refine .ite (fun _ => ?_) fun _ => ?_
  · exact .after (marking_executeInteraction rest key _) fun _ => .ok trivial
  · exact .after (marking_executeRelationshipLine rest key _) fun _ => .ok trivial

theorem marking_executeDynamicView (bounded : st.tokens.Bounded S) (key : String) :
    Marking S (executeDynamicView s key st) := by
  refine .ite (fun _ => marking_executeDynamicLine bounded key) fun _ => ?_
  split
  · exact .error (.withHelp (.error (bounded.span 0) rfl) _)
  · exact .error (.withHelp (.error (bounded.span 0) rfl) _)
  case h_8 => exact marking_executeDynamicLine bounded key
  all_goals exact marking_executeViewSetting bounded key _

/-! ### Styles -/

theorem marking_executeStyles (bounded : st.tokens.Bounded S) :
    Marking S (executeStyles s st) := by
  unfold executeStyles
  split
  · exact .after (marking_checkTokens bounded _ _ _) fun _ =>
      .after (marking_requireBlock bounded _) fun _ => .ok trivial
  · exact .after (marking_checkTokens bounded _ _ _) fun _ =>
      .after (marking_requireBlock bounded _) fun _ => .ok trivial
  · exact .error (marks_unexpectedStatement bounded _)

theorem marking_readElementSetting (bounded : ts.Bounded S) :
    Marking S (readElementSetting colors ts) := by
  have word : ∀ {α : Type} (parse : String → Except String α), Marking S (readWord ts 1 parse) :=
    fun parse => marking_readWord bounded 1 parse
  have size : Marking S (readSize ts 1) := marking_readNumber bounded 1 _ _
  unfold readElementSetting
  split
  case h_2 | h_15 => exact .ok trivial
  case h_1 | h_5 | h_6 | h_7 | h_8 | h_11 => exact .after (word _) fun _ => .ok trivial
  case h_3 | h_4 | h_9 | h_10 => exact .after size fun _ => .ok trivial
  case h_12 => exact .after (marking_readPercentage bounded 1) fun _ => .ok trivial
  case h_13 | h_14 => exact .after (marking_readBool bounded 1) fun _ => .ok trivial

theorem marking_readRelationshipSetting (bounded : ts.Bounded S) :
    Marking S (readRelationshipSetting colors ts) := by
  have word : ∀ {α : Type} (parse : String → Except String α), Marking S (readWord ts 1 parse) :=
    fun parse => marking_readWord bounded 1 parse
  have size : Marking S (readSize ts 1) := marking_readNumber bounded 1 _ _
  unfold readRelationshipSetting
  split
  case h_2 | h_3 | h_4 | h_6 => exact .after (word _) fun _ => .ok trivial
  case h_5 => exact .after (marking_readBool bounded 1) fun _ => .ok trivial
  case h_1 | h_7 | h_8 => exact .after size fun _ => .ok trivial
  case h_9 | h_10 => exact .after (marking_readPercentage bounded 1) fun _ => .ok trivial
  case h_11 => exact .ok trivial

theorem marking_executeStyle {α : Type} {read : Tokens → Except Diagnostic (Option α)}
    (bounded : st.tokens.Bounded S) (reads : Marking S (read st.tokens))
    (enter : Builder → α → Builder) (properties : PropertyTarget) :
    Marking S (executeStyle read enter properties s st) := by
  refine .ite (fun _ => .after (marking_checkBare bounded) fun _ => .ok trivial) fun _ => ?_
  refine .after (marking_checkTokens bounded _ _ _) fun _ => .after reads fun setting => ?_
  cases setting with
  | none => exact .ok trivial
  | some setting => exact .ok trivial

/-! ### Workspaces -/

theorem marking_executeRoot (bounded : st.tokens.Bounded S) : Marking S (executeRoot s st) := by
  unfold executeRoot
  refine .unless (fun _ => marks_unexpectedStatement bounded _) fun _ => ?_
  refine .unless (fun _ => .error (bounded.spanFrom 1) rfl) fun _ => ?_
  exact .after (marking_checkTokens bounded _ _ _) fun _ =>
    .after (marking_requireBlock bounded _) fun _ => .ok trivial

theorem marking_executeWorkspace (bounded : st.tokens.Bounded S) :
    Marking S (executeWorkspace s st) := by
  have second : (secondBlock st).Marks S := .error (bounded.span 0) rfl
  unfold executeWorkspace
  split
  · exact .after (marking_checkTokens bounded _ _ _) fun _ => .ok trivial
  · exact .after (marking_checkTokens bounded _ _ _) fun _ => .ok trivial
  · exact .after (marking_checkBare bounded) fun _ => .ok trivial
  · exact .after (marking_checkBare bounded) fun _ => .unless (fun _ => second) fun _ => .ok trivial
  · exact .after (marking_checkBare bounded) fun _ => .unless (fun _ => second) fun _ => .ok trivial
  · exact .after (marking_checkBare bounded) fun _ => .ok trivial
  · exact .error (marks_unexpectedStatement bounded _)

theorem marking_executeConfiguration (bounded : st.tokens.Bounded S) :
    Marking S (executeConfiguration s st) := by
  have scope : Marking S (readScope st.tokens 1) :=
    .ite (fun _ => .ok trivial) fun _ => .map (marking_readWord bounded 1 _)
  unfold executeConfiguration
  split
  · exact .after (marking_checkTokens bounded _ _ _) fun _ => .after scope fun _ => .ok trivial
  · exact .after (marking_checkTokens bounded _ _ _) fun _ =>
      .after (marking_readWord bounded 1 _) fun _ => .ok trivial
  · exact .after (marking_checkBare bounded) fun _ => .ok trivial
  · exact .error (marks_unexpectedStatement bounded _)

theorem marking_executeUser (bounded : st.tokens.Bounded S) : Marking S (executeUser s st) :=
  .after (marking_checkTokens bounded _ _ _) fun _ =>
    .after (marking_readWord bounded 1 _) fun _ => .ok trivial

/-! ### Statements -/

theorem marking_executeWords (bounded : st.tokens.Bounded S) : Marking S (executeWords colors s st) := by
  unfold executeWords
  split
  · exact marking_executeRoot bounded
  · split
    · exact marking_executeWorkspace bounded
    · exact marking_executeModel bounded _
    · exact marking_executeModel bounded _
    · exact marking_executeModel bounded _
    · exact marking_executeModel bounded _
    · exact marking_executeModel bounded _
    · exact marking_executeItem bounded _
    · exact marking_executeProperty bounded _
    · exact marking_executePerspective bounded _
    · exact marking_executeViews bounded
    · exact marking_executeStaticView bounded _
    · exact marking_executeDynamicView bounded _
    · exact marking_executeDynamicView bounded _
    · exact marking_executeStyles bounded
    · exact marking_executeStyle bounded (marking_readElementSetting bounded) _ _
    · exact marking_executeStyle bounded (marking_readRelationshipSetting bounded) _ _
    · exact marking_executeConfiguration bounded
    · exact marking_executeUser bounded

theorem marking_executeStatement (bounded : st.tokens.Bounded S) :
    Marking S (executeStatement colors s st) := by
  have brace : Marking S (executeBrace s st) := by
    unfold executeBrace
    split
    · exact marking_executeParallel bounded _
    · exact marking_executeParallel bounded _
    · exact .error ⟨rfl, List.forall_mem_nil _, rfl⟩
  exact .ite (fun _ => brace) fun _ => marking_executeWords bounded

theorem marking_runStatement (bounded : st.tokens.Bounded S) (line : Nat) :
    Marking S (runStatement colors s st line) := by
  refine .after (marking_executeStatement bounded) fun executed => ?_
  obtain ⟨block, s'⟩ := executed
  refine .ite (fun _ => ?_) fun _ => .ok trivial
  cases block with
  | none =>
    have stop := (bounded.spanFrom 0).stop
    exact .error (.error ⟨stop, stop⟩ rfl)
  | some block => exact .ok trivial

/-! ### Directives -/

variable {setting : Setting} {file : Option String}

theorem marking_requireWorkspaceOrModel (bounded : ts.Bounded S) :
    Marking S (requireWorkspaceOrModel s ts) := by
  unfold requireWorkspaceOrModel
  split
  · exact .ok trivial
  · exact .ok trivial
  · exact .error (.error (bounded.span 0) rfl)

theorem marking_executeConstant (bounded : ts.Bounded S) : Marking S (executeConstant s ts) :=
  .after (marking_checkTokens bounded _ _ _) fun _ =>
    .unless (fun _ => marks_invalidValue bounded _ _) fun _ => .ok trivial

theorem marking_executeIdentifiers (bounded : ts.Bounded S) :
    Marking S (executeIdentifiers s ts) := by
  refine .after (marking_checkTokens bounded _ _ _) fun _ =>
    .after (marking_requireWorkspaceOrModel bounded) fun _ =>
      .after (marking_readWord bounded 1 _) fun mode => ?_
  split
  · exact .ok trivial
  · exact .error (marks_invalidValue bounded _ _)

theorem marking_executeImplied (bounded : ts.Bounded S) : Marking S (executeImplied s ts) :=
  .after (marking_checkTokens bounded _ _ _) fun _ =>
    .after (marking_requireWorkspaceOrModel bounded) fun _ =>
      .after (marking_readBool bounded 1) fun _ => .ok trivial

theorem marks_refusedDirective (bounded : ts.Bounded S) (what : String) :
    (refusedDirective ts what).Marks S :=
  .error (bounded.spanFrom 0) rfl

theorem marking_resolved {α : Type} (bounded : ts.Bounded S) (answer : Except String α) :
    Marking S (resolved ts answer) := by
  unfold resolved
  split
  · exact .ok trivial
  · exact .error (.error (bounded.span 1) rfl)

theorem marking_executeDecisions (bounded : ts.Bounded S) :
    Marking S (executeDecisions setting s ts file) := by
  have scope : Marking S (decisionScope s ts) := by
    unfold decisionScope
    split
    · exact .ok trivial
    · exact .ok trivial
    · exact .error (.error (bounded.span 0) rfl)
  have record : ∀ d, Marking S (readRecord ts d) := by
    intro d
    unfold readRecord
    split
    · exact .ok trivial
    · exact .error (.error (bounded.span 1) rfl)
  refine .after (marking_checkTokens bounded _ _ _) fun _ => .after scope fun element => ?_
  refine .unless (fun _ => marks_refusedDirective bounded _) fun _ => ?_
  refine .after (marking_resolved bounded _) fun documents => ?_
  exact .after (.mapM record) fun decisions => marking_build (bounded.spanFrom 0) _

/-- An include says where it names its sources. -/
theorem ends_executeInclude (bounded : ts.Bounded S) :
    Yields (executeInclude setting ts file) (fun i => i.span.Ends S) (Diagnostic.Marks S) := by
  refine .after (marking_checkTokens bounded _ _ _) fun _ => ?_
  refine .unless (fun _ => marks_refusedDirective bounded _) fun _ => ?_
  exact .after (marking_resolved bounded _) fun sources => .ok (bounded.span 1)

/-- A directive marks its own tokens, also in what it asks to include. -/
theorem ends_executeDirective (bounded : ts.Bounded S) :
    Yields (executeDirective setting s ts file) (fun answer => ∀ i ∈ answer.2, i.span.Ends S)
      (Diagnostic.Marks S) := by
  have alone : ∀ {x : Except Diagnostic Session}, Marking S x →
      Yields (do return (← x, (none : Option Inclusion)))
        (fun answer => ∀ i ∈ answer.2, i.span.Ends S) (Diagnostic.Marks S) := by
    intro x marking
    refine .after marking fun s' => .ok ?_
    rintro i ⟨⟩
  unfold executeDirective
  split
  · exact alone (marking_executeConstant bounded)
  · exact alone (marking_executeConstant bounded)
  · refine .bind (ends_executeInclude bounded) fun i ends => .ok ?_
    rintro _ ⟨⟩
    exact ends
  · exact alone (marking_executeDecisions bounded)
  · exact alone (marking_executeIdentifiers bounded)
  · exact alone (marking_executeImplied bounded)
  · exact .error (.withHelp (.error (bounded.span 0) rfl) _)

/-! ### Warnings -/

/-- An advice marks the tokens it is about. -/
theorem marks_of_advice (bounded : ts.Bounded S) (block : Option Block) :
    ∀ d ∈ advice block ts, d.Marks S := by
  have setting : ∀ settings style, ∀ d ∈ settingAdvice settings style ts, d.Marks S := by
    intro settings style
    unfold settingAdvice
    dsimp only
    split
    · exact List.forall_mem_singleton.mpr (.warning (bounded.span 0) rfl)
    · exact List.forall_mem_nil _
  unfold advice
  split
  · split
    · exact List.forall_mem_singleton.mpr (.withHelp (.warning (bounded.span 0) rfl) _)
    · exact List.forall_mem_nil _
  · exact setting _ _
  · exact setting _ _
  · exact List.forall_mem_nil _

theorem marks_of_constantAdvice (bounded : ts.Bounded S) (constants : Dictionary String) :
    ∀ d ∈ constantAdvice constants ts, d.Marks S := by
  intro d member
  obtain ⟨⟨name, span⟩, missing, rfl⟩ := List.mem_map.mp member
  obtain ⟨t, listed, named⟩ := List.mem_flatMap.mp missing
  obtain ⟨_, -, same⟩ := List.mem_map.mp named
  obtain ⟨-, rfl⟩ := Prod.mk.inj same
  exact .warning (bounded.tokens t listed) rfl

end Language

end Edifice
