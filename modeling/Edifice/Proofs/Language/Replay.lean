import Edifice.Proofs.Language.Courses
import Edifice.Proofs.Language.Relocation
import Edifice.Proofs.Source.Cuts

/-!
Readings at other places.

Lines with the same text are read alike wherever they stand, in sources of different names
and in sessions whose blocks were opened at other places: they leave the same session, warn
of the same and include the same sources, or the readings fail under the same code
(`matches_readLine`).  By their own recursion the reading of lines and that of a whole
source are alike as well (`matches_readLines`, `matches_readSource`).
-/

namespace Edifice

open Check

/-! ### Lexing -/

namespace Source

/-- The lexer is in the same state at another place. -/
inductive LexerState.Alike : LexerState → LexerState → Prop where
  | between (first : Bool) : Alike (.between first) (.between first)
  | bare (start start' : Nat) (text : List Char) : Alike (.bare start text) (.bare start' text)
  | quoted (quote : Char) (start start' : Nat) (text : List Char) :
    Alike (.quoted quote start text) (.quoted quote start' text)
  | escaped (quote : Char) (start start' : Nat) (text : List Char) :
    Alike (.escaped quote start text) (.escaped quote start' text)

/-- The same characters are split into the same tokens at every offset. -/
theorem matches_lex {s s' : LexerState} (alike : s.Alike s') (pos pos' : Nat) (cs : List Char) :
    Matches (lex s pos cs) (lex s' pos' cs) Tokens.Alike fun _ _ => True := by
  induction cs generalizing s s' pos pos' with
  | nil =>
    cases alike with
    | between => exact .ok .nil
    | bare => exact .ok (.cons ⟨rfl, rfl⟩ .nil)
    | quoted | escaped => exact .error trivial
  | cons c cs ih =>
    have token : ∀ {t t' : Token} (next next' : Nat), t.Alike t' →
        Matches (do return t :: (← lex (.between false) next cs))
          (do return t' :: (← lex (.between false) next' cs)) Tokens.Alike fun _ _ => True :=
      fun next next' same => .bind (ih (.between false) next next') fun _ _ rest =>
        .ok (.cons same rest)
    cases alike with
    | between first =>
      refine .ite (fun _ => ih (.between first) _ _) fun _ => ?_
      refine .ite (fun _ => .ok .nil) fun _ => ?_
      exact .ite (fun _ => ih (.quoted ..) _ _) fun _ => ih (.bare ..) _ _
    | bare => exact .ite (fun _ => token _ _ ⟨rfl, rfl⟩) fun _ => ih (.bare ..) _ _
    | quoted =>
      refine .ite (fun _ => token _ _ ⟨rfl, rfl⟩) fun _ => ?_
      refine .ite (fun _ => ?_) fun _ => ih (.quoted ..) _ _
      split
      · exact .error trivial
      · exact .ite (fun _ => ih (.escaped ..) _ _) fun _ => ih (.quoted ..) _ _
    | escaped => exact ih (.quoted ..) _ _

end Source

/-! ### Warnings and failures -/

/-- The two warn of the same. -/
structure Diagnostic.WarnsAlike (d d' : Diagnostic) : Prop where
  code : d'.code = d.code
  message : d'.message = d.message

def Failure.Alike (f f' : Failure) : Prop :=
  ∃ d d', f.diagnostics.head? = some d ∧ f'.diagnostics.head? = some d' ∧ d.Alike d'

/-- The resolver answers sources of either name the same. -/
structure Resolver.Indifferent (r : Resolver) (file file' : Option String) : Prop where
  sources : ∀ path, r.sources path file' = r.sources path file
  documents : ∀ path extension, r.documents path file' extension = r.documents path file extension

theorem Resolver.Indifferent.refl (r : Resolver) (file : Option String) :
    r.Indifferent file file :=
  ⟨fun _ => rfl, fun _ _ => rfl⟩

namespace Language

open Session

variable {ts ts' : Tokens} {l l' : Source.LogicalLine}

/-- A line is split into the same tokens, wherever it stands. -/
theorem matches_lineTokens (same : l.Alike l') :
    Matches (lineTokens l) (lineTokens l') Tokens.Alike Diagnostic.Alike := by
  have lexed := Source.matches_lex (.between true) l.offset l'.offset l.text
  have text : l'.text = l.text := same
  unfold lineTokens Source.tokenize
  rw [text]
  generalize Source.lex _ l.offset l.text = x at lexed ⊢
  generalize Source.lex _ l'.offset l.text = y at lexed ⊢
  cases lexed with
  | ok alike => exact .ok alike
  | error => exact .error ⟨rfl, rfl, rfl⟩

theorem alike_substituteTokens (constants : Dictionary String) (alike : ts.Alike ts') :
    (substituteTokens constants ts).Alike (substituteTokens constants ts') := by
  induction alike with
  | nil => exact .nil
  | cons same _ ih => exact .cons ⟨by simp [substituteToken, same.text], same.quoted⟩ ih

theorem alike_constantAdvice (constants : Dictionary String) (alike : ts.Alike ts') :
    List.Forall₂ Diagnostic.WarnsAlike (constantAdvice constants ts)
      (constantAdvice constants ts') := by
  unfold constantAdvice undefinedConstants
  rw [List.map_flatMap, List.map_flatMap]
  refine List.rel_flatMap alike fun t t' same => ?_
  rw [same.text, List.map_map, List.map_map, List.forall₂_map_left_iff, List.forall₂_map_right_iff]
  exact List.forall₂_same.mpr fun _ _ => ⟨rfl, rfl⟩

/-- The same advice is given, at the places of the tokens. -/
theorem alike_advice (block : Option Block) (alike : ts.Alike ts') :
    List.Forall₂ Diagnostic.WarnsAlike (advice block ts) (advice block ts') := by
  have setting : ∀ settings style, List.Forall₂ Diagnostic.WarnsAlike
      (settingAdvice settings style ts) (settingAdvice settings style ts') := by
    intro settings style
    unfold settingAdvice unknownSetting
    simp only [alike.length, alike.text]
    split
    · exact .cons ⟨rfl, rfl⟩ .nil
    · exact .nil
  unfold advice unknownProperty
  simp only [alike.length, alike.text]
  split
  · split
    · exact .cons ⟨rfl, rfl⟩ .nil
    · exact .nil
  · exact setting _ _
  · exact setting _ _
  · exact .nil

/-- The readings have come equally far, with the same warnings since `ws` and `ws'`. -/
structure Progress.Alike (ws ws' : List Diagnostic) (p p' : Progress) : Prop where
  session : p.session.Alike p'.session
  warnings : ∃ vs vs', p.warnings = ws ++ vs ∧ p'.warnings = ws' ++ vs' ∧
    List.Forall₂ Diagnostic.WarnsAlike vs vs'

variable {ws ws' : List Diagnostic} {p p' : Progress} {line line' : SourceLine}

theorem check_eq_ok {α : Type} {answer : Except Diagnostic α} {a : α} :
    p.check line answer = .ok a ↔ answer = .ok a := by
  cases answer <;> simp [Progress.check]

/-- A line that is read is split into tokens, and executed if it has any. -/
theorem readLine_eq_ok {setting : Setting} {file : Option String} {l : Source.LogicalLine}
    {answer : Progress × Option Inclusion} (read : readLine setting file l p = .ok answer) :
    ∃ raw, lineTokens l = .ok raw ∧
      (raw = [] ∧ answer = (p, none) ∨
        raw ≠ [] ∧ ∃ p₁ : Progress, p₁.session = p.session ∧
          readTokens setting file l (sourceLine file l)
            (substituteTokens p.session.constants raw) p₁ = .ok answer) := by
  obtain ⟨raw, lexed, read⟩ := bind_eq_ok.mp read
  rw [check_eq_ok] at lexed
  refine ⟨raw, lexed, ?_⟩
  by_cases empty : raw.isEmpty = true
  · rw [if_pos empty] at read
    exact .inl ⟨List.isEmpty_iff.mp empty, (Except.ok.inj read).symm⟩
  · rw [if_neg empty] at read
    obtain ⟨p₁, warned, read⟩ := bind_eq_ok.mp read
    have words : raw ≠ [] := fun none => empty (List.isEmpty_iff.mpr none)
    exact .inr ⟨words, p₁, session_warnAll _ _ p₁ warned, read⟩

theorem alike_failure {d d' : Diagnostic} (alike : d.Alike d') :
    (p.failure d).Alike (p'.failure d') :=
  ⟨d, d', rfl, rfl, alike⟩

/-- A check that is refused alike ends the readings alike. -/
theorem matches_check {α β : Type} {x : Except Diagnostic α} {y : Except Diagnostic β}
    {R : α → β → Prop} (both : Matches x y R Diagnostic.Alike) :
    Matches (p.check line x) (p'.check line' y) R Failure.Alike := by
  cases both with
  | ok holds => exact .ok holds
  | error alike => exact .error (alike_failure ⟨alike.code, alike.severe, alike.severe'⟩)

/-- The same warnings are added, or the first of them ends both readings. -/
theorem matches_warnAll (alike : p.Alike ws ws' p') (strict : Bool) {ds ds' : List Diagnostic}
    (same : List.Forall₂ Diagnostic.WarnsAlike ds ds') :
    Matches (p.warnAll strict line ds) (p'.warnAll strict line' ds') (Progress.Alike ws ws')
      Failure.Alike := by
  refine .foldlM same (fun d d' warns p p' alike => ?_) alike
  refine .ite (fun _ => .error (alike_failure ⟨warns.code, rfl, rfl⟩)) fun _ => .ok ?_
  obtain ⟨session, vs, vs', own, own', listed⟩ := alike
  refine ⟨session, vs ++ [d.withLine line], vs' ++ [d'.withLine line'], ?_, ?_, ?_⟩
  · rw [own, List.append_assoc]
  · rw [own', List.append_assoc]
  · exact List.rel_append listed (.cons ⟨warns.code, warns.message⟩ .nil)

/-! ### Directives -/

def Inclusion.Alike (i i' : Inclusion) : Prop :=
  i'.sources = i.sources

variable {setting : Setting} {s : Session} {frames : Frames} {file file' : Option String}

theorem same_requireWorkspaceOrModel (moved : s.frames.Alike frames) (ts ts' : Tokens) :
    Same (requireWorkspaceOrModel s ts) (requireWorkspaceOrModel (s.elsewhere frames) ts') := by
  have here : (s.elsewhere frames).frames.block? = s.frames.block? := moved.block?
  unfold requireWorkspaceOrModel
  rw [here]
  split
  · exact .ok rfl
  · exact .ok rfl
  · exact .error ⟨rfl, rfl, rfl⟩

theorem same_resolved {α : Type} (ts ts' : Tokens) (answer : Except String α) :
    Same (resolved ts answer) (resolved ts' answer) := by
  unfold resolved
  split
  · exact .ok rfl
  · exact .error ⟨rfl, rfl, rfl⟩

theorem matches_executeConstant (moved : s.frames.Alike frames) (alike : ts.Alike ts') :
    Matches (executeConstant s ts) (executeConstant (s.elsewhere frames) ts') Session.Alike
      Diagnostic.Alike := by
  unfold executeConstant
  simp only [alike.text]
  refine .after (same_checkTokens alike _ _ _ _) fun _ => ?_
  exact .unless (fun _ => ⟨rfl, rfl, rfl⟩) fun _ => .ok ⟨rfl, moved⟩

theorem matches_executeIdentifiers (moved : s.frames.Alike frames) (alike : ts.Alike ts') :
    Matches (executeIdentifiers s ts) (executeIdentifiers (s.elsewhere frames) ts') Session.Alike
      Diagnostic.Alike := by
  refine .after (same_checkTokens alike _ _ _ _) fun _ => ?_
  refine .after (same_requireWorkspaceOrModel moved ts ts') fun _ => ?_
  refine .after (same_readWord alike 1 _) fun mode => ?_
  have registry : (s.elsewhere frames).registry = s.registry := rfl
  rw [registry]
  split
  · exact .ok ⟨rfl, moved⟩
  · exact .error ⟨rfl, rfl, rfl⟩

theorem matches_executeImplied (moved : s.frames.Alike frames) (alike : ts.Alike ts') :
    Matches (executeImplied s ts) (executeImplied (s.elsewhere frames) ts') Session.Alike
      Diagnostic.Alike := by
  refine .after (same_checkTokens alike _ _ _ _) fun _ => ?_
  refine .after (same_requireWorkspaceOrModel moved ts ts') fun _ => ?_
  exact .after (same_readBool alike 1) fun enabled => .ok ⟨rfl, moved⟩

theorem same_decisionScope (moved : s.frames.Alike frames) (ts ts' : Tokens) :
    Same (decisionScope s ts) (decisionScope (s.elsewhere frames) ts') := by
  have here : (s.elsewhere frames).frames.block? = s.frames.block? := moved.block?
  unfold decisionScope
  rw [here]
  split
  · exact .ok rfl
  · exact .ok rfl
  · exact .error ⟨rfl, rfl, rfl⟩

theorem same_readRecord (ts ts' : Tokens) (d : Document) :
    Same (readRecord ts d) (readRecord ts' d) := by
  unfold readRecord
  split
  · exact .ok rfl
  · exact .error ⟨rfl, rfl, rfl⟩

/-- The resolver is asked for the same files, and the same decisions are recorded. -/
theorem matches_executeDecisions (indifferent : setting.resolver.Indifferent file file')
    (moved : s.frames.Alike frames) (alike : ts.Alike ts') :
    Matches (executeDecisions setting s ts file)
      (executeDecisions setting (s.elsewhere frames) ts' file') Session.Alike
      Diagnostic.Alike := by
  unfold executeDecisions
  simp only [alike.text, indifferent.documents]
  refine .after (same_checkTokens alike _ _ _ _) fun _ => ?_
  refine .after (same_decisionScope moved ts ts') fun element => ?_
  refine .unless (fun _ => ⟨rfl, rfl, rfl⟩) fun _ => ?_
  refine .after (same_resolved ts ts' _) fun documents => ?_
  have records : Same (documents.mapM (readRecord ts)) (documents.mapM (readRecord ts')) := by
    have own : List.Forall₂ Eq documents documents := List.forall₂_same.mpr fun _ _ => rfl
    have each := Matches.mapM own
      (f := readRecord ts) (g := readRecord ts') (R := Eq) (E := Diagnostic.Alike) ?_
    · rwa [List.forall₂_eq_eq_eq] at each
    · rintro d _ rfl
      exact same_readRecord ts ts' d
  refine .after records fun decisions => (steps_build _ _ _).mono ?_
  rintro s₁ _ ⟨rfl, leaves⟩
  exact .of_moved (leaves.moved moved)

/-- The resolver is asked for the same sources. -/
theorem matches_executeInclude (indifferent : setting.resolver.Indifferent file file')
    (alike : ts.Alike ts') :
    Matches (executeInclude setting ts file) (executeInclude setting ts' file') Inclusion.Alike
      Diagnostic.Alike := by
  unfold executeInclude
  simp only [alike.text, indifferent.sources]
  refine .after (same_checkTokens alike _ _ _ _) fun _ => ?_
  refine .unless (fun _ => ⟨rfl, rfl, rfl⟩) fun _ => ?_
  exact .after (same_resolved ts ts' _) fun sources => .ok rfl

/-- What a directive comes to elsewhere. -/
theorem matches_executeDirective (indifferent : setting.resolver.Indifferent file file')
    (moved : s.frames.Alike frames) (alike : ts.Alike ts') :
    Matches (executeDirective setting s ts file)
      (executeDirective setting (s.elsewhere frames) ts' file')
      (fun a b => a.1.Alike b.1 ∧ Option.Rel Inclusion.Alike a.2 b.2) Diagnostic.Alike := by
  unfold executeDirective
  rw [alike.text]
  split
  · exact .bind (matches_executeConstant moved alike) fun _ _ same => .ok ⟨same, .none⟩
  · exact .bind (matches_executeConstant moved alike) fun _ _ same => .ok ⟨same, .none⟩
  · exact .bind (matches_executeInclude indifferent alike) fun _ _ same =>
      .ok ⟨.of_moved moved, .some same⟩
  · exact .bind (matches_executeDecisions indifferent moved alike) fun _ _ same =>
      .ok ⟨same, .none⟩
  · exact .bind (matches_executeIdentifiers moved alike) fun _ _ same => .ok ⟨same, .none⟩
  · exact .bind (matches_executeImplied moved alike) fun _ _ same => .ok ⟨same, .none⟩
  · exact .error ⟨rfl, rfl, rfl⟩

/-! ### Lines -/

/-- A line that closes a block is a closing brace by itself. -/
theorem text_of_closesBlock (closes : closesBlock ts = true) : ts.text 0 = blockEnd := by
  match ts with
  | [] => cases closes
  | [t] =>
    simp only [closesBlock, List.length_singleton, beq_self_eq_true, Tokens.isAt, Token.is,
      Bool.true_and, List.getElem?_cons_zero, Option.any_some, Bool.and_eq_true, beq_iff_eq]
      at closes
    exact closes.2
  | _ :: _ :: _ => cases closes

theorem closesBlock_of_alike (alike : ts.Alike ts') : closesBlock ts' = closesBlock ts := by
  rw [closesBlock, alike.length, alike.isAt, closesBlock]

theorem isDirective_of_alike (alike : ts.Alike ts') : isDirective ts' = isDirective ts := by
  cases alike with
  | nil => rfl
  | cons same _ =>
    simp only [isDirective, List.head?_cons, Option.any_some, same.quoted, same.text]

/-- The readings of a line have come equally far and include the same. -/
def ReadAlike (ws ws' : List Diagnostic) (a b : Progress × Option Inclusion) : Prop :=
  a.1.Alike ws ws' b.1 ∧ Option.Rel Inclusion.Alike a.2 b.2

/-- A line of tokens is read the same in alike progress, also where it is a directive. -/
theorem matches_readTokens (indifferent : setting.resolver.Indifferent file file')
    (far : p.Alike ws ws' p') (l l' : Source.LogicalLine) (alike : ts.Alike ts') :
    Matches (readTokens setting file l line ts p) (readTokens setting file' l' line' ts' p')
      (ReadAlike ws ws') Failure.Alike := by
  have session := far.session
  have warned := far.warnings
  obtain ⟨s', warnings'⟩ := p'
  obtain ⟨same, moved⟩ := session
  dsimp only at same moved
  generalize s'.frames = frames at same moved
  subst same
  have here : (p.session.elsewhere frames).frames.block? = p.session.frames.block? := moved.block?
  have done : (p.session.elsewhere frames).closed = p.session.closed := rfl
  unfold readTokens
  simp only [closesBlock_of_alike alike, isDirective_of_alike alike, here, done]
  refine .unless (fun _ => alike_failure ⟨rfl, rfl, rfl⟩) fun _ => ?_
  refine .ite (fun _ => ?_) fun _ => .ite (fun _ => ?_) fun _ => ?_
  · refine .bind (matches_check (matches_closeBlock moved ts ts')) fun s₁ s₂ same => ?_
    exact .ok ⟨⟨same, warned⟩, .none⟩
  · refine .bind (matches_check (matches_executeDirective indifferent moved alike)) ?_
    rintro ⟨s₁, i⟩ ⟨s₂, i'⟩ ⟨same, included⟩
    exact .ok ⟨⟨same, warned⟩, included⟩
  · have statement := Statement.Alike.ofTokens alike
    refine .bind (matches_warnAll far _ (alike_advice _ statement.tokens)) fun p₁ p₂ far₁ => ?_
    refine .bind (matches_check (matches_runStatement moved statement _ _)) fun s₁ s₂ same => ?_
    exact .ok ⟨⟨same, far₁.warnings⟩, .none⟩

theorem matches_readLine (indifferent : setting.resolver.Indifferent file file')
    (far : p.Alike ws ws' p') (same : l.Alike l') :
    Matches (readLine setting file l p) (readLine setting file' l' p') (ReadAlike ws ws')
      Failure.Alike := by
  have constants : p'.session.constants = p.session.constants := by
    rw [far.session.same]
    rfl
  unfold readLine
  rw [constants]
  refine .bind (matches_check (matches_lineTokens same)) fun raw raw' alike => ?_
  rw [alike.isEmpty]
  refine .ite (fun _ => .ok ⟨far, .none⟩) fun _ => ?_
  refine .bind (matches_warnAll far _ (alike_constantAdvice _ alike)) fun p₁ p₂ far₁ => ?_
  exact matches_readTokens indifferent far₁ l l' (alike_substituteTokens _ alike)

/-! ### Sources -/

/-- The two read an included source alike, wherever it is included. -/
def Includer.Alike (ws ws' : List Diagnostic) (includer includer' : Includer) : Prop :=
  ∀ line line' span span' d p p', Progress.Alike ws ws' p p' →
    Matches (includer line span d p) (includer' line' span' d p') (Progress.Alike ws ws')
      Failure.Alike

variable {includer includer' : Includer}

/-- Lines are read one part after the other. -/
theorem readLines_append (a b : List Source.LogicalLine) (p : Progress) :
    readLines setting file includer (a ++ b) p =
      readLines setting file includer a p >>= readLines setting file includer b := by
  induction a generalizing p with
  | nil => rfl
  | cons l a ih =>
    rw [List.cons_append, readLines, readLines]
    cases readLine setting file l p with
    | error f => rfl
    | ok answer =>
      obtain ⟨p₁, inclusion⟩ := answer
      cases inclusion with
      | none => exact ih p₁
      | some i =>
        simp only [ok_bind]
        cases i.sources.foldlM (fun p d => includer (sourceLine file l) i.span d p) p₁ with
        | error f => rfl
        | ok p₂ => exact ih p₂

/-- Lines that say the same are read the same, by induction on both lists. -/
theorem matches_readLines (indifferent : setting.resolver.Indifferent file file')
    (includes : includer.Alike ws ws' includer') {ls ls' : List Source.LogicalLine}
    (same : List.Forall₂ Source.LogicalLine.Alike ls ls') (far : p.Alike ws ws' p') :
    Matches (readLines setting file includer ls p) (readLines setting file' includer' ls' p')
      (Progress.Alike ws ws') Failure.Alike := by
  induction same generalizing p p' with
  | nil => exact .ok far
  | cons first _ ih =>
    refine .bind (matches_readLine indifferent far first) ?_
    rintro ⟨p₁, i⟩ ⟨p₂, i'⟩ ⟨far₁, included⟩
    cases included with
    | none => exact ih far₁
    | some sources =>
      dsimp only
      rw [sources]
      refine .bind (R := Progress.Alike ws ws') ?_ fun p₃ p₄ far₃ => ih far₃
      refine .foldlM (List.forall₂_same.mpr fun _ _ => rfl) ?_ far₁
      rintro d _ rfl q q' far
      exact includes _ _ _ _ d q q' far

theorem matches_readContent (indifferent : setting.resolver.Indifferent file file')
    (includes : includer.Alike ws ws' includer') (far : p.Alike ws ws' p') (content : String) :
    Matches (readContent setting file includer content p)
      (readContent setting file' includer' content p') (Progress.Alike ws ws') Failure.Alike := by
  unfold readContent
  split
  · exact matches_readLines indifferent includes (List.forall₂_same.mpr fun _ _ => rfl) far
  · exact .error (alike_failure ⟨rfl, rfl, rfl⟩)

/-- A source that is included is read the same way wherever it is included. -/
theorem matches_readSource (indifferent : setting.resolver.Indifferent file file')
    (far : p.Alike ws ws' p') (depth : Nat) (opened : List (Option String)) (content : String) :
    Matches (readSource setting depth opened file content p)
      (readSource setting depth opened file' content p') (Progress.Alike ws ws')
      Failure.Alike := by
  induction depth generalizing opened file file' content p p' with
  | zero =>
    refine matches_readContent indifferent ?_ far content
    intro line line' span span' d p p' far
    exact .error (alike_failure ⟨rfl, rfl, rfl⟩)
  | succ depth ih =>
    refine matches_readContent indifferent ?_ far content
    intro line line' span span' d p p' far
    refine .ite (fun _ => .error (alike_failure ⟨rfl, rfl, rfl⟩)) fun _ => ?_
    exact ih (.refl _ _) far _ _

/-- How a source reads what it includes, of whatever name it is. -/
def includerAt (setting : Setting) (depth : Nat) (opened : List (Option String)) : Includer :=
  match depth with
  | 0 => fun line span d p => .error (includeCycle line span d p)
  | depth + 1 => fun line span d p =>
    if opened.contains (some d.name) then .error (includeCycle line span d p)
    else readSource setting depth (some d.name :: opened) (some d.name) d.content p

theorem readSource_eq (setting : Setting) (depth : Nat) (opened : List (Option String))
    (file : Option String) :
    readSource setting depth opened file =
      readContent setting file (includerAt setting depth opened) := by
  cases depth <;> rfl

/-- A source that is included is read under its own name, so that the including line makes no
difference. -/
theorem alike_includerAt (setting : Setting) (depth : Nat) (opened : List (Option String)) :
    (includerAt setting depth opened).Alike ws ws' (includerAt setting depth opened) := by
  intro line line' span span' d p p' far
  cases depth with
  | zero => exact .error (alike_failure ⟨rfl, rfl, rfl⟩)
  | succ depth =>
    apply Matches.ite
    · exact fun _ => .error (alike_failure ⟨rfl, rfl, rfl⟩)
    · exact fun _ => matches_readSource (.refl _ _) far _ _ _

/-! ### Readings -/

/-- What a reading that has come this far answers. -/
def Progress.finish (p : Progress) : Except Failure Parsed :=
  match p.session.checkAllClosed with
  | .ok () => .ok { workspace := p.session.builder.finish, warnings := p.warnings }
  | .error d => .error (p.failure d)

/-- To interpret a source is to read it from the session on, and then to check that all is
closed. -/
theorem interpret_eq (setting : Setting) (s : Session) (name : Option String) (source : String) :
    interpret setting s name source =
      readSource setting setting.resolver.limit [name] name source { session := s } >>=
        Progress.finish :=
  rfl

/-- The workspaces are the same, and the warnings are since `ws` and `ws'`. -/
structure Parsed.Alike (ws ws' : List Diagnostic) (a b : Parsed) : Prop where
  workspace : b.workspace = a.workspace
  warnings : ∃ vs vs', a.warnings = ws ++ vs ∧ b.warnings = ws' ++ vs' ∧
    List.Forall₂ Diagnostic.WarnsAlike vs vs'

/-- Whether a block is left open is a matter of the blocks, not of where they were opened. -/
theorem same_checkAllClosed {s s' : Session} (alike : s.Alike s') :
    Same s.checkAllClosed s'.checkAllClosed := by
  have moved := alike.frames
  unfold checkAllClosed
  generalize s.frames = frames at moved ⊢
  generalize s'.frames = frames' at moved ⊢
  cases moved with
  | nil => exact .ok rfl
  | cons => exact .error ⟨rfl, rfl, rfl⟩

/-- What is left open at the end is told of alike. -/
theorem matches_finish (far : p.Alike ws ws' p') :
    Matches p.finish p'.finish (Parsed.Alike ws ws') Failure.Alike := by
  obtain ⟨session, warnings⟩ := far
  have builder : p'.session.builder = p.session.builder := by
    rw [session.same]
    rfl
  have closed := same_checkAllClosed session
  unfold Progress.finish
  generalize p.session.checkAllClosed = x at closed ⊢
  generalize p'.session.checkAllClosed = y at closed ⊢
  cases closed with
  | ok => exact .ok ⟨congrArg Builder.finish builder, warnings⟩
  | error alike => exact .error (alike_failure alike)

end Language

end Edifice
