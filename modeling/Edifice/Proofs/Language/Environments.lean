import Edifice.Proofs.Language.Forms
import Edifice.Proofs.Language.Selections

/-!
What the names of deployment environments stand for.

Environments are known by their names and by the identifiers they are assigned to, in one
table.  A line that declares one enters the identifier first, which it may not take from
another environment, and then the name, which it enters in any case (`Advances.enters`); no
other line changes the table (`Advances.sameEnvironments`).  So an identifier stands for its
environment until an environment is declared whose name it is, and for that one ever after
(`environment_identifiers_stand`).
-/

namespace Edifice.Language

open Check

namespace Session

variable {s s' s₁ s₂ : Session} {setting : Setting} {identifier : Option Token} {ts : Tokens}
  {colors : ColorReader}
  {x name value : String}

/-! ### What declares an environment -/

/-- The line is a statement that declares a deployment environment of the name, where the model
is described. -/
structure DeclaresEnvironment (s : Session) (ts : Tokens) (name : String) : Prop where
  opens : closesBlock ts = false
  statement : isDirective ts = false
  here : s.frames.block? = some .model
  form : (Statement.ofTokens ts).form = .environment name

/-- The environment `name` has been entered, under the identifier if there is one and under its
name. -/
def EntersEnvironment (s : Session) (identifier : Option Token) (name : String) (s' : Session) :
    Prop :=
  ∃ named, s.nameEnvironment identifier name = .ok named ∧
    s'.environments = named.environments.insert name name

/-- The session knows the environments of another. -/
def SameEnvironments (s s' : Session) : Prop :=
  s'.environments = s.environments

theorem Quiet.sameEnvironments (quiet : s.Quiet s') : s.SameEnvironments s' :=
  quiet.environments

/-- A change of the workspace leaves the environments alone. -/
theorem sameEnvironments_buildWith {α : Type} (c : Change Builder α) (span : Span) :
    Gives (s.buildWith span c) fun answer => s.SameEnvironments answer.2 := by
  intro answer built
  obtain ⟨b, -, own⟩ := buildWith_eq_ok.mp built
  rw [own]
  rfl

theorem sameEnvironments_executeRelationship (st : Statement) :
    Gives (executeRelationship s identifier st) fun answer => s.SameEnvironments answer.2 := by
  intro answer executed
  obtain ⟨_, _, _, _, _, id, s₁, s₂, -, added, quiet, bound, -⟩ :=
    steps_executeRelationship identifier st answer executed
  have first : s₁.environments = s.environments := sameEnvironments_buildWith _ _ _ added
  show answer.2.environments = s.environments
  rw [same_bindRelationship _ _ _ bound]
  exact quiet.environments.trans first

theorem sameEnvironments_executeElement (kind : ElementKind) (st : Statement) (block : Block) :
    Gives (executeElement s kind identifier st block) fun answer =>
      s.SameEnvironments answer.2 := by
  intro answer executed
  obtain ⟨id, s₁, s₂, declared, quiet, bound, -⟩ :=
    steps_executeElement kind identifier st block answer executed
  have first : s₁.environments = s.environments := by
    have same : s₁ = s.withBuilder s₁.builder := (entered_declare kind block _ _ declared).same
    rw [same]
    rfl
  show answer.2.environments = s.environments
  rw [same_bindElement _ _ _ bound]
  exact quiet.environments.trans first

/-- The opening of an environment enters it. -/
theorem enters_executeEnvironment (st : Statement) (block : Block) :
    Gives (executeEnvironment s identifier st block) fun answer =>
      s.EntersEnvironment identifier (st.tokens.text 1) answer.2 := by
  unfold executeEnvironment
  refine .unless (.after fun _ => .after fun _ => .unless ?_)
  exact .bind (P := fun named => s.nameEnvironment identifier _ = .ok named)
    (fun _ named => named) fun named entered => .ok ⟨named, entered, rfl⟩

/-- A statement of the form of an environment is executed as the opening of one. -/
theorem executeModel_of_environment {st : Statement} {block : Block}
    {answer : Option Block × Session} (form : st.form = .environment name)
    (executed : executeModel s st block = .ok answer) :
    name = st.declaration.tokens.text 1 ∧
      executeEnvironment s st.identifier? st.declaration block = .ok answer := by
  have declared := declares_executeModel st answer executed
  unfold executeDeclaration at declared
  unfold Statement.form at form
  unfold Statement.keyword at declared
  dsimp only at declared form
  split at form
  case isTrue => cases form
  case isFalse unrelated =>
    rw [if_neg unrelated] at declared
    split at form
    case h_1 => cases form
    case h_2 plain =>
      split at declared
      case h_1 kind keyword => exact (plain kind keyword).elim
      case h_2 =>
        split at form
        case isTrue environment =>
          rw [if_pos environment] at declared
          exact ⟨(Form.environment.inj form).symm, declared⟩
        case isFalse => split at form <;> cases form

/-- Statements of other forms leave the environments alone. -/
theorem sameEnvironments_of_states {st : Statement} {block : Block} {form : Form}
    {answer : Option Block × Session} (states : s.States st block form answer)
    (other : ∀ name, form ≠ .environment name) : s.SameEnvironments answer.2 := by
  cases states with
  | relationship executed => exact sameEnvironments_executeRelationship _ _ executed
  | element executed => exact sameEnvironments_executeElement _ _ _ _ executed
  | environment _ => exact absurd rfl (other _)
  | group executed =>
    obtain ⟨inner, -, rfl⟩ := groups_executeGroup _ _ executed
    exact rfl
  | settings _ => exact rfl
  | body _ silent => exact silent.quiet.sameEnvironments

/-- What a statement does to the environments: where it declares one, it enters that one. -/
inductive Names (s : Session) (st : Statement) (s' : Session) : Prop where
  | enters {name : String} (here : s.frames.block? = some .model)
      (form : st.form = .environment name) (enters : s.EntersEnvironment st.identifier? name s')
  | same (other : ∀ name, s.frames.block? = some .model → st.form ≠ .environment name)
      (same : s.SameEnvironments s')

theorem names_executeModel (st : Statement) {block : Block} (here : s.frames.block? = some block) :
    Gives (executeModel s st block) fun answer => s.Names st answer.2 := by
  intro answer executed
  by_cases named : ∃ name, st.form = .environment name
  · obtain ⟨name, form⟩ := named
    obtain ⟨rfl, executed⟩ := executeModel_of_environment form executed
    obtain ⟨rfl, -⟩ := opens_executeEnvironment _ answer executed
    exact .enters here form (enters_executeEnvironment _ _ answer executed)
  · have other : ∀ name, st.form ≠ .environment name := fun name form => named ⟨name, form⟩
    exact .same (fun name _ => other name)
      (sameEnvironments_of_states (states_executeModel st answer executed) other)

/-- Of all statements only that of an environment changes the table: the others are gone
through by the block they stand in. -/
theorem names_executeStatement (st : Statement) :
    Gives (executeStatement colors s st) fun answer => s.Names st answer.2 := by
  have elsewhere : ∀ {s'}, s.frames.block? ≠ some .model → s.SameEnvironments s' →
      s.Names st s' := fun other same => .same (fun _ here => absurd here other) same
  intro answer executed
  by_cases shapeless : ∃ block, s.frames.block? = some block ∧ block.shapesModel = false
  · obtain ⟨block, here, shapeless⟩ := shapeless
    have silent := silent_executeStatement st here shapeless answer executed
    refine elsewhere ?_ silent.quiet.environments
    rw [here]
    rintro ⟨⟩
    cases shapeless
  unfold executeStatement at executed
  split at executed
  case isTrue =>
    unfold executeBrace at executed
    split at executed
    case h_1 key here => exact absurd ⟨_, here, rfl⟩ shapeless
    case h_2 key here => exact absurd ⟨_, here, rfl⟩ shapeless
    case h_3 => cases executed
  unfold executeWords at executed
  split at executed
  case h_1 here =>
    exact elsewhere (by simp [here]) (quiet_executeRoot st answer executed).1.environments
  case h_2 block here =>
    cases block with
    | model | group | element | deploymentEnvironment | deploymentNode =>
      exact names_executeModel st here answer executed
    | workspace =>
      exact elsewhere (by simp [here]) (quiet_executeWorkspace st answer executed).1.environments
    | properties target =>
      by_cases settings : target = .model
      · subst settings
        obtain ⟨-, b, -, same⟩ := sets_executeProperty st answer executed
        refine elsewhere (by simp [here]) ?_
        show answer.2.environments = s.environments
        rw [same]
        rfl
      · exact elsewhere (by simp [here])
          (silent_executeProperty settings st answer executed).quiet.environments
    | _ => exact absurd ⟨_, here, rfl⟩ shapeless

/-- A statement does nothing more to the environments when it opens its block. -/
theorem names_runStatement (st : Statement) (line : Nat) :
    Gives (runStatement colors s st line) (s.Names st) := by
  intro s' ran
  obtain ⟨⟨block, s₁⟩, executed, ran⟩ := bind_eq_ok.mp ran
  have names := names_executeStatement st _ executed
  dsimp only at ran names
  split at ran
  case isFalse =>
    obtain rfl := Except.ok.inj ran
    exact names
  case isTrue =>
    cases block with
    | none => cases ran
    | some block =>
      obtain rfl := Except.ok.inj ran
      cases names with
      | enters here form entered => exact .enters here form entered
      | same other same => exact .same other same

/-! ### Lines -/

/-- A line enters the environment that it declares. -/
theorem Advances.enters (advances : s.Advances setting ts s')
    (declares : s.DeclaresEnvironment ts name) :
    s.EntersEnvironment (Statement.ofTokens ts).identifier? name s' := by
  obtain ⟨file, inclusion, performs⟩ := advances.performs
  cases performs with
  | closes closing _ => exact absurd closing (Bool.eq_false_iff.mp declares.opens)
  | directs _ directive _ => exact absurd directive (Bool.eq_false_iff.mp declares.statement)
  | runs _ _ ran =>
    cases names_runStatement _ _ s' ran with
    | enters here form entered =>
      obtain rfl := Form.environment.inj (form.symm.trans declares.form)
      exact entered
    | same other _ => exact absurd declares.form (other name declares.here)

/-- Every other line leaves the environments alone. -/
theorem Advances.sameEnvironments (advances : s.Advances setting ts s')
    (other : ∀ name, ¬ s.DeclaresEnvironment ts name) : s.SameEnvironments s' := by
  obtain ⟨file, inclusion, performs⟩ := advances.performs
  cases performs with
  | closes _ closed => exact (closes_closeBlock ts s' closed).environments
  | directs _ _ executed =>
    cases directs_executeDirective setting ts file _ executed with
    | quiet quiet => exact quiet.environments
    | chooses => exact rfl
  | runs opens statement ran =>
    cases names_runStatement _ _ s' ran with
    | enters here form _ => exact absurd ⟨opens, statement, here, form⟩ (other _)
    | same _ same => exact same

/-! ### What identifiers stand for -/

/-- Wherever the declaration of a deployment view gives `x` as its environment, it is the
environment `name`. -/
def StandsFor (s : Session) (x name : String) : Prop :=
  ∀ ts t, viewPart? .deployment ts .environment = some t → t.text = x →
    readEnvironment s .deployment ts = .ok (some name)

/-- It is the table of environments that says so. -/
theorem standsFor_iff : s.StandsFor x name ↔ s.environments.get? x = some name := by
  constructor
  · intro stands
    have read := stands (wordTokens ["deployment", "*", x]) _ rfl rfl
    show s.environments.get? x = some name
    unfold readEnvironment at read
    split at read
    case h_1 missing => cases missing
    case h_2 t part =>
      obtain rfl : { text := x, span := .point 0 } = t := Option.some.inj part
      split at read
      case h_1 known =>
        obtain rfl := Option.some.inj (Except.ok.inj read)
        exact known
      case h_2 => cases read
  · intro known ts t part text
    unfold readEnvironment
    simp only [part, text, known]

/-- An identifier is entered for an environment as long as it stands for no other one. -/
theorem inserts_nameEnvironment (t : Token) :
    Gives (s.nameEnvironment (some t) name) fun named =>
      (∀ other, s.environments.get? t.text = some other → other = name) ∧
        named.environments = s.environments.insert t.text name := by
  unfold nameEnvironment
  refine .ite .error ?_
  split
  case isTrue => exact .error
  case isFalse free =>
    refine .ok ⟨fun other known => ?_, rfl⟩
    rw [known] at free
    simpa using free

/-- An identifier that a declaration is assigned to stands for the environment it declares. -/
theorem EntersEnvironment.assigned {t : Token} (enters : s.EntersEnvironment (some t) name s') :
    s'.StandsFor t.text name := by
  obtain ⟨named, entered, same⟩ := enters
  obtain ⟨-, put⟩ := inserts_nameEnvironment t named entered
  rw [standsFor_iff, same, put, Dictionary.get?_insert, Dictionary.get?_insert, if_pos rfl]
  split
  · rfl
  · rfl

/-- What stood for an environment stands for it still, or for the one that has its name. -/
theorem EntersEnvironment.keeps (enters : s.EntersEnvironment identifier name s')
    (stands : s.StandsFor x value) : s'.StandsFor x (if x = name then name else value) := by
  rw [standsFor_iff] at stands ⊢
  obtain ⟨named, entered, same⟩ := enters
  have kept : named.environments.get? x = some value := by
    cases identifier with
    | none =>
      obtain rfl := Except.ok.inj entered
      exact stands
    | some t =>
      obtain ⟨free, put⟩ := inserts_nameEnvironment t named entered
      rw [put, Dictionary.get?_insert]
      split
      case isFalse => exact stands
      case isTrue taken => rw [free value (taken ▸ stands)]
  rw [same, Dictionary.get?_insert]
  split
  · rfl
  · exact kept

/-! ### Courses -/

/-- Reading lines one after the other, none of which declares an environment called `x`. -/
abbrev CourseWithout (setting : Setting) (x : String) : Session → Session → Prop :=
  Relation.ReflTransGen fun s s' => ∃ ts, s.Advances setting ts s' ∧ ¬ s.DeclaresEnvironment ts x

/-- Reading lines one after the other, one of which declares an environment called `x`. -/
def CourseThrough (setting : Setting) (x : String) (s s' : Session) : Prop :=
  ∃ before ts after, s.Course setting before ∧ before.Advances setting ts after ∧
    before.DeclaresEnvironment ts x ∧ after.Course setting s'

/-- A course of lines either declares an environment called `x` or does not. -/
theorem Course.without_or_through (x : String) (course : s.Course setting s') :
    s.CourseWithout setting x s' ∨ s.CourseThrough setting x s' := by
  induction course with
  | refl => exact .inl .refl
  | @tail s₁ s₂ first step ih =>
    obtain ⟨ts, advances⟩ := step
    by_cases declares : s₁.DeclaresEnvironment ts x
    · exact .inr ⟨s₁, ts, s₂, first, advances, declares, .refl⟩
    obtain without | ⟨before, ts', after, course, advances', declares', later⟩ := ih
    · exact .inl (without.tail ⟨ts, advances, declares⟩)
    · exact .inr ⟨before, ts', after, course, advances', declares', later.tail ⟨ts, advances⟩⟩

/-- An identifier stands for the same environment after a line that declares none of its name. -/
theorem Advances.standsFor (advances : s.Advances setting ts s') (stands : s.StandsFor x value)
    (other : ¬ s.DeclaresEnvironment ts x) : s'.StandsFor x value := by
  by_cases named : ∃ name, s.DeclaresEnvironment ts name
  · obtain ⟨name, declares⟩ := named
    have kept := (advances.enters declares).keeps stands
    have different : x ≠ name := by
      rintro rfl
      exact other declares
    rwa [if_neg different] at kept
  · have same := advances.sameEnvironments fun name declares => named ⟨name, declares⟩
    rw [standsFor_iff] at stands ⊢
    rwa [same]

/-- What stands for the environment of its own name does so ever after. -/
theorem Advances.standsFor_self (advances : s.Advances setting ts s') (stands : s.StandsFor x x) :
    s'.StandsFor x x := by
  by_cases declares : s.DeclaresEnvironment ts x
  · have kept := (advances.enters declares).keeps stands
    rwa [if_pos rfl] at kept
  · exact advances.standsFor stands declares

/-! ### Lines of words -/

/-- Lines that declare no environment of the name, read word by word, are a course without it.
-/
theorem courseWithout_readWords {p : Progress} {lines : List (List String)}
    (other : ∀ words ∈ lines,
      (Statement.ofTokens (wordTokens words)).form ≠ .environment x) :
    Gives (lines.foldlM readWords p) fun p' => p.session.CourseWithout {} x p'.session := by
  induction lines generalizing p with
  | nil => exact .ok .refl
  | cons words rest ih =>
    refine .bind (advances_readWords words) fun p₁ advances => ?_
    intro p' read
    refine .head ⟨_, advances, fun declares => ?_⟩
      (ih (fun words' member => other words' (List.mem_cons_of_mem _ member)) p' read)
    exact other words List.mem_cons_self declares.form

/-! ### Identifiers of environments -/

/-- **An identifier stands for its environment until another one has it for a name.**  Once
`x = deploymentEnvironment N` has been read, `x` stands for `N` in the declarations of
deployment views as long as no environment is declared that is called `x`, whatever else is;
and once one is, it stands for that one ever after.  A course of lines is of one kind or the
other. -/
theorem environment_identifiers_stand {t : Token} (advances : s.Advances setting ts s₁)
    (declares : s.DeclaresEnvironment ts name)
    (assigned : (Statement.ofTokens ts).identifier? = some t) :
    (s₁.CourseWithout setting t.text s₂ → s₂.StandsFor t.text name) ∧
    (s₁.CourseThrough setting t.text s₂ → s₂.StandsFor t.text t.text) ∧
    (s₁.Course setting s₂ →
      s₁.CourseWithout setting t.text s₂ ∨ s₁.CourseThrough setting t.text s₂) := by
  have first : s₁.StandsFor t.text name := (assigned ▸ advances.enters declares).assigned
  refine ⟨fun course => ?_, fun through => ?_, fun course => course.without_or_through t.text⟩
  · induction course with
    | refl => exact first
    | tail _ step ih =>
      obtain ⟨ts', advances', other⟩ := step
      exact advances'.standsFor ih other
  · obtain ⟨before, ts', after, course, advances', declares', later⟩ := through
    have entered : after.StandsFor t.text t.text := by
      obtain ⟨named, -, same⟩ := advances'.enters declares'
      rw [standsFor_iff, same, Dictionary.get?_insert, if_pos rfl]
    induction later with
    | refl => exact entered
    | tail _ step ih =>
      obtain ⟨ts'', advances''⟩ := step
      exact advances''.standsFor_self ih

/-- The lines in front of the first environment. -/
def modelLines : List (List String) :=
  [["workspace", "\x7b"], ["model", "\x7b"]]

/-- The words that declare the environment `Production` under the identifier `live`. -/
def liveWords : List String :=
  ["live", "=", "deploymentEnvironment", "Production", "\x7b"]

/-- Another environment follows, under an identifier as well. -/
def stagingLines : List (List String) :=
  [["\x7d"], ["stage", "=", "deploymentEnvironment", "Staging", "\x7b"], ["\x7d"]]

/-- Another environment follows that has the identifier of the first for its name. -/
def takingLines : List (List String) :=
  [["\x7d"], ["deploymentEnvironment", "live", "\x7b"]]

/-- The environments in between do no harm as long as none of them is called `live`. -/
theorem live_stands_through_staging :
    ∃ p p₁ p₂, afterLines modelLines = .ok p ∧ readWords p liveWords = .ok p₁ ∧
      stagingLines.foldlM readWords p₁ = .ok p₂ ∧ p₂.session.StandsFor "live" "Production" := by
  have read : (do
      let p ← (afterLines modelLines).toOption
      let p₁ ← (readWords p liveWords).toOption
      let _ ← (stagingLines.foldlM readWords p₁).toOption
      return p.session.frames.block?) = some (some .model) := by decide +kernel
  simp only [Option.bind_eq_bind, Option.bind_eq_some_iff, toOption_eq_some, Option.pure_def,
    Option.some.injEq] at read
  obtain ⟨p, opened, p₁, declared, p₂, followed, here⟩ := read
  have declares : p.session.DeclaresEnvironment (wordTokens liveWords) "Production" :=
    ⟨by decide, by decide, here, by decide⟩
  have course : p₁.session.CourseWithout {} "live" p₂.session :=
    courseWithout_readWords (by decide) p₂ followed
  have assigned : (Statement.ofTokens (wordTokens liveWords)).identifier? =
      some { text := "live", span := .point 0 } := by decide
  refine ⟨p, p₁, p₂, opened, declared, followed, ?_⟩
  exact (environment_identifiers_stand (advances_readWords liveWords p₁ declared) declares
    assigned).1 course

/-- An identifier does not keep its environment for good: it goes over to one that is called
like it. -/
theorem live_taken_by_name :
    ¬ ∀ (setting : Setting) (s s₁ s₂ : Session) (ts : Tokens) (t : Token) (name : String),
      s.Advances setting ts s₁ → s.DeclaresEnvironment ts name →
        (Statement.ofTokens ts).identifier? = some t → s₁.Course setting s₂ →
          s₂.StandsFor t.text name := by
  intro stands
  have read : (do
      let p ← (afterLines modelLines).toOption
      let p₁ ← (readWords p liveWords).toOption
      let p₂ ← (takingLines.foldlM readWords p₁).toOption
      return (p.session.frames.block?, p₂.session.environments.get? "live")) =
        some (some .model, some "live") := by decide +kernel
  simp only [Option.bind_eq_bind, Option.bind_eq_some_iff, toOption_eq_some, Option.pure_def,
    Option.some.injEq, Prod.mk.injEq] at read
  obtain ⟨p, -, p₁, declared, p₂, followed, here, taken⟩ := read
  have declares : p.session.DeclaresEnvironment (wordTokens liveWords) "Production" :=
    ⟨by decide, by decide, here, by decide⟩
  have still := stands {} _ _ _ _ { text := "live", span := .point 0 } _
    (advances_readWords liveWords p₁ declared) declares (by decide)
    (course_readWords takingLines p₂ followed)
  have known := standsFor_iff.mp still
  rw [taken] at known
  exact absurd known (by decide)

end Session

end Edifice.Language
