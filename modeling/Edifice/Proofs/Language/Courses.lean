import Edifice.Language.Interpreter
import Edifice.Proofs.Language.Declarations
import Mathlib.Logic.Relation

/-!
Courses of lines.

Reading a source executes one line after the other, its own lines and those of the sources
that it includes.  So whatever the sources are, the session after a reading is one that a
course of lines leads to (`course_readSource`), and what every line keeps is kept by all
readings.  What a line can do is said once (`Session.Acts`): it closes a block, chooses the
identifier mode, or enacts a statement, whose block it may open.
-/

namespace Edifice.Language

open Check
open Builder (Call LeadsSilent)

namespace Session

/-- Reading the line `ts`, in which constants have been put in, leads from `s` to `s'`. -/
def Advances (setting : Setting) (s : Session) (ts : Tokens) (s' : Session) : Prop :=
  ∃ file l line p p' inclusion,
    readTokens setting file l line ts p = .ok (p', inclusion) ∧ p.session = s ∧ p'.session = s'

/-- Reading lines one after the other leads from `s` to `s'`. -/
abbrev Course (setting : Setting) : Session → Session → Prop :=
  Relation.ReflTransGen fun s s' => ∃ ts, s.Advances setting ts s'

/-- What executing a line does; a statement may be assigned to `identifier`. -/
inductive Acts (s : Session) (identifier : Option Token) : Session → Prop where
  | closes (frame : Frame) {s' : Session} (frames : s.frames = frame :: s'.frames)
      (run : LeadsSilent s.builder s'.builder) (registry : s'.registry = s.registry)
      (environments : s'.environments = s.environments) : s.Acts identifier s'
  | quiet {s' : Session} (quiet : s.Quiet s') : s.Acts identifier s'
  | chooses {mode : IdentifierMode} {r : Registry} (chosen : s.registry.setMode? mode = some r) :
      s.Acts identifier { s with registry := r }
  | stays {block : Option Block} {s' : Session} (enacts : s.Enacts identifier (block, s')) :
      s.Acts identifier s'
  | opens {block : Block} {s' : Session} (line : Nat) (span : Span)
      (enacts : s.Enacts identifier (some block, s')) :
      s.Acts identifier (s'.openBlock block line span)

variable {s s' : Session} {identifier : Option Token} {setting : Setting} {file : Option String}
  {colors : ColorReader}
  {ts : Tokens}

/-! ### What a line does -/

/-- A statement acts on the session, and then opens its block if it has one. -/
theorem acts_runStatement (st : Statement) (line : Nat) :
    Gives (runStatement colors s st line) (s.Acts st.identifier?) := by
  intro s' ran
  obtain ⟨⟨block, s₁⟩, executed, ran⟩ := bind_eq_ok.mp ran
  have enacts := enacts_executeStatement st _ executed
  dsimp only at ran
  split at ran
  case isTrue =>
    cases block with
    | none => cases ran
    | some block =>
      obtain rfl := Except.ok.inj ran
      exact .opens line st.span enacts
  case isFalse =>
    obtain rfl := Except.ok.inj ran
    exact .stays enacts

/-- Closing a block takes it from the open ones. -/
structure Closes (s s' : Session) : Prop where
  frames : ∃ frame, s.frames = frame :: s'.frames
  run : LeadsSilent s.builder s'.builder
  registry : s'.registry = s.registry
  environments : s'.environments = s.environments

/-- Closing a block takes the innermost one away; names and environments stay. -/
theorem closes_closeBlock (ts : Tokens) : Gives (s.closeBlock ts) s.Closes := by
  intro s' closed
  unfold closeBlock at closed
  split at closed
  case h_1 => cases closed
  case h_2 frame frames opened =>
    dsimp only at closed
    split at closed
    case h_1 =>
      obtain rfl := Except.ok.inj closed
      exact ⟨⟨frame, opened⟩, .refl, rfl, rfl⟩
    case h_2 key _ =>
      split at closed
      case h_1 ended =>
        obtain rfl := Except.ok.inj closed
        obtain ⟨run, registry, environments, same⟩ :=
          quiet_call (.endParallel key) rfl _ _ ended
        refine ⟨⟨frame, ?_⟩, run, registry, environments⟩
        rw [opened]
        exact congrArg (frame :: ·) same.symm
      all_goals cases closed
    case h_3 =>
      obtain rfl := Except.ok.inj closed
      exact ⟨⟨frame, opened⟩, .refl, rfl, rfl⟩

theorem acts_closeBlock (ts : Tokens) : Gives (s.closeBlock ts) (s.Acts identifier) := by
  intro s' closed
  obtain ⟨⟨frame, frames⟩, run, registry, environments⟩ := closes_closeBlock ts s' closed
  exact .closes frame frames run registry environments

/-- A record is read into a decision whose links are added one by one. -/
theorem made_read (name content : String) : Gives (Record.read name content) Decision.Made := by
  have made_withStatus : ∀ (d : Decision) lines, d.links = [] →
      (Record.withStatus d lines).Made := by
    intro d lines unlinked
    cases lines with
    | nil => exact .plain unlinked
    | cons first rest => exact Decision.Made.foldl_addLink _ (.plain unlinked)
  unfold Record.read
  dsimp only
  split
  · split
    · split
      · exact .ok (made_withStatus _ _ rfl)
      · exact .ite (.ok (made_withStatus _ _ rfl)) .error
    · exact .error
  · exact .error

/-- Decisions are read from files and recorded in one call; names and blocks stay. -/
theorem quiet_executeDecisions (setting : Setting) (ts : Tokens) (file : Option String) :
    Gives (executeDecisions setting s ts file) s.Quiet := by
  have made_readRecord : ∀ d, Gives (readRecord ts d) Decision.Made := by
    intro d
    unfold readRecord
    split
    · exact .ok (made_read _ _ _ ‹_›)
    · exact .error
  refine .after fun _ => .after fun element => .unless (.after fun documents => ?_)
  exact .bind (.mapM made_readRecord) fun batch made =>
    quiet_build (Call.moves_silent (.addDecisions element batch made) rfl) _

/-- A directive does nothing to the model and to the open blocks. -/
inductive Directs (s : Session) : Session → Prop where
  | quiet {s' : Session} (quiet : s.Quiet s') : s.Directs s'
  | chooses {mode : IdentifierMode} {r : Registry} (chosen : s.registry.setMode? mode = some r) :
      s.Directs { s with registry := r }

theorem directs_executeIdentifiers (ts : Tokens) :
    Gives (executeIdentifiers s ts) s.Directs := by
  refine .after fun _ => .after fun _ => .after fun mode => ?_
  split
  case h_1 chosen => exact .ok (.chooses chosen)
  case h_2 => exact .error

/-- Directives define constants, choose how identifiers work, record decisions or include; each
is one case. -/
theorem directs_executeDirective (setting : Setting) (ts : Tokens) (file : Option String) :
    Gives (executeDirective setting s ts file) fun answer => s.Directs answer.1 := by
  have constant : Gives (executeConstant s ts) s.Quiet :=
    .after fun _ => .unless (.ok ⟨.refl, rfl, rfl, rfl⟩)
  have implied : Gives (executeImplied s ts) s.Quiet := by
    refine .after fun _ => .after fun _ => .after fun enabled => .ok ?_
    exact quiet_withBuilder (Call.moves_silent (.setImpliedRelationships enabled) rfl)
  unfold executeDirective
  split
  · exact .bind constant fun _ quiet => .ok (.quiet quiet)
  · exact .bind constant fun _ quiet => .ok (.quiet quiet)
  · exact .after fun _ => .ok (.quiet .refl)
  · exact .bind (quiet_executeDecisions setting ts file) fun _ quiet => .ok (.quiet quiet)
  · exact .bind (directs_executeIdentifiers ts) fun _ directs => .ok directs
  · exact .bind implied fun _ quiet => .ok (.quiet quiet)
  · exact .error

theorem acts_executeDirective (setting : Setting) (ts : Tokens) (file : Option String) :
    Gives (executeDirective setting s ts file) fun answer => s.Acts identifier answer.1 := by
  rintro ⟨s', inclusion⟩ executed
  cases directs_executeDirective setting ts file _ executed with
  | quiet quiet => exact .quiet quiet
  | chooses chosen => exact .chooses chosen

end Session

open Session

variable {s s' : Session} {p p' : Progress} {setting : Setting} {file : Option String} {ts : Tokens}

/-- A check on a line adds the line to an error and leaves an answer as it is. -/
theorem gives_check {α : Type} {P : α → Prop} {line : SourceLine}
    {answer : Except Diagnostic α} (gives : Gives answer P) : Gives (p.check line answer) P := by
  cases answer with
  | ok a => exact .ok (gives a rfl)
  | error d => exact .error

/-- Warnings leave the session alone. -/
theorem session_warnAll (strict : Bool) {line : SourceLine} (ds : List Diagnostic) :
    Gives (p.warnAll strict line ds) fun p' => p'.session = p.session :=
  .foldlM (fun _ _ same => .ite .error (.ok same)) rfl

/-- What executing a line of the source `file` comes to, and what it includes. -/
inductive Session.Performs (setting : Setting) (file : Option String) (s : Session)
    (ts : Tokens) : Session × Option Inclusion → Prop where
  | closes {s' : Session} (closing : closesBlock ts = true) (closed : s.closeBlock ts = .ok s') :
      s.Performs setting file ts (s', none)
  | directs {answer : Session × Option Inclusion} (other : closesBlock ts = false)
      (directive : isDirective ts = true)
      (executed : executeDirective setting s ts file = .ok answer) :
      s.Performs setting file ts answer
  | runs {s' : Session} {line : Nat} (other : closesBlock ts = false)
      (statement : isDirective ts = false)
      (ran : runStatement setting.colors s (.ofTokens ts) line = .ok s') :
      s.Performs setting file ts (s', none)

/-- What a line comes to follows from what the closing of a block, a directive or a statement
comes to, as long as the end of the workspace has not been reached. -/
theorem gives_readTokens {P : Session × Option Inclusion → Prop} (l : Source.LogicalLine)
    (line : SourceLine)
    (closes : closesBlock ts = true → Gives (p.session.closeBlock ts) fun s' => P (s', none))
    (directs : closesBlock ts = false → isDirective ts = true →
      Gives (executeDirective setting p.session ts file) P)
    (runs : closesBlock ts = false → isDirective ts = false →
      Gives (runStatement setting.colors p.session (.ofTokens ts) l.number) fun s' => P (s', none)) :
    Gives (readTokens setting file l line ts p) fun answer =>
      p.session.closed = false ∧ P (answer.1.session, answer.2) := by
  unfold readTokens
  by_cases ended : p.session.closed = true
  · rw [if_pos ended]
    exact .error
  rw [if_neg ended]
  have ongoing : p.session.closed = false := Bool.of_not_eq_true ended
  by_cases closing : closesBlock ts = true
  · rw [if_pos closing]
    exact .bind (gives_check (closes closing)) fun _ closed => .ok ⟨ongoing, closed⟩
  rw [if_neg closing]
  have other : closesBlock ts = false := Bool.of_not_eq_true closing
  by_cases directive : isDirective ts = true
  · rw [if_pos directive]
    exact .bind (gives_check (directs other directive)) fun _ executed => .ok ⟨ongoing, executed⟩
  rw [if_neg directive]
  refine .after fun p' => .bind (gives_check (runs other (Bool.of_not_eq_true directive))) ?_
  exact fun _ ran => .ok ⟨ongoing, ran⟩

/-- A line is executed as long as the end of the workspace has not been reached. -/
theorem performs_readTokens (l : Source.LogicalLine) (line : SourceLine) :
    Gives (readTokens setting file l line ts p) fun answer =>
      p.session.closed = false ∧
        p.session.Performs setting file ts (answer.1.session, answer.2) :=
  gives_readTokens l line (fun closing _ closed => .closes closing closed)
    (fun other directive _ executed => .directs other directive executed)
    fun other statement _ ran => .runs other statement ran

theorem Session.Advances.performs (advances : s.Advances setting ts s') :
    ∃ file inclusion, s.Performs setting file ts (s', inclusion) := by
  obtain ⟨file, l, line, p, p', inclusion, read, rfl, rfl⟩ := advances
  exact ⟨file, inclusion, (performs_readTokens l line _ read).2⟩

/-- A line that advances a session has acted on it as a statement, a directive or a closing
brace. -/
theorem Session.Advances.acts (advances : s.Advances setting ts s') :
    s.Acts (Statement.ofTokens ts).identifier? s' := by
  obtain ⟨file, inclusion, performs⟩ := advances.performs
  cases performs with
  | closes _ closed => exact acts_closeBlock ts s' closed
  | directs _ _ executed => exact acts_executeDirective setting ts file _ executed
  | runs _ _ ran => exact acts_runStatement _ _ s' ran

/-! ### Readings are courses -/

/-- A line without tokens does nothing, and any other is executed. -/
theorem course_readLine (l : Source.LogicalLine) :
    Gives (readLine setting file l p) fun answer =>
      p.session.Course setting answer.1.session := by
  unfold readLine
  refine .after fun raw => .ite (.ok .refl) ?_
  refine .bind (session_warnAll _ _) fun p₁ same => ?_
  rintro ⟨p₂, inclusion⟩ read
  exact .single ⟨_, file, l, _, p₁, p₂, inclusion, read, same, rfl⟩

/-- The includer reads by courses of lines. -/
def Includer.Courses (setting : Setting) (includer : Includer) : Prop :=
  ∀ line span d p, Gives (includer line span d p) fun p' =>
    p.session.Course setting p'.session

variable {includer : Includer}

/-- Lines are a course, where each include is one: by induction on the lines. -/
theorem course_readLines (includes : includer.Courses setting) (ls : List Source.LogicalLine) :
    Gives (readLines setting file includer ls p) fun p' =>
      p.session.Course setting p'.session := by
  induction ls generalizing p with
  | nil => exact .ok .refl
  | cons l rest ih =>
    refine .bind (course_readLine l) fun answer first => ?_
    obtain ⟨p₁, inclusion⟩ := answer
    cases inclusion with
    | none => exact fun p' later => first.trans (ih p' later)
    | some i =>
      have included : Gives (i.sources.foldlM (fun p d => includer (sourceLine file l) i.span d p)
          p₁) fun p₂ => p₁.session.Course setting p₂.session := by
        refine .foldlM (fun d p₂ so_far p' read => ?_) .refl
        exact so_far.trans (includes _ _ d p₂ p' read)
      refine .bind included fun p₂ inside p' later => ?_
      exact first.trans (inside.trans (ih p' later))

theorem course_readContent (includes : includer.Courses setting) (content : String) :
    Gives (readContent setting file includer content p) fun p' =>
      p.session.Course setting p'.session := by
  unfold readContent
  split
  · exact course_readLines includes _
  · exact .error

/-- Reading a source with all that it includes is a course of lines, however deep the
includes go. -/
theorem course_readSource (depth : Nat) (opened : List (Option String)) (file : Option String)
    (content : String) :
    Gives (readSource setting depth opened file content p) fun p' =>
      p.session.Course setting p'.session := by
  induction depth generalizing opened file content p with
  | zero => exact course_readContent (fun _ _ _ _ => .error) content
  | succ depth ih =>
    refine course_readContent (fun line span d p => ?_) content
    exact .ite .error (ih _ _ _)

/-- The workspace that a reading answers is that of a session which a course of lines leads
to. -/
theorem course_interpret (name : Option String) (source : String) :
    Gives (interpret setting s name source) fun parsed =>
      ∃ s', s.Course setting s' ∧ parsed.workspace = s'.builder.finish := by
  unfold interpret
  refine .bind (course_readSource _ _ name source) fun p course => ?_
  split
  · exact .ok ⟨p.session, course, rfl⟩
  · exact .error

end Edifice.Language
