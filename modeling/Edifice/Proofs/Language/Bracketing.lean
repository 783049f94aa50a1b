import Edifice.Proofs.Language.Readings
import Edifice.Proofs.Language.Replay
import Mathlib.Algebra.Ring.Int.Defs

/-!
Brackets.

A source that brings nothing in is read only if its blocks are well bracketed: every block
that is opened is closed, all of them stand inside of the one workspace block, and nothing
but constants stands outside of it.  Every form of statement decides by itself whether it
opens a block, so this is shown of what a line can do at all (`Session.Takes`): the open
blocks are as many as the depth of the lines read (`Session.Reached`), after every line of
a run.
-/

namespace Edifice.Language

open Check

/-! ### Lines and their depth -/

def isOpening (ts : Tokens) : Bool :=
  !isDirective ts && ts.opensBlock

def definesConstant (ts : Tokens) : Bool :=
  isDirective ts && (ts.text 0 == "!const" || ts.text 0 == "!constant")

/-- What a line adds to the depth. -/
def turn (ts : Tokens) : Int :=
  if closesBlock ts then -1 else if isOpening ts then 1 else 0

/-- The openings less the closings. -/
def depth (lines : List Tokens) : Int :=
  (lines.map turn).sum

@[simp] theorem depth_append (before after : List Tokens) :
    depth (before ++ after) = depth before + depth after := by
  simp [depth]

@[simp] theorem depth_singleton (ts : Tokens) : depth [ts] = turn ts := by
  simp [depth]

def constantsAfter (constants : Dictionary String) (ts : Tokens) : Dictionary String :=
  if definesConstant ts then constants.insert (ts.text 1) (ts.text 2) else constants

/-- The lines that are executed: those with tokens, in each the constants put in that the
lines before it define. -/
def executedLines (constants : Dictionary String) :
    List Source.LogicalLine → Except Diagnostic (List Tokens)
  | [] => .ok []
  | l :: rest => do
    let raw ← lineTokens l
    if raw.isEmpty then executedLines constants rest
    else
      let ts := substituteTokens constants raw
      return ts :: (← executedLines (constantsAfter constants ts) rest)

/-- The lines of a source are properly bracketed. -/
structure Bracketed (lines : List Tokens) : Prop where
  nonnegative : ∀ n, 0 ≤ depth (lines.take n)
  balanced : depth lines = 0
  /-- Outside of all blocks, a line defines a constant or is the first to open a block, that
  of the workspace. -/
  outside : ∀ before ts after, lines = before ++ ts :: after → depth before = 0 →
    definesConstant ts = true ∨
      (closesBlock ts = false ∧ isOpening ts = true ∧
        (Statement.ofTokens ts).keyword = "workspace" ∧
        ∀ earlier ∈ before, isOpening earlier = false)
  /-- Nothing follows once a block has been opened and none is open any more. -/
  ended : ∀ before after, lines = before ++ after → (∃ ts ∈ before, isOpening ts = true) →
    depth before = 0 → after = []

/-! ### What a line can do -/

/-- What executing a line does to the open blocks, where nothing can be brought in. -/
inductive Session.Takes (s : Session) (ts : Tokens) (s' : Session) : Prop where
  /-- The innermost block is closed, and with that of the workspace the end is reached. -/
  | closes (frame : Frame) (closing : closesBlock ts = true)
    (frames : s.frames = frame :: s'.frames) (closed : frame.block = .workspace → s'.closed = true)
  | directs (other : closesBlock ts = false) (directive : isDirective ts = true)
    (frames : s'.frames = s.frames)
    (outside : s.frames = [] → definesConstant ts = true ∧ s'.builder = s.builder)
  | opens (frame : Frame) (other : closesBlock ts = false) (opening : isOpening ts = true)
    (frames : s'.frames = frame :: s.frames)
    (outside : s.frames = [] →
      frame.block = .workspace ∧ (Statement.ofTokens ts).keyword = "workspace")
  | stays (other : closesBlock ts = false) (plain : isOpening ts = false)
    (frames : s'.frames = s.frames) (inside : s.frames ≠ [])

/-- Executing a line takes the session from `s` to `s'`, before the end has been reached. -/
structure Session.Executed (s : Session) (ts : Tokens) (s' : Session) : Prop where
  ongoing : s.closed = false
  takes : s.Takes ts s'
  constants : s'.constants = constantsAfter s.constants ts

variable {s s' s₀ : Session} {ts : Tokens} {options : Options} {colors : ColorReader}
  {file : Option String}

/-- Only directives define constants. -/
theorem constantsAfter_of_statement (statement : isDirective ts = false)
    (constants : Dictionary String) : constantsAfter constants ts = constants := by
  simp [constantsAfter, definesConstant, statement]

/-- A line that closes a block defines no constant. -/
theorem constantsAfter_of_closes (closes : closesBlock ts = true) (constants : Dictionary String) :
    constantsAfter constants ts = constants := by
  have other : definesConstant ts = false := by
    rw [definesConstant, text_of_closesBlock closes]
    simp [blockEnd]
  rw [constantsAfter, other]
  rfl

/-- A closing brace by itself takes one block away, and the session ends where that was the
last. -/
theorem takes_closeBlock (closing : closesBlock ts = true) :
    Gives (s.closeBlock ts) fun s' => s.Takes ts s' ∧ s'.constants = s.constants := by
  intro s' answer
  unfold Session.closeBlock at answer
  split at answer
  case h_1 => cases answer
  case h_2 frame frames opened =>
    dsimp only at answer
    split at answer
    case h_1 =>
      obtain rfl := Except.ok.inj answer
      exact ⟨.closes frame closing opened fun _ => rfl, rfl⟩
    case h_2 key inner =>
      have workspace : frame.block ≠ .workspace := by
        rw [inner]
        simp
      split at answer
      case h_1 built =>
        obtain rfl := Except.ok.inj answer
        obtain ⟨b, -, rfl⟩ := Session.buildWith_eq_ok.mp built
        exact ⟨.closes frame closing opened (absurd · workspace), rfl⟩
      all_goals cases answer
    case h_3 workspace _ =>
      obtain rfl := Except.ok.inj answer
      exact ⟨.closes frame closing opened (absurd · workspace), rfl⟩

/-- Outside of all blocks a statement can only open the workspace. -/
theorem root_executeStatement (outside : s.frames = []) (st : Statement) :
    Gives (executeStatement colors s st) fun answer =>
      answer.1 = some .workspace ∧ st.opensBlock = true ∧ st.keyword = "workspace" := by
  have root : s.frames.block? = none := by
    rw [outside]
    rfl
  intro answer executed
  unfold executeStatement executeBrace executeWords at executed
  rw [root] at executed
  split at executed
  · cases executed
  · dsimp only at executed
    unfold executeRoot at executed
    by_cases keyword : st.keyword = "workspace"
    · rw [if_neg (not_not_intro keyword)] at executed
      split at executed
      · cases executed
      · obtain ⟨-, rest⟩ := then_eq_ok.mp executed
        obtain ⟨block, rest⟩ := then_eq_ok.mp rest
        unfold requireBlock at block
        split at block
        case isTrue opens =>
          obtain rfl := Except.ok.inj rest
          exact ⟨rfl, opens, keyword⟩
        case isFalse => cases block
    · rw [if_pos keyword] at executed
      cases executed

/-- A line that is no directive opens a block exactly if its statement does. -/
theorem opensBlock_ofTokens (statement : isDirective ts = false) :
    (Statement.ofTokens ts).opensBlock = isOpening ts := by
  unfold Statement.ofTokens isOpening
  rw [statement]
  split
  case isTrue opens => exact opens.symm
  case isFalse plain => exact (Bool.of_not_eq_true plain).symm

/-- A statement opens one block where its line ends in a brace, and none elsewhere. -/
theorem takes_runStatement (other : closesBlock ts = false) (statement : isDirective ts = false)
    (line : Nat) :
    Gives (runStatement colors s (.ofTokens ts) line) fun s' =>
      s.Takes ts s' ∧ s'.constants = s.constants := by
  intro s' ran
  obtain ⟨⟨block, s₁⟩, executed, rest⟩ := bind_eq_ok.mp ran
  have leaves := leaves_executeStatement _ _ executed
  have root := fun outside => root_executeStatement (s := s) outside _ _ executed
  dsimp only at leaves root rest
  rw [opensBlock_ofTokens statement] at root rest
  by_cases opening : isOpening ts = true
  · rw [if_pos opening] at rest
    cases block with
    | none => cases rest
    | some block =>
      obtain rfl := Except.ok.inj rest
      let frame : Frame :=
        { block, scope := s₁.scopeOf block, line, span := (Statement.ofTokens ts).span }
      refine ⟨.opens frame other opening ?_ ?_, leaves.constants⟩
      · exact congrArg (frame :: ·) leaves.frames
      · intro outside
        obtain ⟨workspace, -, keyword⟩ := root outside
        exact ⟨Option.some.inj workspace, keyword⟩
  · rw [if_neg opening] at rest
    obtain rfl := Except.ok.inj rest
    have plain : isOpening ts = false := Bool.of_not_eq_true opening
    refine ⟨.stays other plain leaves.frames ?_, leaves.constants⟩
    intro outside
    exact opening (root outside).2.1

/-- A constant can be defined anywhere. -/
theorem takes_executeConstant (other : closesBlock ts = false)
    (defines : definesConstant ts = true) :
    Gives (executeConstant s ts) fun s' =>
      s.Takes ts s' ∧ s'.constants = constantsAfter s.constants ts := by
  have directive : isDirective ts = true := (Bool.and_eq_true_iff.mp defines).1
  refine .after fun _ => .unless (.ok ?_)
  constructor
  · exact .directs other directive rfl fun _ => ⟨defines, rfl⟩
  · rw [constantsAfter, if_pos defines]

theorem inside_requireWorkspaceOrModel (ts : Tokens) :
    Gives (requireWorkspaceOrModel s ts) fun _ => s.frames ≠ [] := by
  intro _ required outside
  unfold requireWorkspaceOrModel at required
  rw [outside] at required
  cases required

/-- What other directives do to the open blocks, and where. -/
theorem takes_within (other : closesBlock ts = false) (directive : isDirective ts = true)
    (plain : definesConstant ts = false) (inside : s.frames ≠ []) (frames : s'.frames = s.frames)
    (constants : s'.constants = s.constants) :
    s.Takes ts s' ∧ s'.constants = constantsAfter s.constants ts := by
  constructor
  · exact .directs other directive frames fun outside => absurd outside inside
  · rw [constants, constantsAfter, plain]
    rfl

/-- The directive on identifiers touches neither the blocks nor the constants. -/
theorem takes_executeIdentifiers (other : closesBlock ts = false)
    (directive : isDirective ts = true) (plain : definesConstant ts = false) :
    Gives (executeIdentifiers s ts) fun s' =>
      s.Takes ts s' ∧ s'.constants = constantsAfter s.constants ts := by
  refine .after fun _ => .bind (inside_requireWorkspaceOrModel ts) fun _ inside => ?_
  refine .after fun mode => ?_
  split
  · exact .ok (takes_within other directive plain inside rfl rfl)
  · exact .error

theorem takes_executeImplied (other : closesBlock ts = false) (directive : isDirective ts = true)
    (plain : definesConstant ts = false) :
    Gives (executeImplied s ts) fun s' =>
      s.Takes ts s' ∧ s'.constants = constantsAfter s.constants ts := by
  refine .after fun _ => .bind (inside_requireWorkspaceOrModel ts) fun _ inside => ?_
  exact .after fun enabled => .ok (takes_within other directive plain inside rfl rfl)

/-- There are no sources to include. -/
theorem executeInclude_empty (ts : Tokens) :
    Gives (executeInclude { options, resolver := .empty, colors } ts file) fun _ => False := by
  refine .after fun _ => .unless ?_
  exact .bind (P := fun _ => False) .error fun _ => False.elim

/-- There are no decisions to import. -/
theorem executeDecisions_empty (ts : Tokens) :
    Gives (executeDecisions { options, resolver := .empty, colors } s ts file) fun _ => False := by
  refine .after fun _ => .after fun element => .unless ?_
  exact .bind (P := fun _ => False) .error fun _ => False.elim

/-- Without sources and documents, a directive brings nothing in, and outside of all blocks
it can only define a constant. -/
theorem takes_executeDirective (other : closesBlock ts = false)
    (directive : isDirective ts = true) :
    Gives (executeDirective { options, resolver := .empty, colors } s ts file) fun answer =>
      answer.2 = none ∧ s.Takes ts answer.1 ∧
        answer.1.constants = constantsAfter s.constants ts := by
  unfold executeDirective
  split
  case h_1 named | h_2 named =>
    have defines : definesConstant ts = true := by simp [definesConstant, directive, named]
    exact .bind (takes_executeConstant other defines) fun _ took => .ok ⟨rfl, took⟩
  case h_3 => exact .bind (executeInclude_empty ts) fun _ => False.elim
  case h_4 => exact .bind (executeDecisions_empty ts) fun _ => False.elim
  case h_5 named =>
    have plain : definesConstant ts = false := by simp [definesConstant, named]
    exact .bind (takes_executeIdentifiers other directive plain) fun _ took => .ok ⟨rfl, took⟩
  case h_6 named =>
    have plain : definesConstant ts = false := by simp [definesConstant, named]
    exact .bind (takes_executeImplied other directive plain) fun _ took => .ok ⟨rfl, took⟩
  case h_7 => exact .error

/-! ### What lines can do one after the other -/

/-- Executing lines one after the other takes the session from `s` to `s'`. -/
inductive Session.Runs : Session → List Tokens → Session → Prop where
  | nil (s : Session) : Runs s [] s
  | cons {s s₁ s' : Session} {ts : Tokens} {rest : List Tokens} (first : s.Executed ts s₁)
    (later : Runs s₁ rest s') : Runs s (ts :: rest) s'

/-- What has been reached from `s₀` after the lines `before`. -/
structure Session.Reached (s₀ : Session) (before : List Tokens) (s : Session) : Prop where
  depth : depth before = s.frames.length
  /-- The outermost block is that of the workspace. -/
  outermost : ∀ frame, s.frames.getLast? = some frame → frame.block = .workspace
  ended : (∃ ts ∈ before, isOpening ts = true) → s.frames = [] → s.closed = true
  unopened : (∀ ts ∈ before, isOpening ts = false) → s.frames = [] ∧ s.builder = s₀.builder

variable {before after lines : List Tokens}

/-- A run through two lists of lines passes a session between them. -/
theorem Session.Runs.split (runs : s.Runs (before ++ after) s') :
    ∃ s₁, s.Runs before s₁ ∧ s₁.Runs after s' := by
  induction before generalizing s with
  | nil => exact ⟨s, .nil s, runs⟩
  | cons ts before ih =>
    cases runs with
    | cons first later =>
      obtain ⟨s₁, earlier, last⟩ := ih later
      exact ⟨s₁, .cons first earlier, last⟩

namespace Session.Takes

variable (takes : s.Takes ts s')
include takes

/-- The number of open blocks changes as the depth of the lines does. -/
theorem depth : (s'.frames.length : Int) = s.frames.length + turn ts := by
  unfold turn
  cases takes with
  | closes frame closing frames =>
    rw [if_pos closing, frames, List.length_cons]
    omega
  | directs other directive frames =>
    have plain : isOpening ts = false := by simp [isOpening, directive]
    simp [other, plain, frames]
  | opens frame other opening frames => simp [other, opening, frames]
  | stays other plain frames => simp [other, plain, frames]

/-- The workspace stays the outermost block: no line that is executed replaces it. -/
theorem outermost
    (outermost : ∀ frame, s.frames.getLast? = some frame → frame.block = .workspace) :
    ∀ frame, s'.frames.getLast? = some frame → frame.block = .workspace := by
  intro last found
  cases takes with
  | closes frame _ frames =>
    apply outermost
    rw [frames, List.getLast?_cons, found]
    rfl
  | directs _ _ frames | stays _ _ frames => exact outermost last (frames ▸ found)
  | opens frame _ _ frames outside =>
    rw [frames, List.getLast?_cons] at found
    cases inner : s.frames.getLast? with
    | none =>
      rw [inner] at found
      obtain rfl := Option.some.inj found
      exact (outside (List.getLast?_eq_none_iff.mp inner)).1
    | some f =>
      rw [inner] at found
      obtain rfl := Option.some.inj found
      exact outermost _ inner

/-- Where no block is open after a line, the end has been reached or none was open before. -/
theorem ended (outermost : ∀ frame, s.frames.getLast? = some frame → frame.block = .workspace)
    (outside : s'.frames = []) : s'.closed = true ∨ s.frames = [] ∧ isOpening ts = false := by
  cases takes with
  | closes frame _ frames closed =>
    left
    apply closed
    apply outermost
    rw [frames, outside]
    rfl
  | directs _ directive frames =>
    right
    exact ⟨frames.symm.trans outside, by simp [isOpening, directive]⟩
  | opens _ _ _ frames =>
    rw [frames] at outside
    cases outside
  | stays _ _ frames inside => exact absurd (frames.symm.trans outside) inside

/-- Outside of all blocks a line that opens none leaves the workspace alone. -/
theorem unopened (plain : isOpening ts = false) (outside : s.frames = []) :
    s'.frames = [] ∧ s'.builder = s.builder := by
  cases takes with
  | closes _ _ frames =>
    rw [outside] at frames
    cases frames
  | directs _ _ frames alone => exact ⟨frames.trans outside, (alone outside).2⟩
  | opens _ _ opening =>
    rw [plain] at opening
    cases opening
  | stays _ _ _ inside => exact absurd outside inside

end Session.Takes

/-- What executing one more line reaches. -/
theorem Session.Reached.step (reached : s₀.Reached before s) (executed : s.Executed ts s') :
    s₀.Reached (before ++ [ts]) s' := by
  have takes := executed.takes
  constructor
  · rw [depth_append, depth_singleton, reached.depth, takes.depth]
  · exact takes.outermost reached.outermost
  · rintro ⟨opening, listed, opens⟩ outside
    rcases takes.ended reached.outermost outside with closed | ⟨earlier_outside, plain⟩
    · exact closed
    · rcases List.mem_append.mp listed with earlier | last
      · have ended := reached.ended ⟨opening, earlier, opens⟩ earlier_outside
        rw [executed.ongoing] at ended
        cases ended
      · rw [List.mem_singleton.mp last, plain] at opens
        cases opens
  · intro none
    rw [List.forall_mem_append, List.forall_mem_singleton] at none
    obtain ⟨earlier_outside, builder⟩ := reached.unopened none.1
    obtain ⟨outside, unchanged⟩ := takes.unopened none.2 earlier_outside
    exact ⟨outside, unchanged.trans builder⟩

/-- What executing further lines reaches. -/
theorem Session.Reached.run (reached : s₀.Reached before s) (runs : s.Runs lines s') :
    s₀.Reached (before ++ lines) s' := by
  induction runs generalizing before with
  | nil => simpa using reached
  | @cons s s₁ s' ts rest first later ih =>
    rw [List.append_cons]
    exact ih (reached.step first)

theorem Session.Reached.outside (reached : s₀.Reached before s) (zero : Language.depth before = 0) :
    s.frames = [] := by
  rw [reached.depth] at zero
  exact List.length_eq_zero_iff.mp (Int.natCast_eq_zero.mp zero)

/-- A session on which nothing has been read yet. -/
structure Session.Fresh (s : Session) : Prop where
  frames : s.frames = []
  constants : s.constants = {}

/-- Preparing a session opens no block and does not end it. -/
theorem Session.Prepared.fresh (prepared : s.Prepared) : s.Fresh := by
  induction prepared with
  | start | ofBuilder => exact ⟨rfl, rfl⟩
  | bindExternal _ bound fresh =>
    obtain ⟨-, -, rest⟩ := bind_eq_ok.mp bound
    split at rest
    · obtain rfl := Except.ok.inj rest
      exact ⟨fresh.frames, fresh.constants⟩
    · cases rest

/-- Before any line the depth is nought, and so many blocks are open. -/
theorem Session.Fresh.reached (fresh : s.Fresh) : s.Reached [] s where
  depth := by
    rw [fresh.frames]
    rfl
  outermost := by
    rw [fresh.frames]
    rintro _ ⟨⟩
  ended := by
    rintro ⟨_, ⟨⟩, _⟩
  unopened := fun _ => ⟨fresh.frames, rfl⟩

theorem Session.Fresh.run (fresh : s.Fresh) (runs : s.Runs lines s') : s.Reached lines s' :=
  fresh.reached.run runs

/-- Lines that are executed from the start until no block is open any more are bracketed. -/
theorem bracketed_of_runs (fresh : s.Fresh) (runs : s.Runs lines s') (closed : s'.frames = []) :
    Bracketed lines := by
  constructor
  · intro n
    rw [← List.take_append_drop n lines] at runs
    obtain ⟨s₁, earlier, -⟩ := runs.split
    rw [(fresh.run earlier).depth]
    exact Int.natCast_nonneg _
  · rw [(fresh.run runs).depth, closed]
    rfl
  · rintro before ts after rfl zero
    obtain ⟨s₁, earlier, later⟩ := runs.split
    have reached := fresh.run earlier
    have empty := reached.outside zero
    cases later with
    | cons first _ =>
      cases first.takes with
      | closes frame _ frames =>
        rw [empty] at frames
        cases frames
      | directs _ _ _ defines => exact .inl (defines empty).1
      | opens frame other opening _ workspace =>
        refine .inr ⟨other, opening, (workspace empty).2, ?_⟩
        intro earlier listed
        by_contra opened
        have opened := reached.ended ⟨earlier, listed, Bool.of_not_eq_false opened⟩ empty
        rw [first.ongoing] at opened
        cases opened
      | stays _ _ _ inside => exact absurd empty inside
  · rintro before after rfl opened zero
    obtain ⟨s₁, earlier, later⟩ := runs.split
    have reached := fresh.run earlier
    cases later with
    | nil => rfl
    | cons first _ =>
      have ended := reached.ended opened (reached.outside zero)
      rw [first.ongoing] at ended
      cases ended

/-! ### Readings -/

variable {p p' : Progress} {line : SourceLine}

/-- Where nothing can be brought in, a line of tokens that is read has been executed and
includes nothing. -/
theorem executed_readTokens (l : Source.LogicalLine) (ts : Tokens) :
    Gives (readTokens { options, resolver := .empty, colors } file l line ts p) fun answer =>
      answer.2 = none ∧ p.session.Executed ts answer.1.session := by
  rintro ⟨p', inclusion⟩ read
  obtain ⟨ongoing, performs⟩ := performs_readTokens l line _ read
  dsimp only at performs ⊢
  generalize p'.session = s' at performs ⊢
  cases performs with
  | closes closing closed =>
    obtain ⟨took, constants⟩ := takes_closeBlock closing s' closed
    rw [← constantsAfter_of_closes closing p.session.constants] at constants
    exact ⟨rfl, ongoing, took, constants⟩
  | directs other directive executed =>
    obtain ⟨nothing, took, constants⟩ := takes_executeDirective other directive _ executed
    exact ⟨nothing, ongoing, took, constants⟩
  | runs other statement ran =>
    obtain ⟨took, constants⟩ := takes_runStatement other statement _ s' ran
    rw [← constantsAfter_of_statement statement p.session.constants] at constants
    exact ⟨rfl, ongoing, took, constants⟩

/-- Where nothing can be brought in, a line that is read has been executed with the constants
put in, if it has tokens. -/
theorem executed_readLine (l : Source.LogicalLine) :
    Gives (readLine { options, resolver := .empty, colors } file l p) fun answer =>
      answer.2 = none ∧ ∃ raw, lineTokens l = .ok raw ∧
        (raw.isEmpty = true ∧ answer.1 = p ∨ raw.isEmpty = false ∧
          p.session.Executed (substituteTokens p.session.constants raw) answer.1.session) := by
  intro answer read
  obtain ⟨raw, lexed, ⟨rfl, rfl⟩ | ⟨words, p₀, same, tokens⟩⟩ := readLine_eq_ok read
  · exact ⟨rfl, [], lexed, .inl ⟨rfl, rfl⟩⟩
  · obtain ⟨nothing, executed⟩ := executed_readTokens l _ answer tokens
    rw [same] at executed
    exact ⟨nothing, raw, lexed, .inr ⟨List.isEmpty_eq_false_iff.mpr words, executed⟩⟩

/-- Lines that are read are executed, without the empty ones. -/
theorem runs_readLines (includer : Includer) (ls : List Source.LogicalLine) :
    Gives (readLines { options, resolver := .empty, colors } file includer ls p) fun p' =>
      ∃ lines, executedLines p.session.constants ls = .ok lines ∧
        p.session.Runs lines p'.session := by
  induction ls generalizing p with
  | nil => exact .ok ⟨[], rfl, .nil _⟩
  | cons l rest ih =>
    intro p' read
    obtain ⟨⟨p₁, inclusion⟩, first, later⟩ := bind_eq_ok.mp read
    obtain ⟨nothing, raw, lexed, did⟩ := executed_readLine l _ first
    obtain rfl : inclusion = none := nothing
    obtain ⟨lines, executed_rest, runs⟩ := ih p' later
    unfold executedLines
    rw [lexed, ok_bind]
    rcases did with ⟨empty, same⟩ | ⟨words, executed⟩
    · obtain rfl : p₁ = p := same
      rw [if_pos empty]
      exact ⟨lines, executed_rest, runs⟩
    · rw [words]
      rw [executed.constants] at executed_rest
      refine ⟨_, ?_, .cons executed runs⟩
      simp [executed_rest]

/-- The lines of a source, as they are executed. -/
def Executes (source : String) (lines : List Tokens) : Prop :=
  ∃ ls, Source.logicalLines source = .ok ls ∧ executedLines {} ls = .ok lines

/-- A source that can bring nothing in is a run through its executed lines. -/
theorem runs_readSource (fresh : p.session.Fresh) (depth : Nat) (opened : List (Option String))
    (source : String) :
    Gives (readSource { options, resolver := .empty, colors } depth opened file source p) fun p' =>
      ∃ lines, Executes source lines ∧ p.session.Runs lines p'.session := by
  have content : ∀ includer,
      Gives (readContent { options, resolver := .empty, colors } file includer source p) fun p' =>
        ∃ lines, Executes source lines ∧ p.session.Runs lines p'.session := by
    intro includer p' read
    unfold readContent at read
    split at read
    case h_1 ls split =>
      obtain ⟨lines, executed, runs⟩ := runs_readLines includer ls p' read
      rw [fresh.constants] at executed
      exact ⟨lines, ⟨ls, split, executed⟩, runs⟩
    case h_2 => cases read
  cases depth with
  | zero => exact content _
  | succ depth => exact content _

/-- What is known of a source that was read on top of `s`. -/
def Accepted (s : Session) (source : String) (parsed : Parsed) : Prop :=
  ∃ lines, Executes source lines ∧ Bracketed lines ∧
    ((∀ ts ∈ lines, isOpening ts = false) → parsed.workspace = s.builder.finish)

/-- What is read on top of a fresh session has been accepted line by line. -/
theorem accepted_interpret (fresh : s.Fresh) (name : Option String) (source : String)
    (parsed : Parsed)
    (read : interpret { options, resolver := .empty, colors } s name source = .ok parsed) :
    Accepted s source parsed := by
  obtain ⟨p, reading, rest⟩ := bind_eq_ok.mp read
  have fresh_start : ({ session := s } : Progress).session.Fresh := fresh
  obtain ⟨lines, executes, runs⟩ := runs_readSource fresh_start _ _ source p reading
  split at rest
  case h_1 closed =>
    obtain rfl := Except.ok.inj rest
    have empty : p.session.frames = [] := by
      unfold Session.checkAllClosed at closed
      split at closed
      case h_1 empty => exact empty
      case h_2 => cases closed
    refine ⟨lines, executes, bracketed_of_runs fresh runs empty, ?_⟩
    intro none
    exact congrArg Builder.finish ((fresh.run runs).unopened none).2
  case h_2 => cases rest

/-- **Only properly bracketed sources are read.**  When a source that can bring nothing in
is read on top of a prepared session, or from the start, the depth of its lines is never
negative and ends at zero; outside of all blocks there are definitions of constants and one
line that opens the workspace; nothing follows the end of the workspace; and when no line
opens a block, the workspace is the one that was there before. -/
theorem bracketed_of_reading (options : Options) (colors : ColorReader) (name : Option String)
    (source : String) :
    (∀ s, s.Prepared → ∀ parsed,
      interpret { options, resolver := .empty, colors } s name source = .ok parsed →
        Accepted s source parsed) ∧
      ∀ parsed, parse { options, resolver := .empty, colors } name source = .ok parsed →
        Accepted (.start options) source parsed := by
  constructor
  · intro s prepared
    exact accepted_interpret prepared.fresh name source
  · exact accepted_interpret (Session.Prepared.start options).fresh name source

/-- A source with a constant outside of all blocks and a block inside the workspace. -/
def frameSource : String :=
  "!const name Shop\nworkspace $\x7bname\x7d \x7b\n model \x7b\n \x7d\n\x7d\n"

/-- The frame is read, so it is bracketed. -/
theorem bracketed_frame :
    ∃ parsed, parse { resolver := .empty } none frameSource = .ok parsed ∧
      Accepted (.start {}) frameSource parsed := by
  have read : (parse { resolver := .empty } none frameSource).isOk = true := by
    decide +kernel
  obtain ⟨parsed, answer⟩ := Check.isOk_iff.mp read
  exact ⟨parsed, answer, (bracketed_of_reading {} Color.css none frameSource).2 parsed answer⟩

end Edifice.Language
