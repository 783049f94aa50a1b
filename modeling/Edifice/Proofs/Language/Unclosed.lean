import Edifice.Proofs.Language.Placement

/-!
Blocks that are never closed.

The lines that are executed tell which blocks are open after them, and by which line each was
opened (`stillOpen`).  A reading fails under the code for a block that is never closed only at
its end, and then names the innermost of these blocks: the number is that of the line that
opened it, the range that of its statement.  The diagnostic carries no line.  So the range
is one of the text in which the block was opened, which for a block of an included source is
not the text that is read; and a brace by itself is a statement without tokens, whose range is
the start of the text (`unclosed_block_told`).
-/

namespace Edifice

open Check

/-- The error that ended the reading is one of a line. -/
def Failure.OfLine (f : Failure) : Prop :=
  ∀ d, f.diagnostics.head? = some d → d.code.any Code.isOfLine = true

namespace Language

variable {setting : Setting} {s s' : Session} {ts : Tokens} {file : Option String}
  {colors : ColorReader}
  {p p' : Progress} {line : SourceLine}

/-! ### What lines are refused with -/

theorem ofLine_failure {d : Diagnostic} (ofLine : d.code.any Code.isOfLine = true) :
    (p.failure d).OfLine := by
  rintro _ ⟨⟩
  exact ofLine

/-- Any range will do. -/
theorem bounded_anywhere (ts : Tokens) : ts.Bounded fun _ => True :=
  ⟨trivial, fun _ _ => ⟨trivial, trivial⟩⟩

theorem ofLine_check {α : Type} {S : Nat → Prop} {P : α → Prop} {answer : Except Diagnostic α}
    (yields : Yields answer P (Diagnostic.Marks S)) :
    Yields (p.check line answer) P Failure.OfLine := by
  cases yields with
  | ok holds => exact .ok holds
  | error marks => exact .error (ofLine_failure marks.code)

theorem ofLine_warnAll {S : Nat → Prop} (strict : Bool) {ds : List Diagnostic}
    (marks : ∀ d ∈ ds, d.Marks S) :
    Yields (p.warnAll strict line ds) (fun _ => True) Failure.OfLine :=
  .foldlM (fun d listed _ _ =>
    .ite (fun _ => .error (ofLine_failure (marks d listed).code)) fun _ => .ok trivial) trivial

/-- An error that a line is refused with is one of a line. -/
theorem ofLine_readTokens (l : Source.LogicalLine) :
    Yields (readTokens setting file l line ts p) (fun _ => True) Failure.OfLine := by
  have anywhere := bounded_anywhere ts
  have stated := bounded_ofTokens anywhere
  unfold readTokens
  refine .unless (fun _ => ofLine_failure rfl) fun _ => ?_
  refine .ite (fun _ => ?_) fun _ => .ite (fun _ => ?_) fun _ => ?_
  · exact .after (ofLine_check (marking_closeBlock anywhere)) fun _ => .ok trivial
  · exact .bind (ofLine_check (ends_executeDirective anywhere)) fun _ _ => .ok trivial
  · refine .after (ofLine_warnAll _ (marks_of_advice stated _)) fun p₁ => ?_
    exact .after (ofLine_check (marking_runStatement stated l.number)) fun _ => .ok trivial

theorem ofLine_readLine (l : Source.LogicalLine) :
    Yields (readLine setting file l p) (fun _ => True) Failure.OfLine := by
  have lexed : Marking (fun _ => True) (lineTokens l) := by
    unfold lineTokens
    split
    · exact .ok trivial
    · exact .error (.withHelp (.error ⟨trivial, trivial⟩ rfl) _)
  unfold readLine
  refine .after (ofLine_check lexed) fun raw => .ite (fun _ => .ok trivial) fun _ => ?_
  refine .after (ofLine_warnAll _ (marks_of_constantAdvice (bounded_anywhere raw) _)) fun p₁ => ?_
  exact ofLine_readTokens l

/-- What the includer fails with is led by an error of a line. -/
def Includer.FailsOfLine (includer : Includer) : Prop :=
  ∀ line span d p, Yields (includer line span d p) (fun _ => True) Failure.OfLine

/-- A source is cut into lines, or refused with an error of a line. -/
theorem ofLine_readContent {includer : Includer} (includes : includer.FailsOfLine)
    (content : String) :
    Yields (readContent setting file includer content p) (fun _ => True) Failure.OfLine := by
  have lines : ∀ (ls : List Source.LogicalLine) (p : Progress),
      Yields (readLines setting file includer ls p) (fun _ => True) Failure.OfLine := by
    intro ls
    induction ls with
    | nil => exact fun _ => .ok trivial
    | cons l rest ih =>
      intro p
      refine .after (ofLine_readLine l) ?_
      rintro ⟨p₁, inclusion⟩
      cases inclusion with
      | none => exact ih p₁
      | some i =>
        exact .after (.foldlM (fun d _ _ _ => includes _ _ d _) trivial) fun p₂ => ih p₂
  unfold readContent
  split
  · exact lines _ p
  · exact .error (ofLine_failure rfl)

/-- A reading fails with an error of a line, however deep the includes go. -/
theorem ofLine_readSource (depth : Nat) (opened : List (Option String)) (content : String) :
    Yields (readSource setting depth opened file content p) (fun _ => True) Failure.OfLine := by
  induction depth generalizing opened file content p with
  | zero => exact ofLine_readContent (fun _ _ _ _ => .error (ofLine_failure rfl)) content
  | succ depth ih =>
    refine ofLine_readContent (fun line span d p => ?_) content
    exact .ite (fun _ => .error (ofLine_failure rfl)) fun _ => ih _ _

/-! ### Open blocks -/

/-- The blocks that are open after a line, by the lines that opened them, innermost first. -/
def openAfter (opened : List ExecutedLine) (e : ExecutedLine) : List ExecutedLine :=
  if closesBlock e.tokens then opened.tail
  else if isOpening e.tokens then e :: opened
  else opened

def stillOpen (lines : List ExecutedLine) : List ExecutedLine :=
  lines.foldl openAfter []

/-- The frame is that of the block which the line opened. -/
structure OpenedBy (frame : Frame) (e : ExecutedLine) : Prop where
  line : frame.line = e.place.2.number
  span : frame.span = (Statement.ofTokens e.tokens).span
  /-- A brace by itself opens a parallel sequence. -/
  brace : (Statement.ofTokens e.tokens).tokens = [] → ∃ key, frame.block = .parallel key

/-- The open blocks have been opened by the lines. -/
abbrev Session.Opened (s : Session) (opened : List ExecutedLine) : Prop :=
  List.Forall₂ OpenedBy s.frames opened

variable {e : ExecutedLine} {opened lines : List ExecutedLine}

/-- A brace by itself opens a parallel sequence, or is refused. -/
theorem parallel_of_brace {st : Statement} (brace : st.tokens = []) :
    Gives (executeStatement colors s st) fun answer => ∃ key, answer.1 = some (.parallel key) := by
  have parallel : ∀ key, Gives (executeParallel s key st) fun answer =>
      answer.1 = some (.parallel key) := fun key => .after fun _ => .ok rfl
  rw [executeStatement, if_pos (by rw [brace]; rfl)]
  unfold executeBrace
  split
  · exact fun answer executed => ⟨_, parallel _ answer executed⟩
  · exact fun answer executed => ⟨_, parallel _ answer executed⟩
  · exact .error

/-- A statement that opens a block opens it by its own line. -/
theorem opened_runStatement (other : closesBlock e.tokens = false)
    (statement : isDirective e.tokens = false) (before : s.Opened opened) :
    Gives (runStatement colors s (.ofTokens e.tokens) e.place.2.number) fun s' =>
      s'.Opened (openAfter opened e) := by
  intro s' ran
  obtain ⟨⟨block, s₁⟩, executed, rest⟩ := bind_eq_ok.mp ran
  have same : s₁.frames = s.frames := (leaves_executeStatement _ _ executed).frames
  dsimp only at rest
  rw [opensBlock_ofTokens statement] at rest
  rw [openAfter, if_neg (by simp [other])]
  by_cases opening : isOpening e.tokens = true
  · rw [if_pos opening] at rest ⊢
    cases block with
    | none => cases rest
    | some block =>
      obtain rfl := Except.ok.inj rest
      -- the brace is off the statement by now, so nothing is left of one by itself
      refine .cons ⟨rfl, rfl, fun brace => ?_⟩ (same ▸ before)
      obtain ⟨key, own⟩ := parallel_of_brace brace _ executed
      exact ⟨key, Option.some.inj own⟩
  · rw [if_neg opening] at rest ⊢
    obtain rfl := Except.ok.inj rest
    rw [Session.Opened, same]
    exact before

/-- A line that closes a block closes the innermost one. -/
theorem opened_closeBlock (closing : closesBlock e.tokens = true) (before : s.Opened opened) :
    Gives (s.closeBlock e.tokens) fun s' => s'.Opened (openAfter opened e) := by
  intro s' closed
  obtain ⟨frame, frames⟩ := (Session.closes_closeBlock _ s' closed).frames
  rw [openAfter, if_pos closing]
  rw [Session.Opened, frames] at before
  cases before with
  | cons _ rest => exact rest

/-- A directive opens no block. -/
theorem opened_executeDirective (other : closesBlock e.tokens = false)
    (directive : isDirective e.tokens = true) (before : s.Opened opened) :
    Gives (executeDirective setting s e.tokens file) fun answer =>
      answer.1.Opened (openAfter opened e) := by
  rintro ⟨s', inclusion⟩ executed
  rw [openAfter, if_neg (by simp [other]), if_neg (by simp [isOpening, directive])]
  cases Session.directs_executeDirective setting e.tokens file _ executed with
  | quiet quiet =>
    rw [Session.Opened, quiet.frames]
    exact before
  | chooses => exact before

/-- Executing a line leaves open what its form says. -/
theorem Session.AdvancesAt.leavesOpen (advances : s.AdvancesAt setting e s')
    (before : s.Opened opened) : s'.Opened (openAfter opened e) := by
  obtain ⟨line, p, p', inclusion, read, rfl, rfl⟩ := advances
  exact (gives_readTokens e.place.2 line (fun closing => opened_closeBlock closing before)
    (fun other directive => opened_executeDirective other directive before)
    (fun other statement => opened_runStatement other statement before) _ read).2

/-- After a run the blocks are open that its lines leave open, line by line. -/
theorem Session.PassesAt.leavesOpen (passes : s.PassesAt setting lines s')
    (before : s.Opened opened) : s'.Opened (lines.foldl openAfter opened) := by
  induction passes generalizing opened with
  | nil => exact before
  | cons advances _ ih => exact ih (advances.leavesOpen before)

/-- Blocks are opened by lines that have been executed. -/
theorem mem_of_mem_openAfter {e' : ExecutedLine} (mem : e' ∈ openAfter opened e) :
    e' ∈ opened ∨ e' = e := by
  unfold openAfter at mem
  split at mem
  · exact .inl (List.mem_of_mem_tail mem)
  · split at mem
    · exact (List.mem_cons.mp mem).symm
    · exact .inl mem

/-- Only lines that were executed are still open. -/
theorem mem_of_mem_stillOpen (mem : e ∈ stillOpen lines) : e ∈ lines := by
  have all : ∀ (lines opened : List ExecutedLine), e ∈ lines.foldl openAfter opened →
      e ∈ opened ∨ e ∈ lines := by
    intro lines
    induction lines with
    | nil => exact fun _ => .inl
    | cons first rest ih =>
      intro opened mem
      rcases ih (openAfter opened first) mem with earlier | later
      · rcases mem_of_mem_openAfter earlier with before | rfl
        · exact .inl before
        · exact .inr List.mem_cons_self
      · exact .inr (List.mem_cons_of_mem _ later)
  exact (all lines [] mem).resolve_left List.not_mem_nil

/-! ### Where lines stand -/

/-- The line is one of the text: of `source`, which is read as `name`, or of a source that the
resolver gives. -/
inductive StandsIn (setting : Setting) (name : Option String) (source : String) :
    PlacedLine → String → Prop where
  | root {ls : List Source.LogicalLine} {l : Source.LogicalLine}
      (split : Source.logicalLines source = .ok ls) (mem : l ∈ ls) :
      StandsIn setting name source (name, l) source
  | included {path : String} {origin : Option String} {sources : List Document} {d : Document}
      {ls : List Source.LogicalLine} {l : Source.LogicalLine}
      (found : setting.resolver.sources path origin = .ok sources) (listed : d ∈ sources)
      (split : Source.logicalLines d.content = .ok ls) (mem : l ∈ ls) :
      StandsIn setting name source (some d.name, l) d.content

variable {name : Option String} {source text : String} {l : PlacedLine}

theorem StandsIn.splits (stands : StandsIn setting name source l text) :
    ∃ ls, Source.logicalLines text = .ok ls ∧ l.2 ∈ ls := by
  cases stands with
  | root split mem | included _ _ split mem => exact ⟨_, split, mem⟩

/-- The lines of sources are those of each. -/
theorem mem_linesOf {ds : List Document} {included : List PlacedLine}
    (lines : linesOf ds = .ok included) (mem : l ∈ included) :
    ∃ d ∈ ds, ∃ ls own, Source.logicalLines d.content = .ok ls ∧ own ∈ ls ∧
      l = (some d.name, own) := by
  induction ds generalizing included with
  | nil =>
    obtain rfl := Except.ok.inj lines
    cases mem
  | cons d rest ih =>
    obtain ⟨ls, split, lines⟩ := bind_eq_ok.mp lines
    obtain ⟨others, later, lines⟩ := bind_eq_ok.mp lines
    obtain rfl := Except.ok.inj lines
    rcases List.mem_append.mp mem with mapped | other
    · obtain ⟨own, listed, rfl⟩ := List.mem_map.mp mapped
      exact ⟨d, List.mem_cons_self, ls, own, split, listed, rfl⟩
    · obtain ⟨d', listed, found⟩ := ih later other
      exact ⟨d', List.mem_cons_of_mem _ listed, found⟩

/-- A line that is executed stands in a text, and has its tokens there. -/
theorem Unfolds.stands {places : List PlacedLine} {constants : Dictionary String}
    (unfolds : Unfolds setting places constants lines)
    (stand : ∀ l ∈ places, ∃ text, StandsIn setting name source l text) :
    ∀ e ∈ lines, (∃ text, StandsIn setting name source e.place text) ∧
      ∃ raw constants, lineTokens e.place.2 = .ok raw ∧
        e.tokens = substituteTokens constants raw := by
  induction unfolds with
  | nil => exact List.forall_mem_nil _
  | blank _ _ ih => exact ih (List.forall_mem_cons.mp stand).2
  | plain lexed _ _ _ ih =>
    obtain ⟨here, later⟩ := List.forall_mem_cons.mp stand
    exact List.forall_mem_cons.mpr ⟨⟨here, _, _, lexed, rfl⟩, ih later⟩
  | includes lexed _ _ found inner _ ih =>
    obtain ⟨here, later⟩ := List.forall_mem_cons.mp stand
    refine List.forall_mem_cons.mpr ⟨⟨here, _, _, lexed, rfl⟩, ih ?_⟩
    refine List.forall_mem_append.mpr ⟨fun l mem => ?_, later⟩
    obtain ⟨d, listed, ls, own, split, mine, rfl⟩ := mem_linesOf inner mem
    exact ⟨d.content, .included found listed split mine⟩

/-! ### Ranges of statements -/

/-- The range goes from the start of the first token to the end of the last, around all others,
and is a piece of the text that lies in the line. -/
structure Covers (text : String) (l : Source.LogicalLine) (ts : Tokens) (span : Span) : Prop where
  first : ts.head?.map (·.span.start) = some span.start
  last : ts.getLast?.map (·.span.stop) = some span.stop
  around : ∀ t ∈ ts, span.start ≤ t.span.start ∧ t.span.stop ≤ span.stop
  lies : span.LiesIn text.toList
  starts : Source.StartsLine text.toList l.number l.offset
  within : l.offset ≤ span.start ∧ span.stop ≤ l.stop

/-- Tokens that stand one after the other are covered from the first to the last. -/
theorem spanFrom_of_ordered (ordered : ts.Pairwise Source.Precedes) (words : ts ≠ []) :
    ts.head?.map (·.span.start) = some (ts.spanFrom 0).start ∧
      ts.getLast?.map (·.span.stop) = some (ts.spanFrom 0).stop ∧
        ∀ t ∈ ts, (ts.spanFrom 0).start ≤ t.span.start ∧ t.span.stop ≤ (ts.spanFrom 0).stop := by
  cases ts with
  | nil => exact absurd rfl words
  | cons first rest =>
    obtain ⟨last, ends⟩ : ∃ last, (first :: rest).getLast? = some last :=
      ⟨_, List.getLast?_eq_some_getLast words⟩
    have whole := List.dropLast_append_getLast? last ends
    have before : ∀ t ∈ first :: rest, first.span.start ≤ t.span.start := by
      refine List.forall_mem_cons.mpr ⟨Nat.le_refl _, fun t mem => ?_⟩
      exact Nat.le_of_lt ((List.pairwise_cons.mp ordered).1 t mem).1
    have after : ∀ t ∈ first :: rest, t.span.stop ≤ last.span.stop := by
      rw [← whole] at ordered ⊢
      refine List.forall_mem_append.mpr ⟨fun t mem => ?_, List.forall_mem_singleton.mpr le_rfl⟩
      have precedes := (List.pairwise_append.mp ordered).2.2 t mem last List.mem_cons_self
      exact Nat.le_trans precedes.2 last.span.start_le_stop
    have mem_last : last ∈ first :: rest := List.mem_of_getLast? ends
    have range : Tokens.spanFrom (first :: rest) 0 = first.span.union last.span := by
      rw [Tokens.spanFrom, ends]
      rfl
    have start : (first.span.union last.span).start = first.span.start :=
      Nat.min_eq_left (before last mem_last)
    have stop : (first.span.union last.span).stop = last.span.stop :=
      Nat.max_eq_right (after first List.mem_cons_self)
    rw [range, start, stop, ends]
    exact ⟨rfl, rfl, fun t mem => ⟨before t mem, after t mem⟩⟩

/-- The tokens of a statement are those of its line, but for a brace at the end. -/
theorem sublist_ofTokens (ts : Tokens) : (Statement.ofTokens ts).tokens.Sublist ts := by
  unfold Statement.ofTokens
  split
  · exact List.dropLast_sublist ts
  · exact .refl ts

/-- The range of a statement with words covers its tokens. -/
theorem covers_of_stands (stands : StandsIn setting name source l text) {raw : Tokens}
    (lexed : lineTokens l.2 = .ok raw) {constants : Dictionary String}
    (own : ts = (Statement.ofTokens (substituteTokens constants raw)).tokens) (words : ts ≠ []) :
    Covers text l.2 ts (ts.spanFrom 0) := by
  obtain ⟨ls, split, mem⟩ := stands.splits
  have tokenized : Source.tokenize l.2.text l.2.offset = .ok raw := by
    unfold lineTokens at lexed
    split at lexed
    case h_1 tokenized => exact Except.ok.inj lexed ▸ tokenized
    case h_2 => cases lexed
  have places : l.2.Places text.toList := by
    have kept := Source.boundaries_kept text
    rw [split] at kept
    cases kept with
    | ok places => exact places l.2 mem
  obtain ⟨apart, placed⟩ := Source.isPlaced_of_tokenize (Source.isIn_of_mem split mem) tokenized
  -- constants change what tokens say, not where they stand
  have part : ts.Sublist (raw.map (substituteToken constants)) := own ▸ sublist_ofTokens _
  have ordered : ts.Pairwise Source.Precedes := .sublist part (List.pairwise_map.mpr apart)
  have from_raw : ∀ t ∈ ts, ∃ r ∈ raw, r.span = t.span := by
    intro t listed
    obtain ⟨r, drawn, rfl⟩ := List.mem_map.mp (part.subset listed)
    exact ⟨r, drawn, rfl⟩
  have bounded : ts.Bounded (Source.OnBoundary text.toList) := by
    have ranges := places.ranges
    rw [tokenized] at ranges
    cases ranges with
    | ok ends =>
      refine ⟨Source.onBoundary_zero _, fun t listed => ?_⟩
      obtain ⟨r, listed, same⟩ := from_raw t listed
      exact same ▸ ends r listed
  obtain ⟨first, last, around⟩ := spanFrom_of_ordered ordered words
  refine ⟨first, last, around, .of_ends (bounded.spanFrom 0), places.starts, ?_, ?_⟩
  · obtain ⟨t, head, start⟩ := Option.map_eq_some_iff.mp first
    obtain ⟨r, listed, same⟩ := from_raw t (List.mem_of_mem_head? head)
    rw [← start, ← same]
    exact (placed r listed).le_start
  · obtain ⟨t, tail, stop⟩ := Option.map_eq_some_iff.mp last
    obtain ⟨r, listed, same⟩ := from_raw t (List.mem_of_getLast? tail)
    rw [← stop, ← same]
    exact (placed r listed).stop_le

/-! ### Main theorem -/

/-- The diagnostic tells of a block that the line opened, and carries no line itself. -/
structure TellsUnclosed (d : Diagnostic) (e : ExecutedLine) : Prop where
  line : d.line = none
  labels : d.labels =
    [{ span := (Statement.ofTokens e.tokens).span, message := "opened here" }]
  message : ∃ block : Block,
    d.message = s!"the {block.name} block opened on line {e.place.2.number} is never closed" ∧
      ((Statement.ofTokens e.tokens).tokens = [] → ∃ key, block = .parallel key)

/-- At the end, the innermost block that is still open is told of. -/
theorem tellsUnclosed_of_checkAllClosed (before : s.Opened opened) :
    Yields s.checkAllClosed (fun _ => True) fun d =>
      ∃ e rest, opened = e :: rest ∧ TellsUnclosed d e := by
  unfold Session.checkAllClosed
  split
  case h_1 => exact .ok trivial
  case h_2 frame frames found =>
    rw [Session.Opened, found] at before
    cases before with
    | cons opens _ =>
      refine .error ⟨_, _, rfl, rfl, ?_, frame.block, ?_, opens.brace⟩
      · rw [← opens.span]
        rfl
      · rw [← opens.line]
        rfl

/-- Only at its end does a reading fail because of a block that is never closed. -/
theorem readSource_of_unclosed {failure : Failure} {d : Diagnostic}
    (failed : interpret setting s name source = .error failure)
    (ended : failure.diagnostics.head? = some d) (code : d.code = some .unclosedBlock) :
    ∃ p, readSource setting setting.resolver.limit [name] name source { session := s } = .ok p ∧
      p.session.checkAllClosed = .error d := by
  have ofLine : Yields (readSource setting setting.resolver.limit [name] name source
      { session := s }) (fun _ => True) Failure.OfLine := ofLine_readSource _ _ source
  unfold interpret at failed
  cases reading : readSource setting setting.resolver.limit [name] name source { session := s } with
  | error failure' =>
    -- no error of a line has the code
    rw [reading] at failed ofLine
    obtain rfl : failure' = failure := Except.error.inj failed
    cases ofLine with
    | error led =>
      have ofLine := led d ended
      rw [code] at ofLine
      cases ofLine
  | ok p =>
    rw [reading, ok_bind] at failed
    refine ⟨p, rfl, ?_⟩
    split at failed
    · cases failed
    case h_2 d' refused =>
      obtain rfl := Except.error.inj failed
      obtain rfl := Option.some.inj ended
      exact refused

/-- **A block that is never closed is told of where it was opened.**  Whenever a reading fails
with the error of a block that is never closed, the sources spell lines after which a block is
open, and the innermost of these is the one that the error tells of: by the number of the line
that opened it, and by the range of its statement in the text in which that line stands.  If
the statement has words, the range covers them and lies in that line; if it is a brace by
itself, which opens a parallel sequence, the range is the start of the text.  The error carries
no line, whichever text it is. -/
theorem unclosed_block_told (setting : Setting) {s : Session} (fresh : s.Fresh)
    (name : Option String) (source : String) {failure : Failure} {d : Diagnostic}
    (failed : interpret setting s name source = .error failure)
    (ended : failure.diagnostics.head? = some d) (code : d.code = some .unclosedBlock) :
    ∃ ls lines e rest text,
      Source.logicalLines source = .ok ls ∧ Unfolds setting (ls.map (name, ·)) {} lines ∧
      stillOpen lines = e :: rest ∧ TellsUnclosed d e ∧
      StandsIn setting name source e.place text ∧
      ((Statement.ofTokens e.tokens).tokens ≠ [] →
        Covers text e.place.2 (Statement.ofTokens e.tokens).tokens
          (Statement.ofTokens e.tokens).span) ∧
      ((Statement.ofTokens e.tokens).tokens = [] →
        (Statement.ofTokens e.tokens).span = .point 0) := by
  obtain ⟨p, reading, refused⟩ := readSource_of_unclosed failed ended code
  obtain ⟨ls, lines, split, recited⟩ := recites_readSource _ _ source p reading
  have unfolds := recited.unfolds [] [] (.nil _)
  rw [List.append_nil, List.append_nil, fresh.constants] at unfolds
  have none_yet : s.Opened [] := by
    rw [Session.Opened, fresh.frames]
    exact .nil
  -- the frames at the end are those of the lines whose blocks are still open
  have told := tellsUnclosed_of_checkAllClosed (recited.passes.leavesOpen none_yet)
  rw [refused] at told
  cases told with
  | error tells =>
    obtain ⟨e, rest, still, tells⟩ := tells
    have executed : e ∈ lines := by
      refine mem_of_mem_stillOpen ?_
      rw [stillOpen, still]
      exact List.mem_cons_self
    have roots : ∀ l ∈ ls.map (name, ·), ∃ text, StandsIn setting name source l text :=
      List.forall_mem_map.mpr fun l mem => ⟨source, .root split mem⟩
    obtain ⟨⟨text, stands⟩, raw, constants, lexed, own⟩ := unfolds.stands roots e executed
    refine ⟨ls, lines, e, rest, text, split, unfolds, still, tells, stands, fun words => ?_, ?_⟩
    · exact covers_of_stands stands lexed (by rw [own]) words
    · intro brace
      rw [Statement.span, brace]
      rfl

/-- A parallel sequence is opened in a dynamic view, and nothing is closed. -/
def parallelSource : String :=
  "workspace \x7b\n views \x7b\n  dynamic * \x7b\n   \x7b\n"

def modelRoot : String :=
  "workspace \x7b\n!include part\n"

def modelPart : Document where
  name := "part"
  content := "model \x7b\n"

/-- How a source that is not read is refused: the code, line, message and ranges of the error. -/
def refusal (available : List Document) (source : String) :
    Option (Option Code × Option SourceLine × String × List Span) :=
  match parse { resolver := .inMemory available } none source with
  | .ok _ => none
  | .error failure =>
    failure.diagnostics.head?.map fun d => (d.code, d.line, d.message, d.labels.map (·.span))

/-- The ranges are not those of the statements: the fourth line of the one source, a brace, does
not start before the offset 35; and in the other, which the error without a line is about,
other text is at the range of the statement that opened the model. -/
theorem unclosed_blocks_misplaced :
    refusal [] parallelSource = some (some .unclosedBlock, none,
        "the parallel sequence block opened on line 4 is never closed", [.point 0]) ∧
      Source.StartsLine parallelSource.toList 4 35 ∧
      refusal [modelPart] modelRoot = some (some .unclosedBlock, none,
        "the model block opened on line 1 is never closed", [.between 0 5]) ∧
      modelRoot.toList.take 5 = "works".toList := by
  have starts : Source.StartsLine parallelSource.toList 4 35 :=
    ⟨parallelSource.toList.take 35, parallelSource.toList.drop 35,
      (List.take_append_drop 35 _).symm, by decide +kernel, by decide +kernel⟩
  exact ⟨by decide +kernel, starts, by decide +kernel, by decide +kernel⟩

/-- The model is told of where it was opened, in the part. -/
theorem unclosed_of_modelPart :
    ∃ failure d, interpret { resolver := .inMemory [modelPart] } (.start {}) none modelRoot =
        .error failure ∧
      failure.diagnostics.head? = some d ∧ d.code = some .unclosedBlock ∧
      ∃ ls lines e rest text,
        Source.logicalLines modelRoot = .ok ls ∧
        Unfolds { resolver := .inMemory [modelPart] } (ls.map (none, ·)) {} lines ∧
        stillOpen lines = e :: rest ∧ TellsUnclosed d e ∧
        StandsIn { resolver := .inMemory [modelPart] } none modelRoot e.place text ∧
        ((Statement.ofTokens e.tokens).tokens ≠ [] →
          Covers text e.place.2 (Statement.ofTokens e.tokens).tokens
            (Statement.ofTokens e.tokens).span) ∧
        ((Statement.ofTokens e.tokens).tokens = [] →
          (Statement.ofTokens e.tokens).span = .point 0) := by
  have refused : (refusal [modelPart] modelRoot).map Prod.fst = some (some .unclosedBlock) := by
    decide +kernel
  unfold refusal at refused
  split at refused
  case h_1 => cases refused
  case h_2 failure failed =>
    obtain ⟨answer, found, code⟩ := Option.map_eq_some_iff.mp refused
    obtain ⟨d, ended, rfl⟩ := Option.map_eq_some_iff.mp found
    have fresh := (Session.Prepared.start {}).fresh
    exact ⟨failure, d, failed, ended, code,
      unclosed_block_told { resolver := .inMemory [modelPart] } fresh none modelRoot failed ended
        code⟩

end Language

end Edifice
