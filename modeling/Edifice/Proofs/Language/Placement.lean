import Edifice.Proofs.Language.Labels
import Edifice.Proofs.Language.Lines

/-!
Where diagnostics point.

A diagnostic that carries a line points into the text of the file that the line names
(`Diagnostic.Placed`).  Its labels are made of ranges in the line that was being read, and the
line is attached by the source that it stands in, before the failure leaves that source for
the one that includes it.  A name stands for one text throughout a reading: the source that
is read first is being read until the end, so no source that has its name is included
(`diagnostics_placed`).
-/

namespace Edifice

open Check

/-! ### Places in a text -/

/-- The range is a piece of the text. -/
structure Span.LiesIn (span : Span) (text : List Char) : Prop where
  ordered : span.start ≤ span.stop
  within : span.stop ≤ Source.byteCount text
  start : Source.OnBoundary text span.start
  stop : Source.OnBoundary text span.stop

def SourceLine.range (line : SourceLine) : Span :=
  .between line.offset (line.offset + Source.byteCount line.content.toList)

/-- The line is in the text where it says, after as many line breaks as its number counts. -/
structure SourceLine.LiesIn (line : SourceLine) (text : List Char) : Prop where
  range : line.range.LiesIn text
  starts : Source.StartsLine text line.number line.offset

/-- If the diagnostic carries a line, it points into the text of the file that the line names. -/
def Diagnostic.Placed (texts : Option String → Option String) (d : Diagnostic) : Prop :=
  ∀ line ∈ d.line, ∃ text, texts line.file = some text ∧ line.LiesIn text.toList ∧
    ∀ label ∈ d.labels, label.span.LiesIn text.toList

/-- All diagnostics of the failure point into the right text. -/
def Failure.Placed (texts : Option String → Option String) (f : Failure) : Prop :=
  ∀ d ∈ f.diagnostics, d.Placed texts

theorem Diagnostic.Placed.asError {texts : Option String → Option String} {d : Diagnostic}
    (placed : d.Placed texts) : d.asError.Placed texts :=
  placed

theorem Span.LiesIn.of_ends {span : Span} {text : List Char}
    (ends : span.Ends (Source.OnBoundary text)) : span.LiesIn text :=
  ⟨span.start_le_stop, ends.stop.le, ends.start, ends.stop⟩

/-- A line lies in the text if it starts where one does and stops between two characters. -/
theorem SourceLine.LiesIn.of_starts {line : SourceLine} {text : List Char}
    (starts : Source.StartsLine text line.number line.offset)
    (stop : Source.OnBoundary text (line.offset + Source.byteCount line.content.toList)) :
    line.LiesIn text :=
  ⟨.of_ends (.between starts.onBoundary stop (Nat.le_add_right _ _)), starts⟩

theorem Check.Yields.and {ε α : Type} {x : Except ε α} {P P' : α → Prop} {Q : ε → Prop}
    (yields : Yields x P Q) (gives : Gives x P') : Yields x (fun a => P a ∧ P' a) Q := by
  cases yields with
  | ok holds => exact .ok ⟨holds, gives _ rfl⟩
  | error holds => exact .error holds

namespace Language

variable {texts : Option String → Option String} {text : String} {setting : Setting}
  {p : Progress} {line : SourceLine} {file : Option String}

/-! ### Diagnostics of a line -/

/-- The line is read from the text, which is that of the file it names. -/
structure Belongs (texts : Option String → Option String) (line : SourceLine) (text : String) :
    Prop where
  own : texts line.file = some text
  lies : line.LiesIn text.toList

/-- A diagnostic that marks the text of its line is placed once it carries the line. -/
theorem Belongs.placed (belongs : Belongs texts line text) {d : Diagnostic}
    (marks : d.Marks (Source.OnBoundary text.toList)) : (d.withLine line).Placed texts := by
  intro line' attached
  rw [Diagnostic.withLine, marks.line, Option.none_or] at attached
  obtain rfl := Option.some.inj attached
  exact ⟨text, belongs.own, belongs.lies, fun label mem => .of_ends (marks.labels label mem)⟩

def Progress.Placed (texts : Option String → Option String) (p : Progress) : Prop :=
  ∀ d ∈ p.warnings, d.Placed texts

theorem Progress.Placed.failure (placed : p.Placed texts) {d : Diagnostic}
    (error : d.Placed texts) : (p.failure d).Placed texts :=
  List.forall_mem_cons.mpr ⟨error, placed⟩

/-- What a line is refused with ends the reading in a failure that is placed. -/
theorem Progress.Placed.check (placed : p.Placed texts) (belongs : Belongs texts line text)
    {α : Type} {answer : Except Diagnostic α} {P : α → Prop}
    (yields : Yields answer P (Diagnostic.Marks (Source.OnBoundary text.toList))) :
    Yields (p.check line answer) P (Failure.Placed texts) := by
  cases yields with
  | ok holds => exact .ok holds
  | error marks => exact .error (placed.failure (belongs.placed marks))

/-- Warnings that mark a line of a text point into that text, whether or not they end the
reading. -/
theorem Progress.Placed.warnAll (placed : p.Placed texts) (belongs : Belongs texts line text)
    (strict : Bool) {ds : List Diagnostic}
    (marks : ∀ d ∈ ds, d.Marks (Source.OnBoundary text.toList)) :
    Yields (p.warnAll strict line ds) (Progress.Placed texts) (Failure.Placed texts) := by
  refine .foldlM (fun d listed p placed => .ite (fun _ => .error ?_) fun _ => .ok ?_) placed
  · exact placed.failure (belongs.placed (marks d listed)).asError
  · exact List.forall_mem_append.mpr
      ⟨placed, List.forall_mem_singleton.mpr (belongs.placed (marks d listed))⟩

/-- What reading a line leads to: diagnostics that point into the right texts, and an include
that points into the text of the line. -/
def ReadsPlaced (texts : Option String → Option String) (text : String)
    (answer : Progress × Option Inclusion) : Prop :=
  answer.1.Placed texts ∧ ∀ i ∈ answer.2, i.span.Ends (Source.OnBoundary text.toList)

theorem Progress.Placed.reads (placed : p.Placed texts) : ReadsPlaced texts text (p, none) := by
  refine ⟨placed, ?_⟩
  rintro i ⟨⟩

/-- What a line of tokens is refused with, warns of or includes is marked in its own text. -/
theorem placed_readTokens (placed : p.Placed texts) (belongs : Belongs texts line text)
    (l : Source.LogicalLine) {ts : Tokens}
    (bounded : ts.Bounded (Source.OnBoundary text.toList)) :
    Yields (readTokens setting file l line ts p) (ReadsPlaced texts text)
      (Failure.Placed texts) := by
  unfold readTokens
  refine .unless (fun _ => placed.failure (belongs.placed (.error (bounded.spanFrom 0) rfl))) ?_
  intro _
  refine .ite (fun _ => ?_) fun _ => .ite (fun _ => ?_) fun _ => ?_
  · exact .after (placed.check belongs (marking_closeBlock bounded)) fun _ => .ok placed.reads
  · exact .bind (placed.check belongs (ends_executeDirective bounded)) fun _ ends =>
      .ok ⟨placed, ends⟩
  · have stated := bounded_ofTokens bounded
    refine .bind (placed.warnAll belongs _ (marks_of_advice stated _)) fun p₁ placed₁ => ?_
    exact .after (placed₁.check belongs (marking_runStatement stated l.number)) fun _ =>
      .ok placed₁.reads

theorem belongs_sourceLine (own : texts file = some text) {l : Source.LogicalLine}
    (places : l.Places text.toList) : Belongs texts (sourceLine file l) text := by
  refine ⟨own, .of_starts places.starts ?_⟩
  dsimp only [sourceLine]
  rw [String.toList_ofList]
  exact places.stop

/-- A line that is in the text where it says is read with diagnostics there. -/
theorem placed_readLine (placed : p.Placed texts) (own : texts file = some text)
    {l : Source.LogicalLine} (places : l.Places text.toList) :
    Yields (readLine setting file l p) (ReadsPlaced texts text) (Failure.Placed texts) := by
  have belongs := belongs_sourceLine own places
  have lexed : Yields (lineTokens l) (Tokens.Bounded (Source.OnBoundary text.toList))
      (Diagnostic.Marks (Source.OnBoundary text.toList)) := by
    have ranges := places.ranges
    unfold lineTokens
    cases split : Source.tokenize l.text l.offset with
    | ok ts =>
      rw [split] at ranges
      cases ranges with
      | ok tokens => exact .ok ⟨Source.onBoundary_zero _, tokens⟩
    | error span =>
      rw [split] at ranges
      cases ranges with
      | error ends => exact .error (.withHelp (.error ends rfl) _)
  unfold readLine
  refine .bind (placed.check belongs lexed) fun raw bounded => ?_
  refine .ite (fun _ => .ok placed.reads) fun _ => ?_
  refine .bind (placed.warnAll belongs _ (marks_of_constantAdvice bounded _)) fun p₁ placed₁ => ?_
  exact placed_readTokens placed₁ belongs l (bounded_substituteTokens _ bounded)

/-! ### Sources -/

/-- Documents with the property, included from a range of a line, are read with diagnostics
that point into the right texts. -/
def Includer.Places (texts : Option String → Option String) (P : Document → Prop)
    (includer : Includer) : Prop :=
  ∀ line span d (p : Progress) text, P d → p.Placed texts → Belongs texts line text →
    span.Ends (Source.OnBoundary text.toList) →
      Yields (includer line span d p) (Progress.Placed texts) (Failure.Placed texts)

variable {P : Document → Prop} {includer : Includer}

/-- Each line is read in its own text, and each include in those of its sources. -/
theorem placed_readLines (given : setting.resolver.Gives P) (includes : includer.Places texts P)
    (placed : p.Placed texts) (own : texts file = some text) {ls : List Source.LogicalLine}
    (places : ∀ l ∈ ls, l.Places text.toList) :
    Yields (readLines setting file includer ls p) (Progress.Placed texts)
      (Failure.Placed texts) := by
  induction ls generalizing p with
  | nil => exact .ok placed
  | cons l rest ih =>
    obtain ⟨here, later⟩ := List.forall_mem_cons.mp places
    refine .bind ((placed_readLine placed own here).and (sources_readLine given l)) ?_
    rintro ⟨p₁, inclusion⟩ ⟨⟨placed₁, ends⟩, sources⟩
    cases inclusion with
    | none => exact ih placed₁ later
    | some i =>
      have belongs := belongs_sourceLine own here
      refine .bind (.foldlM (fun d listed p placed => ?_) placed₁) fun _ placed => ih placed later
      exact includes _ _ d p text (sources i rfl d listed) placed belongs (ends i rfl)

/-- A comment without an end is reported on the line that opens it. -/
theorem placed_unterminatedComment (own : texts file = some text)
    {opened : Source.PhysicalLine} (stands : opened.StandsIn text.toList) :
    (unterminatedComment file opened).Placed texts := by
  have stop := stands.onBoundary
  have line : SourceLine.LiesIn
      { file, number := opened.number, offset := opened.offset,
        content := String.ofList opened.content } text.toList := by
    refine .of_starts stands.startsLine ?_
    rw [String.toList_ofList]
    exact stop
  exact Belongs.placed ⟨own, line⟩
    (.withHelp (.error (.between stands.startsLine.onBoundary stop (Nat.le_add_right _ _)) rfl) _)

/-- The lines that a source is cut into are in it where they say. -/
theorem placed_readContent (given : setting.resolver.Gives P) (includes : includer.Places texts P)
    (placed : p.Placed texts) {content : String} (own : texts file = some content) :
    Yields (readContent setting file includer content p) (Progress.Placed texts)
      (Failure.Placed texts) := by
  have kept := Source.boundaries_kept content
  unfold readContent
  cases split : Source.logicalLines content with
  | ok ls =>
    rw [split] at kept
    cases kept with
    | ok places => exact placed_readLines given includes placed own places
  | error opened =>
    rw [split] at kept
    cases kept with
    | error stands => exact .error (placed.failure (placed_unterminatedComment own stands))

/-- Whatever sources are being read besides the first one, the others are known to the
reading as the resolver knows them. -/
theorem placed_readSource {name : Option String} (given : setting.resolver.Gives P)
    (others : ∀ d, P d → some d.name ≠ name → texts (some d.name) = some d.content)
    (depth : Nat) {opened : List (Option String)} (root : name ∈ opened)
    (placed : p.Placed texts) {content : String} (own : texts file = some content) :
    Yields (readSource setting depth opened file content p) (Progress.Placed texts)
      (Failure.Placed texts) := by
  have cycle : ∀ {line span} (d : Document) {p : Progress} {text : String}, p.Placed texts →
      Belongs texts line text → span.Ends (Source.OnBoundary text.toList) →
        (includeCycle line span d p).Placed texts := fun _ _ _ placed belongs ends =>
    placed.failure (belongs.placed (.error ends rfl))
  induction depth generalizing opened file content p with
  | zero =>
    refine placed_readContent given ?_ placed own
    exact fun line span d p text _ placed belongs ends => .error (cycle d placed belongs ends)
  | succ depth ih =>
    refine placed_readContent given ?_ placed own
    intro line span d p text known placed belongs ends
    refine .ite (fun _ => .error (cycle d placed belongs ends)) fun acyclic => ?_
    refine ih (List.mem_cons_of_mem _ root) placed (others d known fun same => acyclic ?_)
    rw [same, List.contains_iff_mem]
    exact root

/-! ### Every diagnostic -/

/-- The text of the file that a line names: the source that is read, under its own name, and
otherwise the first source at hand with the name. -/
def textOf (available : List Document) (name : Option String) (source : String)
    (file : Option String) : Option String :=
  if file = name then some source
  else file.bind fun n => (available.find? fun d => d.name == n).map (·.content)

/-- **Diagnostics point into the right text.**  Every diagnostic of a reading, the error that
ends it or a warning, that carries a line has the line in the text of the file that the line
names, at its offset and after as many line breaks as its number counts; and its labels are
pieces of the same text. -/
theorem diagnostics_placed (options : Options) (available : List Document)
    (colors : ColorReader) (s : Session) (name : Option String) (source : String) :
    (∀ failure, interpret { options, resolver := .inMemory available, colors } s name source =
      .error failure → ∀ d ∈ failure.diagnostics, d.Placed (textOf available name source)) ∧
    ∀ parsed, interpret { options, resolver := .inMemory available, colors } s name source =
      .ok parsed → ∀ d ∈ parsed.warnings, d.Placed (textOf available name source) := by
  have others : ∀ d, available.find? (fun e => e.name == d.name) = some d → some d.name ≠ name →
      textOf available name source (some d.name) = some d.content := by
    intro d known other
    rw [textOf, if_neg other, Option.bind_some, known]
    rfl
  have read : Yields (readSource { options, resolver := .inMemory available, colors }
      available.length [name] name source { session := s }) (Progress.Placed (textOf available name source))
      (Failure.Placed (textOf available name source)) := by
    have none_yet : Progress.Placed (textOf available name source) { session := s } :=
      List.forall_mem_nil _
    exact placed_readSource (Resolver.gives_inMemory available) others _
      (List.mem_singleton_self name) none_yet (if_pos rfl)
  have yields : Yields (interpret { options, resolver := .inMemory available, colors } s name source)
      (fun parsed => ∀ d ∈ parsed.warnings, d.Placed (textOf available name source))
      (Failure.Placed (textOf available name source)) := by
    refine .bind read fun p placed => ?_
    -- the error of a block that is never closed carries no line
    have unclosed : ∀ d, p.session.checkAllClosed = .error d →
        d.Placed (textOf available name source) := by
      intro d refused line attached
      unfold Session.checkAllClosed at refused
      split at refused
      · cases refused
      · obtain rfl := Except.error.inj refused
        cases attached
    split
    · exact .ok placed
    case h_2 d refused => exact .error (placed.failure (unclosed d refused))
  constructor
  · intro failure failed
    rw [failed] at yields
    cases yields with
    | error placed => exact placed
  · intro parsed read
    rw [read] at yields
    cases yields with
    | ok placed => exact placed

/-- A part that refers to a component which is not there, on a continued line. -/
def faultyPart : Document where
  name := "part"
  content := "/* Zoë's\n part */\n  zoë -> \\\n    checkout\n"

/-- A root that includes the part, with a warning about a constant on the line before. -/
def faultyRoot : String :=
  "workspace \x7b\n model \x7b\n  zoë = person \"Zoë $\x7bwho\x7d\"\n  !include part\n"

/-- The error points into the part, the warning into the root. -/
theorem diagnostics_of_faultyPart :
    ∃ failure, interpret { options := {}, resolver := .inMemory [faultyPart] } (.start {}) none
        faultyRoot = .error failure ∧
      failure.diagnostics.map (fun d => d.line.map (·.file)) = [some (some "part"), some none] ∧
        ∀ d ∈ failure.diagnostics, d.Placed (textOf [faultyPart] none faultyRoot) := by
  have files : (match interpret { options := {}, resolver := .inMemory [faultyPart] } (.start {})
      none faultyRoot with
      | .error failure => failure.diagnostics.map fun d => d.line.map (·.file)
      | .ok _ => []) = [some (some "part"), some none] := by decide +kernel
  have placed := (diagnostics_placed {} [faultyPart] Color.css (.start {}) none faultyRoot).1
  cases answer : interpret { options := {}, resolver := .inMemory [faultyPart] } (.start {}) none
      faultyRoot with
  | ok parsed =>
    rw [answer] at files
    cases files
  | error failure =>
    rw [answer] at files
    exact ⟨failure, rfl, files, placed failure answer⟩

end Language

end Edifice
