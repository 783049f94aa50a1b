import Edifice.Diagnostic.Failure
import Edifice.Language.Directives
import Edifice.Language.Execution
import Edifice.Source.Lexer

/-!
Reading a source into a workspace.

A source is read line by line: each line is split into tokens, has its constants put in,
and is executed.  Warnings are kept while the reading goes on; the first error ends it.
An included source is read in the place of its directive.  No source includes itself, also
not through others, so includes are nested no deeper than there are names of sources.
-/

namespace Edifice.Language

/-- How far a reading has come. -/
structure Progress where
  session : Session
  /-- The warnings so far. -/
  warnings : List Diagnostic := []
deriving DecidableEq, Repr

namespace Progress

/-- The failure of the reading with an error. -/
def failure (p : Progress) (d : Diagnostic) : Failure :=
  ⟨d :: p.warnings⟩

/-- What was computed, or the failure of the reading with the error raised on a line. -/
def check {α : Type} (p : Progress) (line : SourceLine) (answer : Except Diagnostic α) :
    Except Failure α :=
  match answer with
  | .ok a => .ok a
  | .error d => .error (p.failure (d.withLine line))

/-- Keeps a warning about a line, or fails with it where warnings count as errors. -/
def warn (strict : Bool) (line : SourceLine) (p : Progress) (d : Diagnostic) :
    Except Failure Progress :=
  let d := d.withLine line
  if strict then .error (p.failure d.asError) else .ok { p with warnings := p.warnings ++ [d] }

/-- Keeps warnings about a line one after the other. -/
def warnAll (strict : Bool) (line : SourceLine) (p : Progress) (ds : List Diagnostic) :
    Except Failure Progress :=
  ds.foldlM (warn strict line) p

end Progress

/-! ### Lines -/

def unterminatedString (span : Span) : Diagnostic :=
  (Diagnostic.error .unterminatedString "unterminated string" span
    Code.unterminatedString.description).withHelp "add the closing quote"

def afterWorkspace (ts : Tokens) : Diagnostic :=
  .error .unexpectedClosing "unexpected content after the workspace block" (ts.spanFrom 0)
    "outside the workspace"

def lineTokens (l : Source.LogicalLine) : Except Diagnostic Tokens :=
  match Source.tokenize l.text l.offset with
  | .ok ts => .ok ts
  | .error span => .error (unterminatedString span)

def closesBlock (ts : Tokens) : Bool :=
  ts.length == 1 && ts.isAt 0 blockEnd

/-- Reads the tokens of a line, in which constants have been put in. -/
def readTokens (setting : Setting) (file : Option String) (l : Source.LogicalLine)
    (line : SourceLine) (ts : Tokens) (p : Progress) :
    Except Failure (Progress × Option Inclusion) := do
  let s := p.session
  if s.closed then throw (p.failure ((afterWorkspace ts).withLine line))
  if closesBlock ts then
    let session ← p.check line (s.closeBlock ts)
    return ({ p with session }, none)
  else if isDirective ts then
    let (session, inclusion) ← p.check line (executeDirective setting s ts file)
    return ({ p with session }, inclusion)
  else
    let st := Statement.ofTokens ts
    let p ← p.warnAll setting.options.warningsAsErrors line (advice s.frames.block? st.tokens)
    let session ← p.check line (runStatement setting.colors s st l.number)
    return ({ p with session }, none)

def sourceLine (file : Option String) (l : Source.LogicalLine) : SourceLine :=
  { file, number := l.number, offset := l.offset, content := String.ofList l.text }

/-- Reads one line, and answers what it includes. -/
def readLine (setting : Setting) (file : Option String) (l : Source.LogicalLine)
    (p : Progress) : Except Failure (Progress × Option Inclusion) := do
  let line := sourceLine file l
  let raw ← p.check line (lineTokens l)
  if raw.isEmpty then return (p, none)
  let constants := p.session.constants
  let p ← p.warnAll setting.options.warningsAsErrors line (constantAdvice constants raw)
  readTokens setting file l line (substituteTokens constants raw) p

/-! ### Sources -/

/-- Reads an included source: where the line includes it, which source it is, and how far
the reading has come. -/
abbrev Includer := SourceLine → Span → Document → Progress → Except Failure Progress

/-- Reads lines one after the other, and in the place of each what it includes. -/
def readLines (setting : Setting) (file : Option String) (includer : Includer) :
    List Source.LogicalLine → Progress → Except Failure Progress
  | [], p => .ok p
  | l :: rest, p => do
    let (p, inclusion) ← readLine setting file l p
    let p ← match inclusion with
      | none => pure p
      | some i => i.sources.foldlM (fun p d => includer (sourceLine file l) i.span d p) p
    readLines setting file includer rest p

/-- The error of a comment without end, from the line that opened it. -/
def unterminatedComment (file : Option String) (opened : Source.PhysicalLine) : Diagnostic :=
  let content := opened.content
  let stop := opened.offset + Source.byteCount content
  ((Diagnostic.error .unterminatedComment "unterminated block comment"
    (.between opened.offset stop) "comment opened here").withHelp
    "close the comment with `*/` at the end of a line").withLine
    { file, number := opened.number, offset := opened.offset, content := String.ofList content }

def readContent (setting : Setting) (file : Option String) (includer : Includer)
    (content : String) (p : Progress) : Except Failure Progress :=
  match Source.logicalLines content with
  | .ok lines => readLines setting file includer lines p
  | .error opened => .error (p.failure (unterminatedComment file opened))

/-- The failure of a source that is included while it is read. -/
def includeCycle (line : SourceLine) (span : Span) (d : Document) (p : Progress) : Failure :=
  let name := d.name
  let message := s!"`{name}` is already being interpreted, includes cannot be cyclic"
  p.failure ((Diagnostic.error .includeRefused message span "include cycle").withLine line)

/-- Reads a source while the sources `opened` are being read, itself among them.  Includes
may be nested `depth` deeper; with a depth of as many names as sources can have, a source
below that is one of `opened`. -/
def readSource (setting : Setting) :
    (depth : Nat) → (opened : List (Option String)) → (file : Option String) →
      (content : String) → Progress → Except Failure Progress
  | 0, _, file => readContent setting file fun line span d p =>
      .error (includeCycle line span d p)
  | depth + 1, opened, file => readContent setting file fun line span d p =>
      if opened.contains (some d.name) then .error (includeCycle line span d p)
      else readSource setting depth (some d.name :: opened) (some d.name) d.content p

/-! ### Workspaces -/

/-- A workspace that was read, and the warnings about its source. -/
structure Parsed where
  workspace : Workspace
  warnings : List Diagnostic := []
deriving DecidableEq, Repr

namespace Session

/-- The session on top of a workspace under construction. -/
def ofBuilder (builder : Builder) (options : Options) : Session :=
  { builder, registry := { mode := options.identifiers } }

def start (options : Options) : Session :=
  .ofBuilder (({} : Builder).setImpliedRelationships options.impliedRelationships) options

/-- Binds a name to an element that was there before the source. -/
def bindExternal (s : Session) (name : String) (id : ElementId) :
    Except Diagnostic Session := do
  let _ ← s.element id (.point 0)
  match s.registry.registerExternal name (.element id) with
  | .ok registry => return { s with registry }
  | .error e => throw (e.diagnostic (.point 0))

end Session

/-- Reads a source, known by `name` if it has one, on top of a session. -/
def interpret (setting : Setting) (s : Session) (name : Option String) (source : String) :
    Except Failure Parsed := do
  let p ← readSource setting setting.resolver.limit [name] name source { session := s }
  match p.session.checkAllClosed with
  | .ok () => return { workspace := p.session.builder.finish, warnings := p.warnings }
  | .error d => throw (p.failure d)

/-- Reads a source into a workspace. -/
def parse (setting : Setting) (name : Option String) (source : String) :
    Except Failure Parsed :=
  interpret setting (.start setting.options) name source

end Edifice.Language
