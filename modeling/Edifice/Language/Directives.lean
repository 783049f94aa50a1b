import Edifice.Builder.Decisions
import Edifice.Decision.Record
import Edifice.Language.Advice
import Edifice.Language.Session
import Edifice.Resolver

/-!
Directives: the lines that start with an exclamation mark.

A directive sets how the lines after it are read or brings in what stands elsewhere.  In
restricted mode nothing is brought in.  The sources of an include are not read here: the
directive answers them, and they are read in its place.
-/

namespace Edifice.Language

/-- How a source is to be read. -/
structure Options where
  /-- The identifier mode until the source chooses one. -/
  identifiers : IdentifierMode := .flat
  /-- Whether relationships imply others until the source says. -/
  impliedRelationships : Bool := true
  /-- Whether the source is kept from bringing in what stands elsewhere. -/
  restricted : Bool := false
  /-- Whether a warning ends the reading as an error does. -/
  warningsAsErrors : Bool := false
deriving DecidableEq, Repr

/-- What a reading is given besides the source. -/
structure Setting where
  options : Options := {}
  resolver : Resolver := .empty
  /-- Says what the colours of styles mean. -/
  colors : ColorReader := Color.css

/-- The sources that an include brings in, and where it names them. -/
structure Inclusion where
  sources : List Document
  span : Span
deriving DecidableEq, Repr

def recordExtension : String := "md"

def requireWorkspaceOrModel (s : Session) (ts : Tokens) : Except Diagnostic Unit :=
  match s.frames.block? with
  | some .workspace | some .model => .ok ()
  | block => .error (unexpectedStatement { tokens := ts, opensBlock := false } block)

def executeConstant (s : Session) (ts : Tokens) : Except Diagnostic Session := do
  checkTokens ts 2 2 "!const <name> <value>"
  let name := ts.text 1
  if !Identifier.isValid name then
    throw (invalidValue ts 1 s!"`{name}` is not a valid constant name")
  return { s with constants := s.constants.insert name (ts.text 2) }

/-- Chooses the identifier mode. -/
def executeIdentifiers (s : Session) (ts : Tokens) : Except Diagnostic Session := do
  checkTokens ts 1 1 "!identifiers <flat|hierarchical>"
  requireWorkspaceOrModel s ts
  let mode ← readWord ts 1 IdentifierMode.parse
  match s.registry.setMode? mode with
  | some registry => return { s with registry }
  | none =>
    throw (invalidValue ts 1
      "the identifier mode cannot change once identifiers have been declared")

def executeImplied (s : Session) (ts : Tokens) : Except Diagnostic Session := do
  checkTokens ts 1 1 "!impliedRelationships <true|false>"
  requireWorkspaceOrModel s ts
  let enabled ← readBool ts 1
  return s.withBuilder (s.builder.setImpliedRelationships enabled)

/-- The error of a directive that restricted mode refuses. -/
def refusedDirective (ts : Tokens) (what : String) : Diagnostic :=
  let directive := ts.text 0
  .error .includeRefused s!"{directive} is not permitted in restricted mode" (ts.spanFrom 0)
    s!"{what} not permitted"

/-- What a resolver answers for the path at index 1. -/
def resolved {α : Type} (ts : Tokens) (answer : Except String α) : Except Diagnostic α :=
  match answer with
  | .ok a => .ok a
  | .error message => .error (.error .unreadableInclude message (ts.span 1) "cannot be read")

/-- The element whose decisions a directive imports, which is that of the innermost block;
none in the workspace block. -/
def decisionScope (s : Session) (ts : Tokens) : Except Diagnostic (Option ElementId) :=
  match s.frames.block? with
  | some .workspace => .ok none
  | some (.element id) => .ok (some id)
  | block => .error (unexpectedStatement { tokens := ts, opensBlock := false } block)

def readRecord (ts : Tokens) (d : Document) : Except Diagnostic Decision :=
  match Record.read d.name d.content with
  | .ok decision => .ok decision
  | .error e =>
    .error (.error .invalidDecision e.message (ts.span 1) Code.invalidDecision.description)

/-- Imports the decision records of a directory. -/
def executeDecisions (setting : Setting) (s : Session) (ts : Tokens) (file : Option String) :
    Except Diagnostic Session := do
  checkTokens ts 1 1 "!adrs <directory>"
  let element ← decisionScope s ts
  if setting.options.restricted then throw (refusedDirective ts "import")
  let documents ← resolved ts (setting.resolver.documents (ts.text 1) file recordExtension)
  let decisions ← documents.mapM (readRecord ts)
  s.build (ts.spanFrom 0) (Builder.addDecisions element decisions)

/-- The sources that an include brings in. -/
def executeInclude (setting : Setting) (ts : Tokens) (file : Option String) :
    Except Diagnostic Inclusion := do
  checkTokens ts 1 1 "!include <file|directory>"
  if setting.options.restricted then throw (refusedDirective ts "include")
  let sources ← resolved ts (setting.resolver.sources (ts.text 1) file)
  return { sources, span := ts.span 1 }

def unknownDirective (ts : Tokens) : Diagnostic :=
  let directive := ts.text 0
  (Diagnostic.error .unexpectedStatement s!"unknown directive `{directive}`" (ts.span 0)
    "not recognised").withHelp
    "supported directives are !const, !include, !adrs, !identifiers and !impliedRelationships"

/-- Executes a directive of the source `file`. -/
def executeDirective (setting : Setting) (s : Session) (ts : Tokens) (file : Option String) :
    Except Diagnostic (Session × Option Inclusion) := do
  match ts.text 0 with
  | "!const" | "!constant" => return (← executeConstant s ts, none)
  | "!include" => return (s, some (← executeInclude setting ts file))
  | "!adrs" => return (← executeDecisions setting s ts file, none)
  | "!identifiers" => return (← executeIdentifiers s ts, none)
  | "!impliedRelationships" => return (← executeImplied s ts, none)
  | _ => throw (unknownDirective ts)

def isDirective (ts : Tokens) : Bool :=
  ts.head?.any fun t => !t.quoted && Text.startsWith "!" t.text

end Edifice.Language
