import Edifice.Diagnostic.Code
import Edifice.Source.Span
import Edifice.Text.Blank

/-!
Diagnostics: what is wrong with a source, and where.

A diagnostic carries a code, labelled ranges, advice and the logical line it was raised
on.  The line is attached once: a line attached later does not replace it (`withLine`).
-/

namespace Edifice

/-- Whether a diagnostic ends the reading of a source. -/
inductive Severity where
  | error
  | warning
deriving DecidableEq, Repr

def Severity.toString : Severity → String
  | .error => "error"
  | .warning => "warning"

/-- A range of the source with a remark. -/
structure Label where
  span : Span
  message : String
  /-- The primary label marks what is at fault, the others what is related to it. -/
  isPrimary : Bool := true
deriving DecidableEq, Repr

/-- The logical line that a diagnostic was raised on. -/
structure SourceLine where
  /-- The included source that the line is from; the root source when absent. -/
  file : Option String := none
  /-- The number of the first physical line, counted from 1. -/
  number : Nat
  /-- Where the line starts, in bytes. -/
  offset : Nat
  content : String
deriving DecidableEq, Repr

/-- The line as it is shown after a message. -/
def SourceLine.display (l : SourceLine) : String :=
  let number := l.number
  let content := Text.trim l.content
  match l.file with
  | some file => s!" ({file} line {number}: {content})"
  | none => s!" (line {number}: {content})"

/-- Something wrong with a source. -/
structure Diagnostic where
  severity : Severity := .error
  code : Option Code := none
  message : String
  labels : List Label := []
  help : Option String := none
  line : Option SourceLine := none
deriving DecidableEq, Repr

namespace Diagnostic

def error (code : Code) (message : String) (span : Span) (label : String) : Diagnostic :=
  { code := some code, message, labels := [{ span, message := label }] }

def warning (code : Code) (message : String) (span : Span) (label : String) : Diagnostic :=
  { severity := .warning, code := some code, message, labels := [{ span, message := label }] }

def withHelp (d : Diagnostic) (help : String) : Diagnostic :=
  { d with help := some help }

/-- The diagnostic with its line, unless it has one already. -/
def withLine (d : Diagnostic) (line : SourceLine) : Diagnostic :=
  { d with line := d.line.or (some line) }

def asError (d : Diagnostic) : Diagnostic :=
  { d with severity := .error }

def kind (d : Diagnostic) : Option ProblemKind :=
  d.code.map Code.kind

/-- The diagnostic in one line, such as
`error[E200]: the element does not exist (line 3: a -> b)`. -/
def display (d : Diagnostic) : String :=
  let code := match d.code with
    | some code => "[" ++ code.toString ++ "]"
    | none => ""
  let line := match d.line with
    | some line => line.display
    | none => ""
  d.severity.toString ++ code ++ ": " ++ d.message ++ line

end Diagnostic

end Edifice
