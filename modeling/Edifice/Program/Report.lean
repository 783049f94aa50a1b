import Edifice.Program.Loader

/-!
Reports: what is shown about why a workspace could not be loaded.

A diagnostic is shown with the part of the source that it labels.  That source is the
root source; a diagnostic about an included source is shown without it and names the
included source instead.
-/

namespace Edifice

/-- A labelled part of the source in a report. -/
structure ReportLabel where
  message : String
  offset : Nat
  length : Nat
  isPrimary : Bool
deriving DecidableEq, Repr

/-- What is shown about one problem. -/
structure Report where
  display : String
  code : Option String := none
  /-- The severity of a diagnostic; absent when the problem is none of the source. -/
  severity : Option Severity := none
  help : Option String := none
  /-- The source to show the labels in. -/
  source : Option String := none
  labels : List ReportLabel := []
deriving DecidableEq, Repr

namespace Report

def ofLabel (l : Label) : ReportLabel :=
  { message := l.message, offset := l.span.start, length := l.span.length,
    isPrimary := l.isPrimary }

/-- Whether a diagnostic is about the root source. -/
def isAboutRoot (root : Option String) (d : Diagnostic) : Bool :=
  match d.line.bind (·.file) with
  | some file => root == some file
  | none => true

/-- The message of a diagnostic about an included source. -/
def awayMessage (d : Diagnostic) : String :=
  match d.line with
  | some line =>
    let file := line.file.getD ""
    let number := line.number
    d.message ++ s!" ({file} line {number})"
  | none => d.message

/-- The report of a diagnostic about the root source or one it includes. -/
def ofDiagnostic (source : String) (root : Option String) (d : Diagnostic) : Report :=
  let report : Report :=
    { display := d.message, code := d.code.map (·.toString), severity := some d.severity,
      help := d.help }
  if isAboutRoot root d then
    { report with source := some source, labels := d.labels.map ofLabel }
  else { report with display := awayMessage d }

def errorCode : LoadError → Option String
  | .file _ | .unreadable _ _ => some "cartograph::io"
  | .settings _ => some "cartograph::config"
  | .source _ _ _ => none

end Report

/-- The reports of a load error, one for each diagnostic. -/
def LoadError.reports : LoadError → List Report
  | .source failure content name =>
    failure.diagnostics.map (Report.ofDiagnostic content name)
  | e => [{ display := e.message, code := Report.errorCode e }]

end Edifice
