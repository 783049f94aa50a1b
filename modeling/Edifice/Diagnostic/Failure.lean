import Edifice.Diagnostic.Basic

/-!
Why the reading of a source failed.
-/

namespace Edifice

/-- The diagnostics of a source that could not be read: the error that ended the reading,
then the warnings before it. -/
structure Failure where
  diagnostics : List Diagnostic
deriving DecidableEq, Repr

namespace Failure

def firstError? (f : Failure) : Option Diagnostic :=
  f.diagnostics.find? fun d => d.severity == .error

/-- The error in one line, with the number of the other diagnostics. -/
def message (f : Failure) : String :=
  match f.firstError?.or f.diagnostics.head? with
  | none => ""
  | some d =>
    let others := f.diagnostics.length - 1
    if others = 0 then d.display
    else
      let line := d.display
      s!"{line} (+{others} more)"

end Failure

end Edifice
