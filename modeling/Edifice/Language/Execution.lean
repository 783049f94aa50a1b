import Edifice.Language.Dynamics
import Edifice.Language.Elements
import Edifice.Language.Styles
import Edifice.Language.Workspaces

/-!
Executing statements.

The innermost open block decides which grammar a statement has to follow, and a statement
that ends with a brace has to open a block.
-/

namespace Edifice.Language

/-- The error of a brace by itself outside of a dynamic view. -/
def loneBrace : Diagnostic :=
  { code := some .unexpectedStatement
    message := "unexpected `\x7b`"
    help := some "a block must follow the statement that opens it" }

/-- Executes a statement that is nothing but the brace that opens a block. -/
def executeBrace (s : Session) (st : Statement) : Execution :=
  match s.frames.block? with
  | some (.dynamicView key) | some (.parallel key) => executeParallel s key st
  | _ => .error loneBrace

def executeWords (colors : ColorReader) (s : Session) (st : Statement) : Execution :=
  match s.frames.block? with
  | none => executeRoot s st
  | some block =>
    match block with
    | .workspace => executeWorkspace s st
    | .model | .group _ _ | .element _ | .deploymentEnvironment _ | .deploymentNode _ _ =>
      executeModel s st block
    | .relationship id => executeItem s (.relationship id) st
    | .properties target => executeProperty s target st
    | .perspectives ref => executePerspective s ref st
    | .views => executeViews s st
    | .staticView key => executeStaticView s key st
    | .dynamicView key | .parallel key => executeDynamicView s key st
    | .styles => executeStyles s st
    | .elementStyle tag => executeElementStyle colors s tag st
    | .relationshipStyle tag => executeRelationshipStyle colors s tag st
    | .configuration => executeConfiguration s st
    | .users => executeUser s st

def executeStatement (colors : ColorReader) (s : Session) (st : Statement) : Execution :=
  if st.tokens.isEmpty then executeBrace s st else executeWords colors s st

def noBlock (st : Statement) : Diagnostic :=
  .error .unexpectedStatement "this statement cannot open a block" (.point st.span.stop)
    "unexpected `\x7b`"

/-- Executes a statement and opens its block, if it has one. -/
def runStatement (colors : ColorReader) (s : Session) (st : Statement) (line : Nat) :
    Except Diagnostic Session := do
  let (block, s) ← executeStatement colors s st
  if st.opensBlock then
    match block with
    | some block => return s.openBlock block line st.span
    | none => throw (noBlock st)
  else return s

end Edifice.Language
