import Edifice.Builder.Basic

/-!
Recording decisions.

A batch is recorded as a whole or not at all: its ids are new in their scope, and every
link leads to a decision of the batch or of the scope.
-/

namespace Edifice.Builder

def checkDecisionScope (b : Builder) : Option ElementId → Except ModelError Unit
  | none => .ok ()
  | some id => do
    let e ← b.element id
    if !e.kind.supportsDecisions then throw (.unsupportedProperty e.kind "decisions")

/-- Records a decision that has been checked against the workspace or an element of it. -/
def recordDecision (element : Option ElementId) (b : Builder) (d : Decision) : Builder :=
  { b with
    documentation := putKeyed Prod.fst ((element, d.id), { d with element }) b.documentation }

/-- Records a batch of decisions against the workspace or an element of it. -/
def addDecisions (element : Option ElementId) (batch : List Decision) :
    Change Builder Unit := do
  Change.ask (·.checkDecisionScope element)
  Change.ask fun b => checkDecisionIds b.documentation element [] batch
  Change.ask fun b => checkDecisionLinks b.documentation element batch
  modify fun b => batch.foldl (recordDecision element) b

end Edifice.Builder
