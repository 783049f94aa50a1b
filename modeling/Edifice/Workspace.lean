import Edifice.Configuration
import Edifice.Decision.Basic
import Edifice.View.Basic

/-!
A workspace: one architecture model with its views, decisions and configuration.
-/

namespace Edifice

/-- The workspace property that switches recommendations off. -/
def recommendationsProperty : String := "structurizr.recommendations"

/-- One architecture model with all that belongs to it. -/
structure Workspace where
  name : String := "Workspace"
  description : String := ""
  properties : Dictionary String := {}
  configuration : Configuration := {}
  model : Model := {}
  views : ViewSet := {}
  /-- The decisions of all scopes in the order in which they were recorded. -/
  documentation : Documentation := []
deriving DecidableEq, Repr

namespace Workspace

/-- Recommendations are on unless the workspace says `false`. -/
def recommendationsEnabled (w : Workspace) : Bool :=
  match w.properties.get? recommendationsProperty with
  | some value => !Text.eqIgnoreCase value "false"
  | none => true

def decisions (w : Workspace) : List Decision :=
  w.documentation.map Prod.snd

/-- The decisions recorded against an element, or against the workspace itself. -/
def decisionsOf (w : Workspace) (element : Option ElementId) : List Decision :=
  w.decisions.filter fun d => d.element == element

def decision? (w : Workspace) (element : Option ElementId) (id : String) : Option Decision :=
  (w.documentation.find? fun e => e.1 == (element, id)).map Prod.snd

end Workspace

end Edifice
