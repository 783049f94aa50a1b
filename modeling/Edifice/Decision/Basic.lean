import Edifice.Model.Basic

/-!
Architecture decisions.

A decision belongs to the workspace or to one software system, container or component,
and its id is unique in that scope.  It may link to other decisions of the same scope,
for instance to the one it supersedes; the links are listed by target and description.
-/

namespace Edifice

structure Decision where
  id : String
  title : String
  /-- The date as written, usually year, month and day. -/
  date : String := ""
  status : String := ""
  /-- The whole text of the record. -/
  content : String := ""
  /-- The ids of linked decisions with the descriptions of the links. -/
  links : List (String × String) := []
  /-- The element the decision is about; the workspace when absent. -/
  element : Option ElementId := none
deriving DecidableEq, Repr

namespace Decision

/-- Adds a link to another decision; a link to itself is ignored. -/
def addLink (d : Decision) (target description : String) : Decision :=
  if target = d.id then d
  else { d with links := insertSorted pairBelow (target, description) d.links }

end Decision

/-- Recorded decisions, each under its scope and id. -/
abbrev Documentation := List ((Option ElementId × String) × Decision)

def decisionRecorded (recorded : Documentation) (element : Option ElementId) (id : String) :
    Bool :=
  recorded.any fun e => e.1 == (element, id)

/-- The first id that is missing, repeated in the batch or recorded in the scope. -/
def checkDecisionIds (recorded : Documentation) (element : Option ElementId) :
    List String → List Decision → Except ModelError Unit
  | _, [] => .ok ()
  | earlier, d :: rest =>
    if d.id = "" then .error .decisionWithoutId
    else if decisionRecorded recorded element d.id || earlier.contains d.id then
      .error (.duplicateDecision d.id)
    else checkDecisionIds recorded element (earlier ++ [d.id]) rest

/-- The first link of a batch whose target is neither in the batch nor in the scope. -/
def checkDecisionLinks (recorded : Documentation) (element : Option ElementId)
    (batch : List Decision) : Except ModelError Unit :=
  let known := fun id => batch.any (·.id == id) || decisionRecorded recorded element id
  let links := batch.flatMap fun d => d.links.map fun l => (d.id, l.1)
  match links.find? fun l => !known l.2 with
  | some (id, target) => .error (.unknownDecision id target)
  | none => .ok ()

end Edifice
