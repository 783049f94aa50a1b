import Edifice.View.Eligibility

/-!
Interactions: the lines of a dynamic view.

An interaction is backed by a relationship of the model, either in its own direction
or, drawn as a response, in the other.  Each one draws a step number, which an order
given by the author replaces on the line.
-/

namespace Edifice

/-- An end of an interaction: only static structure and custom elements take part. -/
inductive Participant where
  | staticStructure (id : ElementId)
  | custom (id : ElementId)
deriving DecidableEq, Repr

namespace Participant

def id : Participant → ElementId
  | .staticStructure id => id
  | .custom id => id

/-- Whether the participant is described as what its element is. -/
def suits : Participant → ElementKind → Bool
  | .staticStructure _, k => k.isStaticStructure
  | .custom _, k => k.isCustom

/-- Checks that the participant exists and is what it is described as. -/
def check (m : Model) (p : Participant) : Except ModelError Unit :=
  match m.element? p.id with
  | none => .error (.unknownElement p.id.index)
  | some e =>
    if p.suits e.kind then .ok ()
    else .error (.illegalViewElement ViewKind.dynamic.keyword e.name e.kind)

end Participant

/-- The relationship that backs an interaction from `source` to `destination`: of those
with the technology, if one is given, the first with the description, or else the
first. -/
def Model.backing? (m : Model) (source destination : ElementId)
    (description technology : String) : Option RelationshipId :=
  let candidates := (m.between source destination).filter fun r =>
    technology == "" || r.technology == technology
  let best := (candidates.find? fun r => r.description == description).or candidates.head?
  best.map (·.id)

namespace View

/-- Appends a line with its ends, under the given order or else the next step number.
A step number is drawn in either case. -/
def appendLine (v : View) (l : ViewLine) (order : Option String) : View :=
  let (n, steps) := v.steps.next
  { v with
    steps
    elements := insertLast l.destination (insertLast l.source v.elements)
    lines := v.lines ++ [{ l with order := some (order.getD (toString n)) }] }

/-- The line of an interaction, or why no relationship backs it. -/
def interactionLine (m : Model) (source destination : ElementId)
    (description technology : String) : Except ModelError ViewLine :=
  match m.backing? source destination description technology with
  | some id =>
    .ok { relationship := id, source, destination, description, technology }
  | none =>
    match m.backing? destination source description technology with
    | some id =>
      .ok { relationship := id, source, destination, description, technology, response := true }
    | none =>
      let name := fun id => ((m.element? id).map (·.name)).getD ""
      .error (.missingRelationship (name source) (name destination))

/-- Checks the ends of an interaction and finds its line. -/
def checkInteraction (m : Model) (v : View) (source destination : Participant)
    (description technology : String) : Except ModelError ViewLine := do
  source.check m
  v.check m source.id
  destination.check m
  v.check m destination.id
  interactionLine m source.id destination.id description technology

def startParallel (v : View) : View :=
  { v with steps := v.steps.startParallel }

/-- Closes the innermost parallel block and says whether there was one. -/
def endParallel (v : View) : Bool × View :=
  (v.steps.endParallel.1, { v with steps := v.steps.endParallel.2 })

end View

end Edifice
