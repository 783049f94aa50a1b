import Edifice.Builder.Basic

/-!
Relating elements.

No element but a component is related to itself, none is related to what contains it or
what it contains, and no two relationships share source, destination and description.
An explicit relationship implies one between every pair of its ends and their ancestors
that may be related and is not yet.
-/

namespace Edifice

def Model.hasDescribed (m : Model) (source destination : ElementId) (description : String) :
    Bool :=
  (m.between source destination).any fun r => r.description == description

/-- Checks the rules for a new relationship between two elements. -/
def Model.checkRelationship (m : Model) (source destination : Element) (description : String) :
    Except ModelError Unit := do
  if source.id = destination.id ∧ !source.kind.allowsSelfRelationship then
    throw (.selfRelationship source.name)
  if m.isAncestor source.id destination.id then
    throw (.parentChildRelationship source.name destination.name)
  if m.isAncestor destination.id source.id then
    throw (.parentChildRelationship destination.name source.name)
  if m.hasDescribed source.id destination.id description then
    throw (.duplicateRelationship source.name destination.name description)

/-- The pairs of the ends of a relationship and their ancestors, nearest first. -/
def Model.liftedPairs (m : Model) (source destination : ElementId) :
    List (ElementId × ElementId) :=
  (m.lineage source).flatMap fun s => (m.lineage destination).map fun d => (s, d)

/-- Whether two elements may be related and are not related in this direction yet. -/
def Model.canImply (m : Model) (source destination : ElementId) : Bool :=
  source != destination && !m.isAncestor source destination &&
    !m.isAncestor destination source && !m.hasRelationship source destination

namespace Builder

def checkRelationship (b : Builder) (source destination : ElementId) (description : String) :
    Except ModelError Unit := do
  let s ← b.element source
  let d ← b.element destination
  b.model.checkRelationship s d description

def newRelationship (b : Builder) (source destination : ElementId)
    (description technology : String) (origin : Origin) : Relationship :=
  { id := ⟨b.nextId⟩, source, destination, description, technology, origin }

/-- Adds a relationship that has been checked. -/
def insertRelationship (b : Builder) (source destination : ElementId)
    (description technology : String) (origin : Origin) : RelationshipId × Builder :=
  let r := b.newRelationship source destination description technology origin
  (r.id, { b with model := b.model.putRelationship r, nextId := b.nextId + 1 })

/-- Adds the relationship that `o` implies between two elements, if there is room for
it. -/
def addImplied (o : Relationship) (b : Builder) (pair : ElementId × ElementId) : Builder :=
  if pair ≠ (o.source, o.destination) ∧ b.model.canImply pair.1 pair.2 then
    (b.insertRelationship pair.1 pair.2 o.description o.technology (.implied o.id)).2
  else b

/-- Adds the relationships that a relationship implies between its ends and their
ancestors. -/
def imply (b : Builder) (id : RelationshipId) : Builder :=
  match b.model.relationship? id with
  | none => b
  | some o => (b.model.liftedPairs o.source o.destination).foldl (addImplied o) b

/-- Adds the relationships that a new one implies, unless that is switched off. -/
def implyIfEnabled (b : Builder) (id : RelationshipId) : Builder :=
  if b.impliedRelationships then b.imply id else b

/-- Relates two elements and, unless switched off, their ancestors. -/
def addRelationship (source destination : ElementId) (description technology : String) :
    Change Builder RelationshipId := do
  Change.ask (·.checkRelationship source destination description)
  let id ← modifyGet
    (·.insertRelationship source destination description technology .explicit)
  modify (·.implyIfEnabled id)
  return id

end Builder

end Edifice
