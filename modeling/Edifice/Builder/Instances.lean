import Edifice.Builder.Elements
import Edifice.Builder.Relationships

/-!
Deploying software systems and containers.

A node holds one instance of an element at most, and instances of the same element are
counted within their environment.  A new instance takes over the relationships that its
element has with the elements of the other instances of the environment (`replicas`).
-/

namespace Edifice

def Model.instanceCount (m : Model) (of : ElementId) (environment : Option String) : Nat :=
  m.elements.countP fun e => e.instanceOf == some of && e.environment == environment

/-- The other instances of the environment of an instance, with what they deploy. -/
def Model.peers (m : Model) (placed : Element) : List (ElementId × ElementId) :=
  m.elements.filterMap fun e =>
    if e.id ≠ placed.id ∧ e.environment = placed.environment then
      e.instanceOf.map fun of => (e.id, of)
    else none

/-- The relationships from one element to another that do not follow from others. -/
def Model.declaredBetween (m : Model) (source destination : ElementId) : List Relationship :=
  (m.between source destination).filter fun r => !r.origin.isImplied

/-- A relationship to be copied, with the ends of the copy. -/
structure Replica where
  source : ElementId
  destination : ElementId
  origin : Relationship
deriving DecidableEq, Repr

/-- The copies that an instance of `of` calls for, peer by peer. -/
def Model.replicas (m : Model) (placed : Element) (of : ElementId) : List Replica :=
  (m.peers placed).flatMap fun (peer, peerOf) =>
    (m.declaredBetween of peerOf).map (Replica.mk placed.id peer) ++
      (m.declaredBetween peerOf of).map (Replica.mk peer placed.id)

namespace Builder

/-- Adds a copy unless a relationship with its description is there already. -/
def addReplica (b : Builder) (c : Replica) : Builder :=
  if b.model.hasDescribed c.source c.destination c.origin.description then b
  else
    (b.insertRelationship c.source c.destination c.origin.description c.origin.technology
      (.replicated c.origin.id)).2

/-- Copies the relationships of the deployed element onto its new instance. -/
def replicate (b : Builder) (id : ElementId) : Builder :=
  match b.model.element? id with
  | none => b
  | some placed =>
    match placed.instanceOf with
    | none => b
    | some of => (b.model.replicas placed of).foldl addReplica b

/-- The instance that deploys an element on a deployment node, ready to be declared. -/
def instanceDraft (b : Builder) (node of : ElementId) : Except ModelError Element := do
  let deployed ← b.element of
  match deployed.kind.instanceKind? with
  | none => throw (.illegalNesting .deploymentNode deployed.kind)
  | some kind =>
    let parent ← b.element node
    if (b.model.childrenOf node).any fun e => e.instanceOf == some of then
      throw (.duplicateInstance parent.name deployed.name)
    return { Element.draft kind deployed.name with
      parent := some node
      environment := parent.environment
      instanceOf := some of
      instanceIndex := some (b.model.instanceCount of parent.environment + 1) }

def addInstance (node of : ElementId) : Change Builder ElementId := do
  let draft ← Change.ask (·.instanceDraft node of)
  let id ← insertElement draft
  modify (·.replicate id)
  return id

end Builder

end Edifice
