import Edifice.View.Contents

/-!
What an `include` or `exclude` statement selects from a model.

A selection names elements or relationships, or filters them by what they carry or how
they are related.
-/

namespace Edifice

/-- The relationships of an element that a coupling follows. -/
inductive Coupling where
  /-- Those into the element. -/
  | afferent
  /-- Those out of the element. -/
  | efferent
  | both
deriving DecidableEq, Repr

/-- Whether the coupling of `element` follows a relationship with the given ends. -/
def Coupling.follows (c : Coupling) (element source destination : ElementId) : Bool :=
  match c with
  | .afferent => destination == element
  | .efferent => source == element
  | .both => source == element || destination == element

/-- A selection of elements or relationships. -/
inductive Selection where
  | all
  | elementTags (tags : List String) (negated : Bool)
  | elementType (kind : ElementKind) (negated : Bool)
  | relationshipTags (tags : List String) (negated : Bool)
  | allRelationships
  | coupled (element : ElementId) (coupling : Coupling)
  | element (id : ElementId)
  | relationship (id : RelationshipId)
  /-- The relationships between two elements, where `none` stands for any. -/
  | between (source destination : Option ElementId)
deriving DecidableEq, Repr

namespace Selection

def hasAnyTag (item : Item) (tags : List String) : Bool :=
  tags.any item.hasTag

/-- Whether an end is the asked one, if one is asked for. -/
def isEnd (asked : Option ElementId) (id : ElementId) : Bool :=
  match asked with
  | some a => a == id
  | none => true

/-- Whether the selection, taken as an element filter, picks an element. -/
def picksElement (s : Selection) (e : Element) : Bool :=
  match s with
  | .all => true
  | .elementTags tags negated => hasAnyTag e.item tags != negated
  | .elementType kind negated => (e.kind == kind) != negated
  | .element id => id == e.id
  | _ => false

/-- Whether the selection, taken as a relationship filter, picks a relationship. -/
def picksRelationship (s : Selection) (r : Relationship) : Bool :=
  match s with
  | .allRelationships => true
  | .relationshipTags tags negated => hasAnyTag r.item tags != negated
  | _ => false

/-- Whether the selection picks a line of a view. -/
def picksLine (m : Model) (s : Selection) (l : ViewLine) : Bool :=
  match s with
  | .coupled id coupling => coupling.follows id l.source l.destination
  | .between source destination => isEnd source l.source && isEnd destination l.destination
  | .relationship id => id == l.relationship
  | s => ((m.relationship? l.relationship).map s.picksRelationship).getD false

end Selection

/-- The elements at the far ends of the relationships that a coupling follows. -/
def Model.coupled (m : Model) (element : ElementId) (coupling : Coupling) : List ElementId :=
  (m.relationships.filter fun r => coupling.follows element r.source r.destination).map
    fun r => if r.source = element then r.destination else r.source

end Edifice
