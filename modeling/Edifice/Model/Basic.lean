import Edifice.Keyed
import Edifice.Model.Item

/-!
The architecture model: elements in their containment tree and the relationships
between them.

Elements and relationships are listed in the order of their declaration and draw
their ids from one counter, so an id names one thing in the whole model.  A parent is
declared before its children and has a smaller id; climbing from an element to its
ancestors therefore takes at most as many steps as its id says (`ancestors`).  A table
leads from the canonical name of an element to its id.
-/

namespace Edifice

@[ext]
structure ElementId where
  index : Nat
deriving DecidableEq, Repr

@[ext]
structure RelationshipId where
  index : Nat
deriving DecidableEq, Repr

/-- An architectural element. -/
structure Element where
  id : ElementId
  kind : ElementKind
  name : String
  canonicalName : String := ""
  description : Option String := none
  technology : Option String := none
  parent : Option ElementId := none
  group : Option String := none
  /-- The deployment environment of a deployment element. -/
  environment : Option String := none
  /-- The software system or container that an instance deploys. -/
  instanceOf : Option ElementId := none
  /-- The place of an instance among those of the same element and environment. -/
  instanceIndex : Option Nat := none
  /-- How many copies of a deployment node there are, as written. -/
  instances : Option String := none
  /-- The author's type label of a custom element. -/
  metadata : Option String := none
  item : Item := { tags := kind.defaultTags }
deriving DecidableEq, Repr

/-- How a relationship came to be. -/
inductive Origin where
  /-- Declared by the author. -/
  | explicit
  /-- Follows for ancestors of the ends of the given relationship. -/
  | implied (of : RelationshipId)
  /-- Copied onto instances of the ends of the given relationship. -/
  | replicated (of : RelationshipId)
deriving DecidableEq, Repr

/-- Whether the relationship follows from another one between descendants. -/
def Origin.isImplied : Origin → Bool
  | .implied _ => true
  | _ => false

/-- The tag that every relationship carries. -/
def relationshipTag : String := "Relationship"

/-- A directed link between two elements. -/
structure Relationship where
  id : RelationshipId
  source : ElementId
  destination : ElementId
  description : String := ""
  technology : String := ""
  origin : Origin := .explicit
  item : Item := { tags := [relationshipTag] }
deriving DecidableEq, Repr

/-- The model property that permits nested groups and names their separator. -/
def groupSeparatorProperty : String := "structurizr.groupSeparator"

/-- The elements and relationships of a workspace in the order of their declaration. -/
structure Model where
  elements : List Element := []
  relationships : List Relationship := []
  /-- The ids of the elements by their canonical names. -/
  canonicalNames : Dictionary ElementId := {}
  properties : Dictionary String := {}
deriving DecidableEq, Repr

namespace Model

def element? (m : Model) (id : ElementId) : Option Element :=
  m.elements.find? fun e => e.id == id

def relationship? (m : Model) (id : RelationshipId) : Option Relationship :=
  m.relationships.find? fun r => r.id == id

theorem element?_eq_some {m : Model} {id : ElementId} {e : Element}
    (found : m.element? id = some e) : e ∈ m.elements ∧ e.id = id :=
  ⟨List.mem_of_find?_eq_some found, by simpa using List.find?_some found⟩

theorem relationship?_eq_some {m : Model} {id : RelationshipId} {r : Relationship}
    (found : m.relationship? id = some r) : r ∈ m.relationships ∧ r.id = id :=
  ⟨List.mem_of_find?_eq_some found, by simpa using List.find?_some found⟩

def elementNamed? (m : Model) (canonicalName : String) : Option Element :=
  (m.canonicalNames.get? canonicalName).bind m.element?

def elementsOfKind (m : Model) (kind : ElementKind) : List Element :=
  m.elements.filter fun e => e.kind == kind

def elementsWithTag (m : Model) (tag : String) : List Element :=
  m.elements.filter fun e => e.item.hasTag tag

def relationshipsWithTag (m : Model) (tag : String) : List Relationship :=
  m.relationships.filter fun r => r.item.hasTag tag

/-! ### The containment tree -/

def childrenOf (m : Model) (parent : ElementId) : List Element :=
  m.elements.filter fun e => e.parent == some parent

def parent? (m : Model) (id : ElementId) : Option ElementId :=
  (m.element? id).bind (·.parent)

/-- The nearest `limit` ancestors of an element, nearest first. -/
def ancestorsWithin (m : Model) : Nat → ElementId → List ElementId
  | 0, _ => []
  | limit + 1, id =>
    match m.parent? id with
    | none => []
    | some parent => parent :: ancestorsWithin m limit parent

/-- The ancestors of an element, nearest first. -/
def ancestors (m : Model) (id : ElementId) : List ElementId :=
  m.ancestorsWithin id.index id

/-- Whether `ancestor` contains `id`, directly or through others. -/
def isAncestor (m : Model) (ancestor id : ElementId) : Bool :=
  (m.ancestors id).contains ancestor

/-- The element and its ancestors, nearest first. -/
def lineage (m : Model) (id : ElementId) : List ElementId :=
  id :: m.ancestors id

/-- The names from the outermost ancestor down to the element, joined. -/
def path (m : Model) (separator : String) (id : ElementId) : String :=
  separator.intercalate ((m.lineage id).reverse.filterMap fun i => (m.element? i).map (·.name))

/-- The path of an element that may be absent. -/
def path? (m : Model) (separator : String) : Option ElementId → String
  | some id => m.path separator id
  | none => ""

/-- The canonical name of an element, such as `Component://Bank.Web.Sign In` or
`ContainerInstance://Live/Server/Bank.Web[1]`. -/
def canonicalName (m : Model) (e : Element) : String :=
  let environment := e.environment.getD ""
  let qualified := match e.kind with
    | .person | .softwareSystem | .customElement => e.name
    | .container | .component => m.path? "." e.parent ++ "." ++ e.name
    | .deploymentNode | .infrastructureNode =>
      match e.parent with
      | some parent => environment ++ "/" ++ m.path "/" parent ++ "/" ++ e.name
      | none => environment ++ "/" ++ e.name
    | .softwareSystemInstance | .containerInstance =>
      environment ++ "/" ++ m.path? "/" e.parent ++ "/" ++ m.path? "." e.instanceOf ++ "[" ++
        toString (e.instanceIndex.getD 1) ++ "]"
  e.kind.name ++ "://" ++ qualified

def putElement (m : Model) (e : Element) : Model :=
  { m with elements := putKeyed (·.id) e m.elements }

/-- Enters a new element under its id and its canonical name. -/
def enterElement (m : Model) (e : Element) : Model :=
  { m.putElement e with canonicalNames := m.canonicalNames.insert e.canonicalName e.id }

/-! ### The relationship graph -/

def putRelationship (m : Model) (r : Relationship) : Model :=
  { m with relationships := putKeyed (·.id) r m.relationships }

def between (m : Model) (source destination : ElementId) : List Relationship :=
  m.relationships.filter fun r => r.source == source && r.destination == destination

/-- The relationships out of an element. -/
def efferent (m : Model) (id : ElementId) : List Relationship :=
  m.relationships.filter fun r => r.source == id

/-- The relationships into an element. -/
def afferent (m : Model) (id : ElementId) : List Relationship :=
  m.relationships.filter fun r => r.destination == id

def hasRelationship (m : Model) (source destination : ElementId) : Bool :=
  !(m.between source destination).isEmpty

/-- The elements related to an element in either direction, other than itself. -/
def neighbours (m : Model) (id : ElementId) : List ElementId :=
  ((m.efferent id).map (·.destination) ++ (m.afferent id).map (·.source)).filter (· != id)

/-- The separator of nested group names, where nested groups are permitted. -/
def groupSeparator? (m : Model) : Option String :=
  (m.properties.get? groupSeparatorProperty).filter (· != "")

end Model

end Edifice
