import Edifice.Text.Ascii

/-!
The kinds of element an architecture model is made of.

Everything that depends on the kind alone is decided here: its names, the tags its
elements start with, what may contain what, and which operations it supports.
-/

namespace Edifice

inductive ElementKind where
  | person
  | softwareSystem
  | container
  | component
  | customElement
  | deploymentNode
  | infrastructureNode
  | softwareSystemInstance
  | containerInstance
deriving DecidableEq, Repr

namespace ElementKind

def all : List ElementKind :=
  [.person, .softwareSystem, .container, .component, .customElement, .deploymentNode,
    .infrastructureNode, .softwareSystemInstance, .containerInstance]

theorem mem_all (k : ElementKind) : k ∈ all := by
  cases k <;> decide

def name : ElementKind → String
  | .person => "Person"
  | .softwareSystem => "SoftwareSystem"
  | .container => "Container"
  | .component => "Component"
  | .customElement => "CustomElement"
  | .deploymentNode => "DeploymentNode"
  | .infrastructureNode => "InfrastructureNode"
  | .softwareSystemInstance => "SoftwareSystemInstance"
  | .containerInstance => "ContainerInstance"

def keyword : ElementKind → String
  | .person => "person"
  | .softwareSystem => "softwareSystem"
  | .container => "container"
  | .component => "component"
  | .customElement => "element"
  | .deploymentNode => "deploymentNode"
  | .infrastructureNode => "infrastructureNode"
  | .softwareSystemInstance => "softwareSystemInstance"
  | .containerInstance => "containerInstance"

/-- The kind that a keyword declares; the spelling is exact. -/
def ofKeyword? (s : String) : Option ElementKind :=
  all.find? fun k => k.keyword == s

/-- Reads a type name without regard to case; custom elements have two names. -/
def parse (s : String) : Except String ElementKind :=
  match Text.lower s with
  | "person" => .ok .person
  | "softwaresystem" => .ok .softwareSystem
  | "container" => .ok .container
  | "component" => .ok .component
  | "element" => .ok .customElement
  | "customelement" => .ok .customElement
  | "deploymentnode" => .ok .deploymentNode
  | "infrastructurenode" => .ok .infrastructureNode
  | "softwaresysteminstance" => .ok .softwareSystemInstance
  | "containerinstance" => .ok .containerInstance
  | _ => .error s!"`{s}` is not an element type"

/-- The tags every element of the kind starts with. -/
def defaultTags : ElementKind → List String
  | .person => ["Element", "Person"]
  | .softwareSystem => ["Element", "Software System"]
  | .container => ["Element", "Container"]
  | .component => ["Element", "Component"]
  | .customElement => ["Element"]
  | .deploymentNode => ["Element", "Deployment Node"]
  | .infrastructureNode => ["Element", "Infrastructure Node"]
  | .softwareSystemInstance => ["Software System Instance"]
  | .containerInstance => ["Container Instance"]

/-- People, software systems, containers and components. -/
def isStaticStructure : ElementKind → Bool
  | .person | .softwareSystem | .container | .component => true
  | _ => false

/-- Elements of the author's own type. -/
def isCustom : ElementKind → Bool
  | .customElement => true
  | _ => false

/-- Nodes and the instances placed on them. -/
def isDeployment : ElementKind → Bool
  | .deploymentNode | .infrastructureNode | .softwareSystemInstance | .containerInstance => true
  | _ => false

/-- Copies of a software system or container on a deployment node. -/
def isInstance : ElementKind → Bool
  | .softwareSystemInstance | .containerInstance => true
  | _ => false

/-- The kinds whose elements share one space of names and stand at the top. -/
def isTopLevel : ElementKind → Bool
  | .person | .softwareSystem | .customElement => true
  | _ => false

/-- Whether an element of kind `parent` may be the parent of one of kind `child`. -/
def canContain (parent child : ElementKind) : Bool :=
  match parent, child with
  | .softwareSystem, .container => true
  | .container, .component => true
  | .deploymentNode, child => child.isDeployment
  | _, _ => false

/-- Whether an element of the kind exists only below a parent. -/
def requiresParent : ElementKind → Bool
  | .container | .component | .infrastructureNode | .softwareSystemInstance
  | .containerInstance => true
  | _ => false

def allowsSelfRelationship : ElementKind → Bool
  | .component => true
  | _ => false

def supportsTechnology : ElementKind → Bool
  | .container | .component | .deploymentNode | .infrastructureNode => true
  | _ => false

def supportsDecisions : ElementKind → Bool
  | .softwareSystem | .container | .component => true
  | _ => false

def supportsGroups : ElementKind → Bool
  | .softwareSystem | .container => true
  | _ => false

/-- The kind of instance that deploys an element of the kind, if it can be deployed. -/
def instanceKind? : ElementKind → Option ElementKind
  | .softwareSystem => some .softwareSystemInstance
  | .container => some .containerInstance
  | _ => none

end ElementKind

end Edifice
