import Edifice.Model.Kind

/-!
The kinds of view and the kinds of element each can show.
-/

namespace Edifice

/-- The kinds of view a workspace can declare. -/
inductive ViewKind where
  | systemLandscape
  | systemContext
  | container
  | component
  | dynamic
  | deployment
  | custom
deriving DecidableEq, Repr

namespace ViewKind

def all : List ViewKind :=
  [.systemLandscape, .systemContext, .container, .component, .dynamic, .deployment, .custom]

theorem mem_all (k : ViewKind) : k ∈ all := by
  cases k <;> decide

def keyword : ViewKind → String
  | .systemLandscape => "systemLandscape"
  | .systemContext => "systemContext"
  | .container => "container"
  | .component => "component"
  | .dynamic => "dynamic"
  | .deployment => "deployment"
  | .custom => "custom"

/-- The kind that a keyword declares; the spelling is exact. -/
def ofKeyword? (s : String) : Option ViewKind :=
  all.find? fun k => k.keyword == s

/-- What the generated keys of views of the kind start with. -/
def keyStem : ViewKind → String
  | .systemLandscape => "SystemLandscape"
  | .systemContext => "SystemContext"
  | .container => "Container"
  | .component => "Component"
  | .dynamic => "Dynamic"
  | .deployment => "Deployment"
  | .custom => "Custom"

/-- The element kinds a view can show before its scope is considered. -/
def permits : ViewKind → ElementKind → Bool
  | .systemLandscape, k | .systemContext, k => k.isTopLevel
  | .container, k => k.isTopLevel || k == .container
  | .component, k | .dynamic, k => k.isStaticStructure || k.isCustom
  | .deployment, k => k.isDeployment
  | .custom, k => k.isCustom

/-- Every view but a dynamic one shows relationships as the model has them. -/
def isStatic : ViewKind → Bool
  | .dynamic => false
  | _ => true

def requiresScope : ViewKind → Bool
  | .systemContext | .container | .component => true
  | _ => false

/-- Whether a view of the kind may have an element of the given kind as its scope. -/
def acceptsScope : ViewKind → ElementKind → Bool
  | .systemContext, k | .container, k | .deployment, k => k == .softwareSystem
  | .component, k => k == .container
  | .dynamic, k => k == .softwareSystem || k == .container
  | .systemLandscape, _ | .custom, _ => false

end ViewKind

end Edifice
