import Edifice.Builder.Items
import Edifice.Identifier.Registry
import Edifice.Source.Span

/-!
The blocks of the language and the stack of those that are open.

The innermost open block decides which statements are legal.  A block carries only what
its statements need, and its frame adds the scope in which its declarations are bound.
-/

namespace Edifice.Language

/-- Where the lines of a `properties` block go. -/
inductive PropertyTarget where
  | workspace
  | model
  | item (ref : ItemRef)
  | view (key : String)
  | views
  | elementStyle (tag : String)
  | relationshipStyle (tag : String)
deriving DecidableEq, Repr

inductive Block where
  | workspace
  | model
  /-- A named group; `parent` is the software system or container around it, if any. -/
  | group (name : String) (parent : Option ElementId)
  /-- The body of an element other than a deployment node. -/
  | element (id : ElementId)
  | deploymentEnvironment (name : String)
  | deploymentNode (id : ElementId) (environment : String)
  | relationship (id : RelationshipId)
  | properties (target : PropertyTarget)
  | perspectives (ref : ItemRef)
  | views
  | staticView (key : String)
  | dynamicView (key : String)
  /-- Interactions of a dynamic view that happen in parallel. -/
  | parallel (key : String)
  | styles
  | elementStyle (tag : String)
  | relationshipStyle (tag : String)
  | configuration
  | users
deriving DecidableEq, Repr

namespace Block

def name : Block → String
  | .workspace => "workspace"
  | .model => "model"
  | .group _ _ => "group"
  | .element _ => "element"
  | .deploymentEnvironment _ => "deploymentEnvironment"
  | .deploymentNode _ _ => "deploymentNode"
  | .relationship _ => "relationship"
  | .properties _ => "properties"
  | .perspectives _ => "perspectives"
  | .views => "views"
  | .staticView _ => "view"
  | .dynamicView _ => "dynamic view"
  | .parallel _ => "parallel sequence"
  | .styles => "styles"
  | .elementStyle _ => "element style"
  | .relationshipStyle _ => "relationship style"
  | .configuration => "configuration"
  | .users => "users"

/-- The element whose body the block is: the source of relationships written without one,
and what `this` stands for. -/
def element? : Block → Option ElementId
  | .element id => some id
  | .deploymentNode id _ => some id
  | _ => none

/-- The body of a relationship or of an element that is no deployment node. -/
def ofItem : ItemRef → Block
  | .element id => .element id
  | .relationship id => .relationship id

end Block

structure Frame where
  block : Block
  /-- The scope in which the declarations of the block are bound. -/
  scope : Scope
  /-- The number of the line that opened the block. -/
  line : Nat
  /-- The statement that opened the block. -/
  span : Span
deriving DecidableEq, Repr

/-- The open blocks, innermost first. -/
abbrev Frames := List Frame

namespace Frames

def block? (frames : Frames) : Option Block :=
  frames.head?.map (·.block)

def scope (frames : Frames) : Scope :=
  (frames.head?.map (·.scope)).getD []

/-- The nearest element around a statement. -/
def element? (frames : Frames) : Option ElementId :=
  frames.findSome? fun f => f.block.element?

/-- The group that directly holds a statement. -/
def group? (frames : Frames) : Option String :=
  match frames.block? with
  | some (.group name _) => some name
  | _ => none

end Frames

end Edifice.Language
