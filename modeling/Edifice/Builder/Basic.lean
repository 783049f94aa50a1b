import Edifice.Workspace

/-!
A workspace under construction.

Everything is inserted by an operation of the builder: a `Change` that asks whether the
rules of the model permit it and then writes.  Elements and relationships draw their ids
from one counter, and people, software systems and custom elements share a table of names.
-/

namespace Edifice

/-- A workspace under construction. -/
structure Builder extends Workspace where
  /-- The number that the next element or relationship gets as its id. -/
  nextId : Nat := 1
  /-- The people, software systems and custom elements by their names. -/
  topLevelNames : Dictionary ElementId := {}
  /-- Whether new relationships also relate the ancestors of their ends. -/
  impliedRelationships : Bool := true
  /-- The number of the last key generated for each kind of view, by its stem. -/
  generatedKeys : Dictionary Nat := {}
deriving DecidableEq, Repr

namespace Builder

/-- A workspace without contents under construction. -/
def new (name description : String) : Builder :=
  { name, description }

def finish (b : Builder) : Workspace :=
  b.toWorkspace

def element (b : Builder) (id : ElementId) : Except ModelError Element :=
  match b.model.element? id with
  | some e => .ok e
  | none => .error (.unknownElement id.index)

def relationship (b : Builder) (id : RelationshipId) : Except ModelError Relationship :=
  match b.model.relationship? id with
  | some r => .ok r
  | none => .error (.unknownRelationship id.index)

variable {b : Builder}

theorem element_eq_ok {id : ElementId} {e : Element} :
    b.element id = .ok e ↔ b.model.element? id = some e := by
  unfold element
  cases b.model.element? id <;> simp

theorem relationship_eq_ok {id : RelationshipId} {r : Relationship} :
    b.relationship id = .ok r ↔ b.model.relationship? id = some r := by
  unfold relationship
  cases b.model.relationship? id <;> simp

/-! ### The workspace itself -/

def setName (b : Builder) (name : String) : Builder :=
  { b with name }

def setDescription (b : Builder) (description : String) : Builder :=
  { b with description }

def addWorkspaceProperty (name value : String) : Change Builder Unit := do
  Change.ask fun _ => checkProperty name value
  modify fun b => { b with properties := b.properties.insert name value }

def addModelProperty (name value : String) : Change Builder Unit := do
  Change.ask fun _ => checkProperty name value
  modify fun b =>
    { b with model := { b.model with properties := b.model.properties.insert name value } }

def addViewsProperty (name value : String) : Change Builder Unit := do
  Change.ask fun _ => checkProperty name value
  modify fun b =>
    { b with views := { b.views with properties := b.views.properties.insert name value } }

/-- Switches implied relationships on or off for the relationships still to come. -/
def setImpliedRelationships (b : Builder) (enabled : Bool) : Builder :=
  { b with impliedRelationships := enabled }

def setScope (b : Builder) (scope : Option WorkspaceScope) : Builder :=
  { b with configuration := { b.configuration with scope } }

def setVisibility (b : Builder) (visibility : Visibility) : Builder :=
  { b with configuration := { b.configuration with visibility := some visibility } }

def addUser (b : Builder) (user : User) : Builder :=
  { b with configuration := b.configuration.addUser user }

end Builder

end Edifice
