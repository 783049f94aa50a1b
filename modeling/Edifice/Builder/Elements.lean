import Edifice.Builder.Basic

/-!
Declaring elements.

An element stands at the top or inside a parent that may contain it, people, software
systems and custom elements share one space of names, and no two elements have the same
canonical name.  All of this is checked before the element is entered.
-/

namespace Edifice

/-- Checks that an element of a kind may be declared inside `parent`, or at the top. -/
def Model.checkPlace (m : Model) (kind : ElementKind) (parent : Option ElementId) :
    Except ModelError Unit :=
  match parent with
  | none => if kind.requiresParent then .error (.missingParent kind) else .ok ()
  | some id =>
    match m.element? id with
    | none => .error (.unknownElement id.index)
    | some e => if e.kind.canContain kind then .ok () else .error (.illegalNesting e.kind kind)

/-- An element about to be declared; it gets its id and its canonical name when it is
entered. -/
def Element.draft (kind : ElementKind) (name : String) : Element :=
  { id := ⟨0⟩, kind, name }

namespace Builder

def checkElement (b : Builder) (draft : Element) : Except ModelError Unit := do
  b.model.checkPlace draft.kind draft.parent
  if draft.kind.isTopLevel && b.topLevelNames.contains draft.name then
    throw (.duplicateElement draft.kind draft.name)
  if b.model.canonicalNames.contains (b.model.canonicalName draft) then
    throw (.duplicateElement draft.kind draft.name)

/-- The element that a draft becomes: under the next id and its canonical name. -/
def newElement (b : Builder) (draft : Element) : Element :=
  { draft with id := ⟨b.nextId⟩, canonicalName := b.model.canonicalName draft }

/-- Enters an element that has been checked. -/
def enterElement (b : Builder) (draft : Element) : ElementId × Builder :=
  let e := b.newElement draft
  let topLevelNames :=
    if e.kind.isTopLevel then b.topLevelNames.insert e.name e.id else b.topLevelNames
  (e.id, { b with model := b.model.enterElement e, topLevelNames, nextId := b.nextId + 1 })

def insertElement (draft : Element) : Change Builder ElementId := do
  Change.ask (·.checkElement draft)
  modifyGet (·.enterElement draft)

def addPerson (name : String) (group : Option String) : Change Builder ElementId :=
  insertElement { Element.draft .person name with group }

def addSoftwareSystem (name : String) (group : Option String) : Change Builder ElementId :=
  insertElement { Element.draft .softwareSystem name with group }

def addContainer (system : ElementId) (name : String) (group : Option String) :
    Change Builder ElementId :=
  insertElement { Element.draft .container name with parent := some system, group }

def addComponent (container : ElementId) (name : String) (group : Option String) :
    Change Builder ElementId :=
  insertElement { Element.draft .component name with parent := some container, group }

/-- Declares a custom element; an empty type label counts as absent. -/
def addCustomElement (name : String) (metadata group : Option String) :
    Change Builder ElementId :=
  insertElement
    { Element.draft .customElement name with metadata := metadata.filter (· != ""), group }

/-- Declares a deployment node in an environment, by itself or inside another node. -/
def addDeploymentNode (environment : String) (parent : Option ElementId) (name : String) :
    Change Builder ElementId :=
  insertElement
    { Element.draft .deploymentNode name with parent, environment := some environment }

/-- Declares an infrastructure node in the environment of its deployment node. -/
def addInfrastructureNode (node : ElementId) (name : String) : Change Builder ElementId := do
  let parent ← Change.ask (·.element node)
  insertElement
    { Element.draft .infrastructureNode name with
      parent := some node
      environment := parent.environment }

end Builder

end Edifice
