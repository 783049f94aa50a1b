import Edifice.Builder.Basic

/-!
What is said about elements and relationships after their declaration.
-/

namespace Edifice

/-- An element or a relationship. -/
inductive ItemRef where
  | element (id : ElementId)
  | relationship (id : RelationshipId)
deriving DecidableEq, Repr

def Element.requireKind (e : Element) (supports : ElementKind → Bool) (property : String) :
    Except ModelError Unit :=
  if supports e.kind then .ok () else .error (.unsupportedProperty e.kind property)

namespace Builder

def onElement (id : ElementId) (c : Change Element Unit) : Change Builder Unit := do
  let e ← Change.ask (·.element id)
  Change.within (fun _ => e) (fun e b => { b with model := b.model.putElement e }) c

def onRelationship (id : RelationshipId) (c : Change Relationship Unit) :
    Change Builder Unit := do
  let r ← Change.ask (·.relationship id)
  Change.within (fun _ => r) (fun r b => { b with model := b.model.putRelationship r }) c

/-- Changes what an element or relationship carries. -/
def onItem (ref : ItemRef) (c : Change Item Unit) : Change Builder Unit :=
  match ref with
  | .element id => onElement id (.within (·.item) (fun item e => { e with item }) c)
  | .relationship id => onRelationship id (.within (·.item) (fun item r => { r with item }) c)

def setElementDescription (id : ElementId) (text : String) : Change Builder Unit :=
  onElement id (modify fun e => { e with description := some text })

/-- Names the technology of an element; an empty one counts as absent. -/
def setElementTechnology (id : ElementId) (text : String) : Change Builder Unit :=
  onElement id do
    Change.ask (·.requireKind (·.supportsTechnology) "technology")
    modify fun e => { e with technology := if text = "" then none else some text }

/-- Says how many copies of a deployment node there are, such as `4` or `1..N`. -/
def setInstances (id : ElementId) (text : String) : Change Builder Unit :=
  onElement id do
    Change.ask (·.requireKind (· == .deploymentNode) "instances")
    modify fun e => { e with instances := some text }

def addTags (ref : ItemRef) (text : String) : Change Builder Unit :=
  onItem ref (modify (·.addTags text))

def setUrl (ref : ItemRef) (url : String) : Change Builder Unit :=
  onItem ref (Item.setUrl url)

def addProperty (ref : ItemRef) (name value : String) : Change Builder Unit :=
  onItem ref (Item.addProperty name value)

def addPerspective (ref : ItemRef) (p : Perspective) : Change Builder Unit :=
  onItem ref (Item.addPerspective p)

end Builder

end Edifice
