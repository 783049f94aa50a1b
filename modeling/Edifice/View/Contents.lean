import Edifice.View.Eligibility

/-!
What comes into a view with an element and what leaves it.

A static view grows with its elements: an element that comes in brings every
relationship between it and what is shown (`withElement`), and a deployment view shows
the nodes around it first.  An element that goes out takes its relationships along.
-/

namespace Edifice.View

/-- The elements that appear when `id` is shown, in their order: in a deployment view
the nodes around it from the outermost in, then `id`, as far as they are not shown
yet. -/
def newElements (m : Model) (v : View) (id : ElementId) : List ElementId :=
  let around := if v.kind = .deployment then (m.ancestors id).reverse else []
  (around ++ [id]).filter fun i => !v.showsElement i

/-- The relationships that the elements `ids` bring along: those with both ends among
them and what is shown, one end among them, and not shown yet. -/
def newLines (m : Model) (v : View) (ids : List ElementId) : List ViewLine :=
  let shown := fun id => v.showsElement id || ids.contains id
  let chosen := m.relationships.filter fun r =>
    (shown r.source && shown r.destination) &&
      (ids.contains r.source || ids.contains r.destination) && !v.showsRelationship r.id
  chosen.map .ofRelationship

/-- Shows an element and, if asked for, the relationships that come with it in a static
view. -/
def withElement (m : Model) (v : View) (id : ElementId) (withLines : Bool) : View :=
  let ids := v.newElements m id
  let lines := if withLines && v.kind.isStatic then v.newLines m ids else []
  { v with
    elements := ids.foldl (fun shown i => insertLast i shown) v.elements
    lines := v.lines ++ lines }

def withRelationship (v : View) (r : Relationship) : View :=
  if v.showsRelationship r.id then v else { v with lines := v.lines ++ [.ofRelationship r] }

/-- Takes an element out together with every relationship touching it. -/
def excludeElement (v : View) (id : ElementId) : View :=
  { v with
    elements := v.elements.filter (· != id)
    lines := v.lines.filter fun l => !l.touches id }

def excludeRelationship (v : View) (id : RelationshipId) : View :=
  { v with lines := v.lines.filter fun l => l.relationship != id }

/-- The elements that `*` stands for: the scope and its neighbours in a system context
view, the contents of the scope and their neighbours in a container or component view,
and otherwise every element. -/
def defaultElements (m : Model) (v : View) : List ElementId :=
  match v.kind, v.scope with
  | .systemContext, some system => system :: m.neighbours system
  | .container, some parent | .component, some parent =>
    let children := (m.childrenOf parent).map (·.id)
    children ++ children.flatMap m.neighbours
  | _, _ => m.elements.map (·.id)

end Edifice.View
