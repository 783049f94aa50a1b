import Edifice.Builder.Views
import Edifice.View.Selection

/-!
Showing what a selection stands for and taking out what it matches.

Including an element by name requires that the view accepts it, while the elements a
filter picks are left out where it does not; relationship filters only add
relationships between what is shown already.  Excluding looks at what the view shows.
Each selection comes down to including or excluding single elements and relationships.
-/

namespace Edifice.Builder

def includeIfAccepted (key : String) (id : ElementId) : Change Builder Unit := do
  let b ← get
  if b.canInclude key id then includeElement key id else return ()

/-- The relationships between shown elements that a filter picks. -/
def shownRelationships (b : Builder) (key : String) (s : Selection) :
    Except ModelError (List RelationshipId) := do
  let v ← b.view key
  let chosen := b.model.relationships.filter fun r =>
    v.showsElement r.source && v.showsElement r.destination && s.picksRelationship r
  return chosen.map (·.id)

/-- The relationships between two elements, where `none` stands for any, whose ends the
view accepts. -/
def acceptedRelationships (b : Builder) (key : String) (source destination : Option ElementId) :
    List RelationshipId :=
  let chosen := b.model.relationships.filter fun r =>
    Selection.isEnd source r.source && Selection.isEnd destination r.destination &&
      (b.canInclude key r.source && b.canInclude key r.destination)
  chosen.map (·.id)

def includeSelection (key : String) (s : Selection) : Change Builder Unit := do
  let b ← get
  match s with
  | .all => includeDefault key
  | .elementTags _ _ | .elementType _ _ =>
    ((b.model.elements.filter s.picksElement).map (·.id)).forM (includeIfAccepted key)
  | .relationshipTags _ _ | .allRelationships =>
    let ids ← Change.ask (·.shownRelationships key s)
    ids.forM (includeRelationship key)
  | .coupled element coupling =>
    includeElement key element
    (b.model.coupled element coupling).forM (includeIfAccepted key)
  | .element id => includeElement key id
  | .relationship id => includeRelationship key id
  | .between source destination =>
    (b.acceptedRelationships key source destination).forM (includeRelationship key)

/-- Takes out what a selection matches among the elements and lines shown. -/
def excludeSelection (key : String) (s : Selection) : Change Builder Unit := do
  let v ← Change.ask (·.view key)
  let b ← get
  let elements := v.elements.filter fun id =>
    ((b.model.element? id).map s.picksElement).getD false
  let relationships := (v.lines.filter (s.picksLine b.model)).map (·.relationship)
  elements.forM (excludeElement key)
  relationships.forM (excludeRelationship key)

end Edifice.Builder
