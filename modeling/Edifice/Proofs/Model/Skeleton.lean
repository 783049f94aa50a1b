import Edifice.Model.Basic
import Mathlib.Tactic.Simps.Basic

/-!
What never changes about a model once it is there.

The core of an element or relationship is all of it but the texts, tags, properties and
perspectives that may be changed after its declaration, and the skeleton of a model has the
cores in place of the elements and relationships.  What is stated of skeletons therefore
survives every change of the rest.  Containment needs less still: models with the same
elements have the same ancestors.
-/

namespace Edifice

/-- What no operation changes about an element. -/
@[simps]
def Element.core (e : Element) : Element :=
  { e with description := none, technology := none, instances := none, item := {} }

/-- What no operation changes about a relationship. -/
@[simps]
def Relationship.core (r : Relationship) : Relationship :=
  { r with item := {} }

/-- Elements with one core agree on all that is declared about them. -/
theorem Element.core_eq_iff {e e' : Element} :
    e'.core = e.core ↔ e'.id = e.id ∧ e'.kind = e.kind ∧ e'.name = e.name ∧
      e'.canonicalName = e.canonicalName ∧ e'.parent = e.parent ∧ e'.group = e.group ∧
      e'.environment = e.environment ∧ e'.instanceOf = e.instanceOf ∧
      e'.instanceIndex = e.instanceIndex ∧ e'.metadata = e.metadata := by
  simp [Element.core]

/-- Relationships with one core agree on all that is declared about them. -/
theorem Relationship.core_eq_iff {r r' : Relationship} :
    r'.core = r.core ↔ r'.id = r.id ∧ r'.source = r.source ∧ r'.destination = r.destination ∧
      r'.description = r.description ∧ r'.technology = r.technology ∧
      r'.origin = r.origin := by
  simp [Relationship.core]

namespace Model

/-- The model with the cores of its elements and relationships and without properties. -/
def skeleton (m : Model) : Model :=
  { m with
    elements := m.elements.map Element.core
    relationships := m.relationships.map Relationship.core
    properties := {} }

variable {m m' : Model}

@[simp] theorem skeleton_elements : m.skeleton.elements = m.elements.map Element.core :=
  rfl

@[simp] theorem skeleton_relationships :
    m.skeleton.relationships = m.relationships.map Relationship.core :=
  rfl

/-! ### Containment -/

@[simp] theorem element?_skeleton (id : ElementId) :
    m.skeleton.element? id = (m.element? id).map Element.core := by
  simp only [element?, skeleton_elements, List.find?_map]
  rfl

/-- Models with the same parents have the same ancestors. -/
theorem ancestorsWithin_congr (parents : ∀ id, m'.parent? id = m.parent? id) (limit : Nat)
    (id : ElementId) : m'.ancestorsWithin limit id = m.ancestorsWithin limit id := by
  induction limit generalizing id with
  | zero => rfl
  | succ limit ih => simp only [ancestorsWithin, parents, ih]

/-- Ancestors are a matter of the elements alone. -/
theorem ancestors_congr (same : m'.elements = m.elements) (id : ElementId) :
    m'.ancestors id = m.ancestors id :=
  ancestorsWithin_congr (fun id => by simp only [parent?, element?, same]) id.index id

theorem lineage_congr (same : m'.elements = m.elements) (id : ElementId) :
    m'.lineage id = m.lineage id :=
  congrArg (id :: ·) (ancestors_congr same id)

theorem isAncestor_congr (same : m'.elements = m.elements) (ancestor id : ElementId) :
    m'.isAncestor ancestor id = m.isAncestor ancestor id :=
  congrArg (List.contains · ancestor) (ancestors_congr same id)

/-! ### Models with one skeleton -/

/-- An element of a model has its core in every model with the same skeleton. -/
theorem exists_element_of_skeleton_eq (same : m'.skeleton = m.skeleton) {e : Element}
    (member : e ∈ m.elements) : ∃ e' ∈ m'.elements, e'.core = e.core := by
  have cores : m'.elements.map Element.core = m.elements.map Element.core :=
    congrArg Model.elements same
  exact List.mem_map.mp (cores ▸ List.mem_map_of_mem member)

/-- A relationship of a model has its core in every model with the same skeleton. -/
theorem exists_relationship_of_skeleton_eq (same : m'.skeleton = m.skeleton)
    {r : Relationship} (member : r ∈ m.relationships) :
    ∃ r' ∈ m'.relationships, r'.core = r.core := by
  have cores : m'.relationships.map Relationship.core =
      m.relationships.map Relationship.core := congrArg Model.relationships same
  exact List.mem_map.mp (cores ▸ List.mem_map_of_mem member)

end Model

end Edifice
