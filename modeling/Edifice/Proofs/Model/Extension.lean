import Edifice.Proofs.Model.Containment

/-!
Models that extend others.

A model extends another when it has the same elements and relationships first, up to what
may be changed about them, and further ones after them.  What is said about the elements
of the smaller model then holds in the larger one: above all, an element keeps its
ancestors, because they are declared before it (`Extends.lineage_eq`).
-/

namespace Edifice.Model

variable {m m' m'' : Model}

/-- `m'` has the elements and relationships of `m` first. -/
structure Extends (m m' : Model) : Prop where
  elements : m.skeleton.elements <+: m'.skeleton.elements
  relationships : m.skeleton.relationships <+: m'.skeleton.relationships

def Declares (m : Model) (id : ElementId) : Prop :=
  ∃ e ∈ m.elements, e.id = id

theorem declares_iff {id : ElementId} : m.Declares id ↔ (m.element? id).isSome := by
  simp [Declares, element?]

/-- Parents are elements. -/
theorem Nested.declares_parent (nested : m.Nested) {id parent : ElementId}
    (inside : m.parent? id = some parent) : m.Declares parent := by
  obtain ⟨_, _, _, p, member, own, _⟩ := nested.parent?_spec inside
  exact ⟨p, member, own⟩

/-- The element and its ancestors are elements. -/
theorem Nested.declares_lineage (nested : m.Nested) {x id : ElementId}
    (declared : m.Declares id) (member : x ∈ m.lineage id) : m.Declares x := by
  rcases List.mem_cons.mp member with rfl | above
  · exact declared
  · obtain ⟨child, inside⟩ := nested.exists_child above
    exact nested.declares_parent inside

namespace Extends

@[refl] theorem refl (m : Model) : m.Extends m :=
  ⟨List.prefix_refl _, List.prefix_refl _⟩

theorem trans (first : m.Extends m') (second : m'.Extends m'') : m.Extends m'' :=
  ⟨first.elements.trans second.elements, first.relationships.trans second.relationships⟩

/-- Nothing but what may be changed differs between models with one skeleton. -/
theorem of_skeleton_eq (same : m'.skeleton = m.skeleton) : m.Extends m' := by
  constructor <;> simp only [same, List.prefix_refl]

/-- An element keeps its core. -/
theorem exists_element (extends_ : m.Extends m') {e : Element} (member : e ∈ m.elements) :
    ∃ e' ∈ m'.elements, e'.core = e.core :=
  List.mem_map.mp (extends_.elements.subset (List.mem_map_of_mem member))

/-- A relationship keeps its core. -/
theorem exists_relationship (extends_ : m.Extends m') {r : Relationship}
    (member : r ∈ m.relationships) : ∃ r' ∈ m'.relationships, r'.core = r.core :=
  List.mem_map.mp (extends_.relationships.subset (List.mem_map_of_mem member))

theorem declares (extends_ : m.Extends m') {id : ElementId} (declared : m.Declares id) :
    m'.Declares id := by
  obtain ⟨e, member, own⟩ := declared
  obtain ⟨e', member', core⟩ := extends_.exists_element member
  exact ⟨e', member', (congrArg Element.id core).trans own⟩

/-- An element is found with its core. -/
theorem element?_core (extends_ : m.Extends m') {id : ElementId} (declared : m.Declares id) :
    (m'.element? id).map Element.core = (m.element? id).map Element.core := by
  obtain ⟨later, elements⟩ := extends_.elements
  obtain ⟨e, found⟩ := Option.isSome_iff_exists.mp (declares_iff.mp declared)
  rw [← element?_skeleton, ← element?_skeleton]
  have found' : m.skeleton.element? id = some e.core := by simp [found]
  rw [found']
  simp only [element?, ← elements, List.find?_append] at found' ⊢
  rw [found']
  rfl

/-- An element keeps its parent. -/
theorem parent?_eq (extends_ : m.Extends m') {id : ElementId} (declared : m.Declares id) :
    m'.parent? id = m.parent? id := by
  have parent_of_core : ∀ o : Option Element,
      o.bind (·.parent) = (o.map Element.core).bind (·.parent) := by
    intro o
    cases o <;> rfl
  rw [parent?, parent?, parent_of_core, extends_.element?_core declared, ← parent_of_core]

/-- What is around an element stays around it, level by level. -/
theorem ancestorsWithin_eq (extends_ : m.Extends m') (nested : m.Nested) (limit : Nat)
    {id : ElementId} (declared : m.Declares id) :
    m'.ancestorsWithin limit id = m.ancestorsWithin limit id := by
  induction limit generalizing id with
  | zero => rfl
  | succ limit ih =>
      simp only [ancestorsWithin, extends_.parent?_eq declared]
      cases inside : m.parent? id with
      | none => rfl
      | some parent => simp only [ih (nested.declares_parent inside)]

/-- An element keeps its ancestors. -/
theorem lineage_eq (extends_ : m.Extends m') (nested : m.Nested) {id : ElementId}
    (declared : m.Declares id) : m'.lineage id = m.lineage id :=
  congrArg (id :: ·) (extends_.ancestorsWithin_eq nested id.index declared)

theorem isAncestor_eq (extends_ : m.Extends m') (nested : m.Nested) (ancestor : ElementId)
    {id : ElementId} (declared : m.Declares id) :
    m'.isAncestor ancestor id = m.isAncestor ancestor id :=
  congrArg (List.contains · ancestor) (extends_.ancestorsWithin_eq nested id.index declared)

end Extends

end Edifice.Model
