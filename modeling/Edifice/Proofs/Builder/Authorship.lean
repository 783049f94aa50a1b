import Edifice.Proofs.Builder.Declarations
import Edifice.Proofs.Builder.Replication

/-!
What authors declare.

Every element is declared by an author, and of the relationships those are that neither
follow from others nor are copies.  Declaring an element adds it after all that were there
and adds to no relationships of authors (`Enters`); declaring a relationship adds it after
all of these and leaves the elements alone (`Relates`).
-/

open Edifice.Change

namespace Edifice

/-- The relationships that authors declare, in the order of their declaration. -/
def Model.authored (m : Model) : List Relationship :=
  m.relationships.filter fun r => r.origin == .explicit

theorem Model.authored_skeleton (m : Model) :
    m.skeleton.authored = m.authored.map Relationship.core := by
  simp only [authored, skeleton_relationships, List.filter_map]
  rfl

namespace Builder

variable {b b' : Builder}

/-- An element has been declared as drafted. -/
structure Enters (b : Builder) (draft : Element) (b' : Builder) : Prop where
  checked : b.checkElement draft = .ok ()
  numbered : b'.Numbered
  elements : b'.model.skeleton.elements =
    b.model.skeleton.elements ++ [(b.newElement draft).core]
  authored : b'.model.skeleton.authored = b.model.skeleton.authored
  properties : b'.model.properties = b.model.properties

/-- A relationship has been declared from `source`. -/
structure Relates (b : Builder) (source : ElementId) (b' : Builder) : Prop where
  numbered : b'.Numbered
  elements : b'.model.skeleton.elements = b.model.skeleton.elements
  authored : ∃ r : Relationship, r.source = source ∧
    b'.model.skeleton.authored = b.model.skeleton.authored ++ [r]
  properties : b'.model.properties = b.model.properties

/-! ### Relationships of other origins -/

theorem numbered_insertRelationship (numbered : b.Numbered) (source destination : ElementId)
    (description technology : String) (origin : Origin) :
    (b.insertRelationship source destination description technology origin).2.Numbered :=
  Model.Numbered.snoc_relationship numbered rfl
    (relationships_insertRelationship numbered _ _ _ _ _) rfl

/-- What comes of a declaration leaves alone what authors declare. -/
structure Follows (b b' : Builder) : Prop where
  numbered : b'.Numbered
  authored : b'.model.authored = b.model.authored

theorem follows_insertRelationship (numbered : b.Numbered) (source destination : ElementId)
    (description technology : String) {origin : Origin} (other : (origin == .explicit) = false) :
    b.Follows (b.insertRelationship source destination description technology origin).2 where
  numbered := numbered_insertRelationship numbered ..
  authored := by
    rw [Model.authored, relationships_insertRelationship numbered, List.filter_append]
    simp [newRelationship, other, Model.authored]

/-- An implied relationship follows: authors have not declared it. -/
theorem follows_addImplied (o : Relationship) (numbered : b.Numbered)
    (pair : ElementId × ElementId) : b.Follows (b.addImplied o pair) := by
  unfold addImplied
  split
  · exact follows_insertRelationship numbered _ _ _ _ rfl
  · exact ⟨numbered, rfl⟩

/-- A copied relationship follows: authors have not declared it. -/
theorem follows_addReplica (numbered : b.Numbered) (c : Replica) :
    b.Follows (b.addReplica c) := by
  unfold addReplica
  split
  · exact ⟨numbered, rfl⟩
  · exact follows_insertRelationship numbered _ _ _ _ rfl

/-- Steps that each follow what is there follow it together. -/
theorem Follows.foldl {ι : Type} {f : Builder → ι → Builder}
    (step : ∀ {b : Builder}, b.Numbered → ∀ i, b.Follows (f b i)) (numbered : b.Numbered)
    (l : List ι) : b.Follows (l.foldl f b) := by
  induction l generalizing b with
  | nil => exact ⟨numbered, rfl⟩
  | cons i rest ih =>
    have first := step numbered i
    have later := ih first.numbered
    exact ⟨later.numbered, later.authored.trans first.authored⟩

/-- Relationships that are implied belong to the one they are implied by. -/
theorem follows_implyIfEnabled (numbered : b.Numbered) (id : RelationshipId) :
    b.Follows (b.implyIfEnabled id) := by
  unfold implyIfEnabled imply
  split
  · split
    · exact ⟨numbered, rfl⟩
    · exact .foldl (follows_addImplied _) numbered _
  · exact ⟨numbered, rfl⟩

/-- Relationships between instances belong to those they mirror. -/
theorem follows_replicate (numbered : b.Numbered) (id : ElementId) :
    b.Follows (b.replicate id) := by
  unfold replicate
  split
  · exact ⟨numbered, rfl⟩
  · split
    · exact ⟨numbered, rfl⟩
    · exact .foldl follows_addReplica numbered _

/-! ### Declarations -/

theorem numbered_enterElement (numbered : b.Numbered) (draft : Element) :
    (b.enterElement draft).2.Numbered :=
  Model.Numbered.snoc_element numbered (elements_enterElement numbered _) rfl rfl

/-- An element that is inserted enters as it was drafted, under the next id. -/
theorem enters_insertElement (numbered : b.Numbered) {draft : Element} {id : ElementId}
    (inserted : insertElement draft b = .ok id b') : b.Enters draft b' ∧ id = ⟨b.nextId⟩ := by
  obtain ⟨checked, rfl, rfl⟩ := insertElement_eq_ok.mp inserted
  refine ⟨⟨checked, numbered_enterElement numbered draft, ?_, rfl, rfl⟩, rfl⟩
  simp [elements_enterElement numbered]

/-- An infrastructure node enters in the environment of the node it is placed on. -/
theorem enters_addInfrastructureNode (numbered : b.Numbered) {node id : ElementId}
    {name : String} (added : addInfrastructureNode node name b = .ok id b') :
    ∃ parent, b.model.element? node = some parent ∧ id = ⟨b.nextId⟩ ∧
      b.Enters
        { Element.draft .infrastructureNode name with
          parent := some node
          environment := parent.environment } b' := by
  obtain ⟨parent, found, inserted⟩ := ask_bind_eq_ok.mp added
  obtain ⟨enters, same⟩ := enters_insertElement numbered inserted
  exact ⟨parent, element_eq_ok.mp found, same, enters⟩

/-- An instance enters as it was drafted; what it mirrors only follows. -/
theorem enters_addInstance (numbered : b.Numbered) {node of id : ElementId}
    (added : addInstance node of b = .ok id b') :
    ∃ draft, b.instanceDraft node of = .ok draft ∧ id = ⟨b.nextId⟩ ∧ b.Enters draft b' := by
  have properties : b'.model.properties = b.model.properties :=
    Call.keeps_modelProperties (.addInstance node of) rfl b _ b' added
  obtain ⟨draft, _, answer, inserted, rfl⟩ := addInstance_eq_ok.mp added
  obtain ⟨checked, rfl, rfl⟩ := insertElement_eq_ok.mp inserted
  have follows := follows_replicate (numbered_enterElement numbered draft) (b.enterElement draft).1
  refine ⟨draft, answer, rfl, checked, follows.numbered, ?_, ?_, properties⟩
  · simp [elements_replicate, elements_enterElement numbered]
  · simp only [Model.authored_skeleton, follows.authored]
    rfl

/-- A relationship that is added is the one new explicit relationship, and starts where it
should. -/
theorem relates_addRelationship (numbered : b.Numbered) {source destination : ElementId}
    {description technology : String} {id : RelationshipId}
    (added : addRelationship source destination description technology b = .ok id b') :
    b.Relates source b' := by
  have properties : b'.model.properties = b.model.properties :=
    Call.keeps_modelProperties (.addRelationship source destination description technology) rfl
      b _ b' added
  obtain ⟨-, rfl, rfl⟩ := addRelationship_eq_ok.mp added
  let r := b.newRelationship source destination description technology .explicit
  have follows := follows_implyIfEnabled
    (numbered_insertRelationship numbered source destination description technology .explicit) r.id
  refine ⟨follows.numbered, ?_, ⟨r.core, rfl, ?_⟩, properties⟩
  · simp only [Model.skeleton_elements, elements_implyIfEnabled]
    rfl
  · rw [Model.authored_skeleton, follows.authored, Model.authored,
      relationships_insertRelationship numbered, List.filter_append, List.map_append,
      Model.authored_skeleton]
    rfl

/-- Silent calls leave alone what authors declare. -/
theorem LeadsSilent.skeleton_eq (run : LeadsSilent b b') : b'.model.skeleton = b.model.skeleton :=
  congrArg Prod.fst run.stock_eq

end Builder

end Edifice
