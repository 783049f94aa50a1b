import Edifice.Proofs.Builder.Refusal
import Edifice.Proofs.Builder.Stock
import Edifice.Proofs.Model.Extension
import Mathlib.Logic.Relation

/-!
How a workspace grows.

Whatever the calls do to the stock of elements and relationships comes down to single
steps (`Grows`): an element is entered under the next number, or a relationship is added
under it, by its author, by implication or by replication.  A call that succeeds is a run
of such steps (`Call.evolves`), and so is every run of calls (`Leads.evolves`).  What is
true without contents and kept by every step therefore holds of every reachable builder.
-/

open Edifice.Change

namespace Edifice.Builder

/-- The elements that calls declare. -/
inductive Drafted (b : Builder) : Element → Prop where
  | person (name : String) (group : Option String) :
      Drafted b { Element.draft .person name with group }
  | softwareSystem (name : String) (group : Option String) :
      Drafted b { Element.draft .softwareSystem name with group }
  | container (system : ElementId) (name : String) (group : Option String) :
      Drafted b { Element.draft .container name with parent := some system, group }
  | component (container : ElementId) (name : String) (group : Option String) :
      Drafted b { Element.draft .component name with parent := some container, group }
  | customElement (name : String) (metadata group : Option String) :
      Drafted b { Element.draft .customElement name with metadata, group }
  | deploymentNode (environment : String) (parent : Option ElementId) (name : String) :
      Drafted b
        { Element.draft .deploymentNode name with parent, environment := some environment }
  | infrastructureNode {parent : Element} (member : parent ∈ b.model.elements)
      (name : String) :
      Drafted b
        { Element.draft .infrastructureNode name with
          parent := some parent.id
          environment := parent.environment }
  | copy {node of : ElementId} {draft : Element}
      (answer : b.instanceDraft node of = .ok draft) : Drafted b draft

/-- The relationships that come to be: declared by the author, implied by one that is, or
copied onto an instance. -/
inductive Joined (b : Builder) :
    ElementId → ElementId → String → String → Origin → Prop where
  | explicit {source destination : ElementId} {description technology : String}
      (checked : b.checkRelationship source destination description = .ok ()) :
      Joined b source destination description technology .explicit
  | implied {o : Relationship} {source destination : ElementId}
      (member : o ∈ b.model.relationships) (declared : o.origin = .explicit)
      (above : source ∈ b.model.lineage o.source)
      (above' : destination ∈ b.model.lineage o.destination)
      (other : (source, destination) ≠ (o.source, o.destination))
      (room : b.model.canImply source destination) :
      Joined b source destination o.description o.technology (.implied o.id)
  | replicated {placed : Element} {of : ElementId} {c : Replica}
      (member : placed ∈ b.model.elements) (deploys : placed.instanceOf = some of)
      (called : c ∈ b.model.replicas placed of)
      (new : b.model.hasDescribed c.source c.destination c.origin.description = false) :
      Joined b c.source c.destination c.origin.description c.origin.technology
        (.replicated c.origin.id)

/-- `Grows b b'`: one step leads from the stock of `b` to the stock of `b'`. -/
inductive Grows (b : Builder) : Builder → Prop where
  | same {b' : Builder} (stock : b'.stock = b.stock) : Grows b b'
  | element {draft : Element} (drafted : b.Drafted draft)
      (checked : b.checkElement draft = .ok ()) : Grows b (b.enterElement draft).2
  | relationship {source destination : ElementId} {description technology : String}
      {origin : Origin}
      (joined : b.Joined source destination description technology origin) :
      Grows b (b.insertRelationship source destination description technology origin).2

/-- One step after the other leads from the stock of `b` to the stock of `b'`. -/
abbrev Evolves : Builder → Builder → Prop :=
  Relation.ReflTransGen Grows

variable {b b' : Builder}

/-- The numbering of a builder: the ids in use are the numbers below the next one. -/
abbrev Numbered (b : Builder) : Prop :=
  b.model.Numbered b.nextId

/-! ### Numbers -/

/-- The numbering is a matter of the stock. -/
theorem Numbered.of_stock_eq (numbered : b.Numbered) (same : b'.stock = b.stock) :
    b'.Numbered := by
  obtain ⟨skeleton, nextId, -⟩ : b'.model.skeleton = b.model.skeleton ∧
      b'.nextId = b.nextId ∧ b'.topLevelNames = b.topLevelNames := by
    simpa [stock] using same
  unfold Numbered
  rw [← Model.numbered_skeleton, skeleton, nextId, Model.numbered_skeleton]
  exact numbered

theorem elements_enterElement (numbered : b.Numbered) (draft : Element) :
    (b.enterElement draft).2.model.elements = b.model.elements ++ [b.newElement draft] :=
  numbered.elements_putElement rfl

/-- A relationship that is inserted goes to the end, as its id is new. -/
theorem relationships_insertRelationship (numbered : b.Numbered)
    (source destination : ElementId) (description technology : String) (origin : Origin) :
    (b.insertRelationship source destination description technology
        origin).2.model.relationships =
      b.model.relationships ++
        [b.newRelationship source destination description technology origin] :=
  numbered.relationships_putRelationship rfl

theorem mem_insertRelationship (numbered : b.Numbered) (source destination : ElementId)
    (description technology : String) (origin : Origin) :
    b.newRelationship source destination description technology origin ∈
      (b.insertRelationship source destination description technology
        origin).2.model.relationships := by
  rw [relationships_insertRelationship numbered]
  exact List.mem_append_right _ (List.mem_singleton_self _)

/-- A step keeps the numbering: what it adds takes the next number. -/
theorem Grows.numbered (step : Grows b b') (numbered : b.Numbered) : b'.Numbered := by
  cases step with
  | same stock => exact numbered.of_stock_eq stock
  | element =>
    exact Model.Numbered.snoc_element numbered (elements_enterElement numbered _) rfl rfl
  | relationship =>
    exact Model.Numbered.snoc_relationship numbered rfl
      (relationships_insertRelationship numbered _ _ _ _ _) rfl

/-- A step adds to the model and takes nothing away. -/
theorem Grows.extends_ (step : Grows b b') (numbered : b.Numbered) :
    b.model.Extends b'.model := by
  cases step with
  | same stock => exact .of_skeleton_eq (congrArg Prod.fst stock)
  | element =>
    refine ⟨?_, List.prefix_refl _⟩
    simp [elements_enterElement numbered]
  | relationship =>
    refine ⟨List.prefix_refl _, ?_⟩
    simp [relationships_insertRelationship numbered]

/-- The elements after a step are those before it, up to what may be changed about them,
and the one that is entered. -/
theorem Grows.mem_elements (step : Grows b b') (numbered : b.Numbered) {e' : Element}
    (member : e' ∈ b'.model.elements) :
    (∃ e ∈ b.model.elements, e'.core = e.core) ∨
      ∃ draft, b.Drafted draft ∧ b.checkElement draft = .ok () ∧ e' = b.newElement draft := by
  cases step with
  | same stock =>
    obtain ⟨e, member, same⟩ :=
      Model.exists_element_of_skeleton_eq (congrArg Prod.fst stock).symm member
    exact .inl ⟨e, member, same.symm⟩
  | @element draft drafted checked =>
    rw [elements_enterElement numbered draft, List.mem_append, List.mem_singleton] at member
    exact member.imp (fun member => ⟨e', member, rfl⟩) fun entered =>
      ⟨draft, drafted, checked, entered⟩
  | relationship => exact .inl ⟨e', member, rfl⟩

/-- The relationships after a step are those before it, up to what may be changed about
them, and the one that comes to be. -/
theorem Grows.mem_relationships (step : Grows b b') (numbered : b.Numbered)
    {r' : Relationship} (member : r' ∈ b'.model.relationships) :
    (∃ r ∈ b.model.relationships, r'.core = r.core) ∨
      ∃ source destination description technology origin,
        b.Joined source destination description technology origin ∧
          r' = b.newRelationship source destination description technology origin := by
  cases step with
  | same stock =>
    obtain ⟨r, member, same⟩ :=
      Model.exists_relationship_of_skeleton_eq (congrArg Prod.fst stock).symm member
    exact .inl ⟨r, member, same.symm⟩
  | element => exact .inl ⟨r', member, rfl⟩
  | relationship joined =>
    rw [relationships_insertRelationship numbered, List.mem_append,
      List.mem_singleton] at member
    exact member.imp (fun member => ⟨r', member, rfl⟩) fun added =>
      ⟨_, _, _, _, _, joined, added⟩

theorem Evolves.numbered (run : Evolves b b') (numbered : b.Numbered) : b'.Numbered := by
  induction run with
  | refl => exact numbered
  | tail _ step ih => exact step.numbered ih

theorem Evolves.extends_ (run : Evolves b b') (numbered : b.Numbered) :
    b.model.Extends b'.model := by
  induction run with
  | refl => exact .refl _
  | tail earlier step ih => exact ih.trans (step.extends_ (Evolves.numbered earlier numbered))

/-- A loop whose steps grow the workspace and keep what they need grows it, and keeps it. -/
theorem Evolves.foldl {α : Type} {f : Builder → α → Builder} {I : Builder → Prop}
    {l : List α} (step : ∀ a ∈ l, ∀ b, I b → Grows b (f b a) ∧ I (f b a)) (start : I b) :
    Evolves b (l.foldl f b) ∧ I (l.foldl f b) := by
  induction l generalizing b with
  | nil => exact ⟨.refl, start⟩
  | cons a rest ih =>
    obtain ⟨first, kept⟩ := step a (List.mem_cons_self ..) b start
    obtain ⟨further, kept⟩ := ih (fun a' member => step a' (List.mem_cons_of_mem a member)) kept
    exact ⟨.head first further, kept⟩

/-! ### Implied relationships -/

/-- The pairs that a relationship is lifted to are those of its ends and what is around each.
-/
theorem mem_liftedPairs {m : Model} {source destination : ElementId}
    {pair : ElementId × ElementId} :
    pair ∈ m.liftedPairs source destination ↔
      pair.1 ∈ m.lineage source ∧ pair.2 ∈ m.lineage destination := by
  obtain ⟨s, d⟩ := pair
  simp [Model.liftedPairs]

/-- Whether there is room for it or not, the relationship that is implied between two
elements is a step, and adds to the relationships alone. -/
theorem grows_addImplied {o : Relationship} (numbered : b.Numbered)
    (member : o ∈ b.model.relationships) (declared : o.origin = .explicit)
    {pair : ElementId × ElementId} (lifted : pair ∈ b.model.liftedPairs o.source o.destination) :
    Grows b (addImplied o b pair) ∧ (addImplied o b pair).model.elements = b.model.elements ∧
      o ∈ (addImplied o b pair).model.relationships := by
  unfold addImplied
  split
  case isTrue free =>
    obtain ⟨above, above'⟩ := mem_liftedPairs.mp lifted
    refine ⟨.relationship (.implied member declared above above' free.1 free.2), rfl, ?_⟩
    rw [relationships_insertRelationship numbered]
    exact List.mem_append_left _ member
  case isFalse => exact ⟨.same rfl, rfl, member⟩

/-- Adding what is implied between pairs, one after the other, adds to the relationships
alone. -/
theorem evolves_foldl_addImplied {o : Relationship} (numbered : b.Numbered)
    (member : o ∈ b.model.relationships) (declared : o.origin = .explicit)
    {pairs : List (ElementId × ElementId)}
    (lifted : pairs ⊆ b.model.liftedPairs o.source o.destination) :
    Evolves b (pairs.foldl (addImplied o) b) ∧
      (pairs.foldl (addImplied o) b).model.elements = b.model.elements ∧
        o ∈ (pairs.foldl (addImplied o) b).model.relationships := by
  let I (b' : Builder) : Prop :=
    b'.Numbered ∧ b'.model.elements = b.model.elements ∧ o ∈ b'.model.relationships
  have step : ∀ pair ∈ pairs, ∀ b', I b' → Grows b' (addImplied o b' pair) ∧
      I (addImplied o b' pair) := by
    rintro pair listed b' ⟨numbered', same, member'⟩
    have lifted' := lifted listed
    rw [mem_liftedPairs, ← Model.lineage_congr same, ← Model.lineage_congr same,
      ← mem_liftedPairs] at lifted'
    obtain ⟨step, same', member''⟩ := grows_addImplied numbered' member' declared lifted'
    exact ⟨step, step.numbered numbered', same'.trans same, member''⟩
  obtain ⟨run, -, same, kept⟩ := Evolves.foldl step ⟨numbered, rfl, member⟩
  exact ⟨run, same, kept⟩

theorem imply_eq {o : Relationship} (numbered : b.Numbered)
    (member : o ∈ b.model.relationships) :
    b.imply o.id = (b.model.liftedPairs o.source o.destination).foldl (addImplied o) b := by
  simp only [imply, numbered.relationship?_of_mem member]

/-- The relationships implied by an explicit one are grown one by one, or not at all. -/
theorem evolves_implyIfEnabled {o : Relationship} (numbered : b.Numbered)
    (member : o ∈ b.model.relationships) (declared : o.origin = .explicit) :
    Evolves b (b.implyIfEnabled o.id) := by
  unfold implyIfEnabled
  split
  · rw [imply_eq numbered member]
    exact (evolves_foldl_addImplied numbered member declared (List.Subset.refl _)).1
  · exact .refl

/-- A relationship is added exactly if it passes the checks; its implied ones follow. -/
theorem addRelationship_eq_ok {source destination : ElementId} {description technology : String}
    {id : RelationshipId} :
    addRelationship source destination description technology b = .ok id b' ↔
      b.checkRelationship source destination description = .ok () ∧
        id = (b.newRelationship source destination description technology .explicit).id ∧
        b' = (b.insertRelationship source destination description technology
          .explicit).2.implyIfEnabled id := by
  rw [addRelationship, ask_then_eq_ok]
  simp only [bind_eq_ok, modifyGet_eq_ok, modify_eq_ok, pure_eq_ok]
  constructor
  · rintro ⟨checked, id', b₁, inserted, _, _, rfl, rfl, rfl⟩
    obtain ⟨rfl, rfl⟩ := Prod.ext_iff.mp inserted
    exact ⟨checked, rfl, rfl⟩
  · rintro ⟨checked, rfl, rfl⟩
    exact ⟨checked, _, _, rfl, (), _, rfl, rfl, rfl⟩

/-- To add a relationship is to insert it and then what it implies. -/
theorem evolves_addRelationship (numbered : b.Numbered) {source destination : ElementId}
    {description technology : String} {id : RelationshipId}
    (added : addRelationship source destination description technology b = .ok id b') :
    Evolves b b' := by
  obtain ⟨checked, rfl, rfl⟩ := addRelationship_eq_ok.mp added
  have joined : b.Joined source destination description technology .explicit := .explicit checked
  have step := Grows.relationship joined
  exact .head step (evolves_implyIfEnabled (step.numbered numbered)
    (mem_insertRelationship numbered source destination description technology .explicit) rfl)

/-! ### Replicated relationships -/

/-- The copies an instance calls for: one for each declared relationship, in either
direction, between what it deploys and what another instance of its environment deploys. -/
theorem mem_replicas {m : Model} {placed : Element} {of : ElementId} {c : Replica} :
    c ∈ m.replicas placed of ↔
      ∃ peer ∈ m.elements, ∃ peerOf, peer.id ≠ placed.id ∧
        peer.environment = placed.environment ∧ peer.instanceOf = some peerOf ∧
        ((∃ r ∈ m.declaredBetween of peerOf, c = ⟨placed.id, peer.id, r⟩) ∨
          ∃ r ∈ m.declaredBetween peerOf of, c = ⟨peer.id, placed.id, r⟩) := by
  simp only [Model.replicas, Model.peers, List.mem_flatMap, List.mem_filterMap, List.mem_append,
    List.mem_map]
  constructor
  · rintro ⟨⟨id, peerOf⟩, ⟨peer, member, listed⟩, copied⟩
    split at listed
    case isFalse => cases listed
    case isTrue near =>
      obtain ⟨_, deploys, same⟩ := Option.map_eq_some_iff.mp listed
      obtain ⟨rfl, rfl⟩ := Prod.mk.inj same
      refine ⟨peer, member, _, near.1, near.2, deploys, ?_⟩
      exact copied.imp (fun ⟨r, between, own⟩ => ⟨r, between, own.symm⟩)
        fun ⟨r, between, own⟩ => ⟨r, between, own.symm⟩
  · rintro ⟨peer, member, peerOf, other, near, deploys, copied⟩
    refine ⟨(peer.id, peerOf), ⟨peer, member, by simp [other, near, deploys]⟩, ?_⟩
    exact copied.imp (fun ⟨r, between, own⟩ => ⟨r, between, own.symm⟩)
      fun ⟨r, between, own⟩ => ⟨r, between, own.symm⟩

/-- More relationships call for more copies. -/
theorem replicas_mono {m m' : Model} (same : m'.elements = m.elements)
    (more : m.relationships ⊆ m'.relationships) (placed : Element) (of : ElementId) :
    m.replicas placed of ⊆ m'.replicas placed of := by
  have declared : ∀ s d, m.declaredBetween s d ⊆ m'.declaredBetween s d := fun s d =>
    List.filter_subset _ (List.filter_subset _ more)
  intro c called
  obtain ⟨peer, member, peerOf, other, near, deploys, copied⟩ := mem_replicas.mp called
  refine mem_replicas.mpr ⟨peer, same ▸ member, peerOf, other, near, deploys, ?_⟩
  exact copied.imp (fun ⟨r, between, own⟩ => ⟨r, declared _ _ between, own⟩)
    fun ⟨r, between, own⟩ => ⟨r, declared _ _ between, own⟩

/-- Whether there is one already or not, a copy is a step, and adds to the relationships
alone. -/
theorem grows_addReplica {placed : Element} {of : ElementId} (numbered : b.Numbered)
    (member : placed ∈ b.model.elements) (deploys : placed.instanceOf = some of) {c : Replica}
    (called : c ∈ b.model.replicas placed of) :
    Grows b (addReplica b c) ∧ (addReplica b c).model.elements = b.model.elements ∧
      b.model.relationships ⊆ (addReplica b c).model.relationships := by
  unfold addReplica
  split
  case isTrue => exact ⟨.same rfl, rfl, List.Subset.refl _⟩
  case isFalse new =>
    refine ⟨.relationship (.replicated member deploys called (by simpa using new)), rfl, ?_⟩
    rw [relationships_insertRelationship numbered]
    exact List.subset_append_left _ _

/-- Replication inserts between instances, one by one, what relates their originals. -/
theorem evolves_replicate (numbered : b.Numbered) (id : ElementId) :
    Evolves b (b.replicate id) := by
  unfold replicate
  cases found : b.model.element? id with
  | none => exact .refl
  | some placed =>
    cases deploys : placed.instanceOf with
    | none => simpa only [deploys] using Relation.ReflTransGen.refl
    | some of =>
      simp only [deploys]
      have member := (Model.element?_eq_some found).1
      refine (Evolves.foldl
        (I := fun b' => b'.Numbered ∧ b'.model.elements = b.model.elements ∧
          b.model.relationships ⊆ b'.model.relationships)
        (fun c called b' kept => ?_) ⟨numbered, rfl, List.Subset.refl _⟩).1
      obtain ⟨numbered', same, more⟩ := kept
      obtain ⟨step, same', more'⟩ := grows_addReplica numbered' (same ▸ member) deploys
        (replicas_mono same more placed of called)
      exact ⟨step, step.numbered numbered', same'.trans same, List.Subset.trans more more'⟩

/-! ### Calls -/

/-- An element that is inserted has passed the checks of its draft. -/
theorem grows_insertElement {draft : Element} (drafted : b.Drafted draft) {id : ElementId}
    (inserted : insertElement draft b = .ok id b') : Grows b b' := by
  obtain ⟨checked, -, rfl⟩ := insertElement_eq_ok.mp inserted
  exact .element drafted checked

/-- An infrastructure node that is added has passed the checks of its draft. -/
theorem grows_addInfrastructureNode {node id : ElementId} {name : String}
    (added : addInfrastructureNode node name b = .ok id b') : Grows b b' := by
  obtain ⟨parent, found, inserted⟩ := ask_bind_eq_ok.mp added
  obtain ⟨member, rfl⟩ := Model.element?_eq_some (element_eq_ok.mp found)
  exact grows_insertElement (.infrastructureNode member name) inserted

/-- An instance is declared first, and what it mirrors follows. -/
theorem evolves_addInstance (numbered : b.Numbered) {node of id : ElementId}
    (added : addInstance node of b = .ok id b') : Evolves b b' := by
  obtain ⟨draft, b₁, answer, inserted, rfl⟩ := addInstance_eq_ok.mp added
  have step : Grows b b₁ := grows_insertElement (.copy answer) inserted
  exact .head step (evolves_replicate (step.numbered numbered) id)

/-- A call that succeeds is a run of steps. -/
theorem Call.evolves (c : Call) (numbered : b.Numbered) {a : c.Answer}
    (done : c.perform b = .ok a b') : Evolves b b' := by
  have step : ∀ {b₁}, Grows b b₁ → Evolves b b₁ := .single
  cases c with
  | addPerson name group => exact step (grows_insertElement (.person name group) done)
  | addSoftwareSystem name group =>
    exact step (grows_insertElement (.softwareSystem name group) done)
  | addContainer system name group =>
    exact step (grows_insertElement (.container system name group) done)
  | addComponent container name group =>
    exact step (grows_insertElement (.component container name group) done)
  | addCustomElement name metadata group =>
    exact step (grows_insertElement (.customElement name _ group) done)
  | addDeploymentNode environment parent name =>
    exact step (grows_insertElement (.deploymentNode environment parent name) done)
  | addInfrastructureNode node name => exact step (grows_addInfrastructureNode done)
  | addInstance node of => exact evolves_addInstance numbered done
  | addRelationship => exact evolves_addRelationship numbered done
  | _ => exact step (.same (Call.keeps_stock _ rfl b a b' done))

/-- A call, refused or not, is a run of steps. -/
theorem Call.evolves_after (c : Call) (numbered : b.Numbered) :
    Evolves b (c.perform.after b) :=
  c.holds_after .refl fun _ _ => c.evolves numbered

/-- A run of calls is a run of steps. -/
theorem Leads.evolves (run : Leads b b') (numbered : b.Numbered) : Evolves b b' := by
  induction run with
  | refl => exact .refl
  | call earlier c ih => exact ih.trans (c.evolves_after (Evolves.numbered ih numbered))

/-! ### Reachable builders -/

/-- The builders that steps lead to from a workspace without contents. -/
def Grown (b : Builder) : Prop :=
  ∃ name description, Evolves (new name description) b

/-- What holds without contents, and is kept by every step, holds of every builder that has
grown. -/
theorem Grown.induction {I : Builder → Prop} (grown : Grown b)
    (start : ∀ name description, I (new name description))
    (step : ∀ b b', Grown b → Grows b b' → I b → I b') : I b := by
  obtain ⟨name, description, run⟩ := grown
  induction run with
  | refl => exact start name description
  | tail earlier next ih => exact step _ _ ⟨name, description, earlier⟩ next ih

theorem numbered_new (name description : String) : (new name description).Numbered :=
  ⟨Nat.le_refl 1, .nil, .nil, .refl _⟩

theorem Grown.numbered (grown : Grown b) : b.Numbered :=
  grown.induction numbered_new fun _ _ _ step => step.numbered

theorem Grown.evolves (grown : Grown b) (run : Evolves b b') : Grown b' := by
  obtain ⟨name, description, earlier⟩ := grown
  exact ⟨name, description, earlier.trans run⟩

theorem Reachable.grown (reachable : Reachable b) : Grown b := by
  obtain ⟨name, description, run⟩ := reachable
  exact ⟨name, description, run.evolves (numbered_new name description)⟩

end Edifice.Builder
