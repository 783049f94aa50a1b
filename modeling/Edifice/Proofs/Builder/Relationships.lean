import Edifice.Proofs.Builder.Containment

/-!
Relationships in reachable builders.

Three ways lead to a new relationship, each with checks of its own, and `Joined.relatable`
and `Joined.new` say of all three that the ends may be related and that no relationship is
there with the same ends and description.  For a copy the checks alone do not say so: its
ends are instances, which contain nothing.  Elements that may be related stay so while the
model grows, since they keep their ancestors.
-/

namespace Edifice

/-- Instances contain nothing. -/
theorem ElementKind.isInstance_of_canContain {parent child : ElementKind}
    (contains : parent.canContain child) : parent.isInstance = false := by
  cases parent <;> first | rfl | (cases child <;> cases contains)

/-- What is deployed is deployed by an instance. -/
theorem ElementKind.isInstance_of_instanceKind? {deployed kind : ElementKind}
    (deploys : deployed.instanceKind? = some kind) : kind.isInstance := by
  cases deployed <;> simp [instanceKind?] at deploys <;> subst deploys <;> rfl

namespace Model

variable {m m' : Model}

/-- A relationship may lead from `source` to `destination`: both are elements, neither
contains the other, and they are the same only if that is a component. -/
structure Relatable (m : Model) (source destination : ElementId) : Prop where
  source_declared : m.Declares source
  destination_declared : m.Declares destination
  self_component : source = destination →
    ∃ e ∈ m.elements, e.id = source ∧ e.kind = .component
  not_around : m.isAncestor source destination = false
  not_inside : m.isAncestor destination source = false

/-- All relationships lead between elements that may be related. -/
def Related (m : Model) : Prop :=
  ∀ r ∈ m.relationships, m.Relatable r.source r.destination

/-- No two relationships share source, destination and description. -/
def Distinct (m : Model) : Prop :=
  (m.relationships.map fun r => (r.source, r.destination, r.description)).Nodup

/-- Nothing but an instance deploys anything. -/
def InstancesDeploy (m : Model) : Prop :=
  ∀ e ∈ m.elements, e.instanceOf.isSome → e.kind.isInstance

/-- Elements that may be related may be related in every model that extends theirs. -/
theorem Relatable.extends_ {source destination : ElementId}
    (relatable : m.Relatable source destination) (extends_ : m.Extends m')
    (nested : m.Nested) : m'.Relatable source destination where
  source_declared := extends_.declares relatable.source_declared
  destination_declared := extends_.declares relatable.destination_declared
  self_component same := by
    obtain ⟨e, member, own, component⟩ := relatable.self_component same
    obtain ⟨e', member', core⟩ := extends_.exists_element member
    obtain ⟨id, kind, -⟩ := Element.core_eq_iff.mp core
    exact ⟨e', member', id.trans own, kind.trans component⟩
  not_around := by
    rw [extends_.isAncestor_eq nested source relatable.destination_declared]
    exact relatable.not_around
  not_inside := by
    rw [extends_.isAncestor_eq nested destination relatable.source_declared]
    exact relatable.not_inside

/-- An element that may contain nothing contains nothing. -/
theorem Nested.not_isAncestor_of_instance (nested : m.Nested) {next : Nat}
    (numbered : m.Numbered next) {e : Element} (member : e ∈ m.elements)
    (placed : e.kind.isInstance) (id : ElementId) : m.isAncestor e.id id = false := by
  refine Bool.eq_false_iff.mpr fun contained => ?_
  obtain ⟨child, inside⟩ := nested.exists_child (isAncestor_iff.mp contained)
  obtain ⟨x, -, -, p, member', own, -, contains⟩ := nested.parent?_spec inside
  obtain rfl := numbered.element_eq_of_id member' member own
  simp [ElementKind.isInstance_of_canContain contains] at placed

/-! ### What the checks say -/

/-- No relationship is found under a description exactly if none has these ends and the
description. -/
theorem hasDescribed_eq_false {source destination : ElementId} {description : String} :
    m.hasDescribed source destination description = false ↔
      ∀ r ∈ m.relationships,
        (r.source, r.destination, r.description) ≠ (source, destination, description) := by
  simp [hasDescribed, between]

theorem hasRelationship_eq_false {source destination : ElementId} :
    m.hasRelationship source destination = false ↔
      ∀ r ∈ m.relationships, (r.source, r.destination) ≠ (source, destination) := by
  simp [hasRelationship, between]

/-- A relationship may be implied between two elements neither of which contains the other and
which are not related yet. -/
theorem canImply_iff {source destination : ElementId} :
    m.canImply source destination ↔
      source ≠ destination ∧ m.isAncestor source destination = false ∧
        m.isAncestor destination source = false ∧
          m.hasRelationship source destination = false := by
  simp [canImply, and_assoc]

theorem checkRelationship_eq_ok {s d : Element} {description : String} :
    m.checkRelationship s d description = .ok () ↔
      (s.id = d.id → s.kind.allowsSelfRelationship) ∧ m.isAncestor s.id d.id = false ∧
        m.isAncestor d.id s.id = false ∧ m.hasDescribed s.id d.id description = false := by
  simp [checkRelationship]

end Model

namespace Builder

variable {b b' : Builder}

theorem checkRelationship_eq_ok {source destination : ElementId} {description : String} :
    b.checkRelationship source destination description = .ok () ↔
      ∃ s d, b.model.element? source = some s ∧ b.model.element? destination = some d ∧
        b.model.checkRelationship s d description = .ok () := by
  simp [checkRelationship, Check.bind_eq_ok, element_eq_ok]

/-- What is declared as an instance: on an element that is there, of an element that can be
deployed and is not deployed there yet. -/
theorem instanceDraft_eq_ok {node of : ElementId} {draft : Element}
    (answer : b.instanceDraft node of = .ok draft) :
    ∃ deployed kind parent, b.model.element? of = some deployed ∧
      deployed.kind.instanceKind? = some kind ∧ b.model.element? node = some parent ∧
      (∀ e ∈ b.model.childrenOf node, e.instanceOf ≠ some of) ∧
      draft = { Element.draft kind deployed.name with
        parent := some node
        environment := parent.environment
        instanceOf := some of
        instanceIndex := some (b.model.instanceCount of parent.environment + 1) } := by
  simp only [instanceDraft, Check.bind_eq_ok, element_eq_ok] at answer
  obtain ⟨deployed, found, answer⟩ := answer
  cases deploys : deployed.kind.instanceKind? with
  | none => simp [deploys] at answer
  | some kind =>
    simp only [deploys, Check.bind_eq_ok, element_eq_ok] at answer
    obtain ⟨parent, found', answer⟩ := answer
    simp at answer
    exact ⟨deployed, kind, parent, found, deploys, found', answer.1, answer.2.symm⟩

/-! ### Instances -/

/-- What is declared deploys something only as an instance. -/
theorem Drafted.isInstance {draft : Element} (drafted : b.Drafted draft)
    (deploys : draft.instanceOf.isSome) : draft.kind.isInstance := by
  cases drafted with
  | copy answer =>
    obtain ⟨deployed, kind, parent, -, kind_of, -, -, rfl⟩ := instanceDraft_eq_ok answer
    exact ElementKind.isInstance_of_instanceKind? kind_of
  | _ => cases deploys

/-- What an instance deploys stays what it is while the model grows. -/
theorem Grows.instancesDeploy (step : Grows b b') (numbered : b.Numbered)
    (deploy : b.model.InstancesDeploy) : b'.model.InstancesDeploy := by
  intro e' member
  rcases step.mem_elements numbered member with ⟨e, member, same⟩ | ⟨draft, drafted, -, rfl⟩
  · obtain ⟨-, kind, -, -, -, -, -, instanceOf, -⟩ := Element.core_eq_iff.mp same
    simpa only [kind, instanceOf] using deploy e member
  · exact drafted.isInstance

theorem Grown.instancesDeploy (grown : Grown b) : b.model.InstancesDeploy :=
  grown.induction (fun _ _ => List.forall_mem_nil _) fun _ _ earlier step =>
    step.instancesDeploy earlier.numbered

/-! ### New relationships -/

/-- A relationship that comes to be leads between elements that may be related. -/
theorem Joined.relatable {source destination : ElementId} {description technology : String}
    {origin : Origin} (joined : b.Joined source destination description technology origin)
    (numbered : b.Numbered) (nested : b.model.Nested) (deploy : b.model.InstancesDeploy)
    (related : b.model.Related) : b.model.Relatable source destination := by
  cases joined with
  | explicit checked =>
    obtain ⟨s, d, found, found', passed⟩ := checkRelationship_eq_ok.mp checked
    obtain ⟨member, rfl⟩ := Model.element?_eq_some found
    obtain ⟨member', rfl⟩ := Model.element?_eq_some found'
    obtain ⟨self, not_around, not_inside, -⟩ := Model.checkRelationship_eq_ok.mp passed
    refine ⟨⟨s, member, rfl⟩, ⟨d, member', rfl⟩, fun same => ?_, not_around, not_inside⟩
    refine ⟨s, member, rfl, ?_⟩
    have allowed := self same
    cases kind : s.kind <;> simp_all [ElementKind.allowsSelfRelationship]
  | @implied o _ _ member _ above above' _ room =>
    obtain ⟨different, not_around, not_inside, -⟩ := Model.canImply_iff.mp room
    have ends := related o member
    exact ⟨nested.declares_lineage ends.source_declared above,
      nested.declares_lineage ends.destination_declared above',
      fun same => absurd same different, not_around, not_inside⟩
  | @replicated placed of c member deploys called new =>
    obtain ⟨peer, member', peerOf, other, -, deploys', copied⟩ := mem_replicas.mp called
    have placed_instance := deploy placed member (by simp [deploys])
    have peer_instance := deploy peer member' (by simp [deploys'])
    have apart := nested.not_isAncestor_of_instance numbered member placed_instance peer.id
    have apart' := nested.not_isAncestor_of_instance numbered member' peer_instance placed.id
    rcases copied with ⟨r, -, rfl⟩ | ⟨r, -, rfl⟩
    · exact ⟨⟨placed, member, rfl⟩, ⟨peer, member', rfl⟩, fun same => absurd same.symm other,
        apart, apart'⟩
    · exact ⟨⟨peer, member', rfl⟩, ⟨placed, member, rfl⟩, fun same => absurd same other,
        apart', apart⟩

/-- A relationship that comes to be shares its ends and its description with none that is
there. -/
theorem Joined.new {source destination : ElementId} {description technology : String}
    {origin : Origin} (joined : b.Joined source destination description technology origin) :
    ∀ r ∈ b.model.relationships,
      (r.source, r.destination, r.description) ≠ (source, destination, description) := by
  cases joined with
  | explicit checked =>
    obtain ⟨s, d, found, found', passed⟩ := checkRelationship_eq_ok.mp checked
    obtain ⟨-, rfl⟩ := Model.element?_eq_some found
    obtain ⟨-, rfl⟩ := Model.element?_eq_some found'
    exact Model.hasDescribed_eq_false.mp (Model.checkRelationship_eq_ok.mp passed).2.2.2
  | implied _ _ _ _ _ room =>
    have free := Model.hasRelationship_eq_false.mp (Model.canImply_iff.mp room).2.2.2
    intro r member same
    exact free r member (by simp_all)
  | replicated _ _ _ new => exact Model.hasDescribed_eq_false.mp new

/-! ### All relationships -/

/-- A step keeps the relationships apart. -/
theorem Grows.distinct (step : Grows b b') (numbered : b.Numbered)
    (distinct : b.model.Distinct) : b'.model.Distinct := by
  cases step with
  | same stock =>
    have cores : b'.model.relationships.map Relationship.core =
        b.model.relationships.map Relationship.core := congrArg (·.1.relationships) stock
    have ends := congrArg (List.map fun r => (r.source, r.destination, r.description)) cores
    simp only [List.map_map, Function.comp_def, Relationship.core_source,
      Relationship.core_destination, Relationship.core_description] at ends
    unfold Model.Distinct
    rwa [ends]
  | element => exact distinct
  | relationship joined =>
    unfold Model.Distinct
    rw [relationships_insertRelationship numbered, List.map_append, List.map_singleton]
    refine List.nodup_append.mpr ⟨distinct, List.pairwise_singleton _ _, ?_⟩
    rintro _ listed _ last rfl
    obtain ⟨r, member, same⟩ := List.mem_map.mp listed
    exact joined.new r member (same.trans (List.mem_singleton.mp last))

/-- A step keeps the relationships between elements that may be related. -/
theorem Grows.related (step : Grows b b') (numbered : b.Numbered) (nested : b.model.Nested)
    (deploy : b.model.InstancesDeploy) (related : b.model.Related) : b'.model.Related := by
  have extends_ := step.extends_ numbered
  intro r' member
  rcases step.mem_relationships numbered member with
    ⟨r, member, same⟩ | ⟨_, _, _, _, _, joined, rfl⟩
  · obtain ⟨-, source, destination, -⟩ := Relationship.core_eq_iff.mp same
    exact source ▸ destination ▸ (related r member).extends_ extends_ nested
  · exact (joined.relatable numbered nested deploy related).extends_ extends_ nested

theorem Grown.distinct (grown : Grown b) : b.model.Distinct :=
  grown.induction (fun _ _ => .nil) fun _ _ earlier step => step.distinct earlier.numbered

theorem Grown.related (grown : Grown b) : b.model.Related :=
  grown.induction (fun _ _ => List.forall_mem_nil _) fun _ _ earlier step =>
    step.related earlier.numbered earlier.nested earlier.instancesDeploy

end Builder

end Edifice
