import Edifice.Proofs.Builder.Replication

/-!
The relationships between instances.

Copies are made towards the instances that are there already, so the later one of two
instances brings in what leads between them.  In a run in which all that is declared between
software systems and containers is declared before anything is deployed, and nothing is
declared between instances (`Call.Timely`), the relationships between any two instances of
an environment therefore mirror those between what they deploy (`Model.Mirrored`), in
whatever order they were deployed.  No other call interferes: what is implied leads between
ancestors, and an instance is an ancestor of nothing.
-/

open Edifice.Change

namespace Edifice

/-! ### Mirrors -/

namespace Model

variable {m m' : Model} {s d s' d' : Element} {a r a' r' : Relationship}

/-- The relationships from `s` to `d` are copies of the declared ones from what `s` deploys to
what `d` deploys, and of each of them. -/
structure Mirrors (m : Model) (s d : Element) : Prop where
  complete : ∀ r ∈ m.relationships, r.origin.isImplied = false →
    s.instanceOf = some r.source → d.instanceOf = some r.destination →
      ∃ a ∈ m.relationships, a.Copies r s d
  sound : ∀ a ∈ m.relationships, a.source = s.id → a.destination = d.id →
    ∃ r ∈ m.relationships, a.Copies r s d

/-- The relationships between any two instances of an environment are copies of those between
what they deploy. -/
def Mirrored (m : Model) : Prop :=
  ∀ s ∈ m.elements, ∀ d ∈ m.elements, s.instanceOf.isSome → d.instanceOf.isSome →
    s.id ≠ d.id → s.environment = d.environment → m.Mirrors s d

/-- What comes with an instance leads from it or to it. -/
theorem Replicates.touches {i : Element} {added : List Relationship}
    (replicates : m.Replicates i added) (member : a ∈ added) :
    a.source = i.id ∨ a.destination = i.id := by
  obtain ⟨⟨r, s, d⟩, ⟨-, ⟨-, ⟨rfl, -⟩ | ⟨rfl, -⟩⟩, copies⟩, -⟩ := replicates.sound a member
  · exact .inl copies.source
  · exact .inr copies.destination

/-- What comes with an instance makes it mirror what is declared: nothing led between it and
another instance, and nothing that comes with it leads between what is deployed. -/
theorem Replicates.mirrors {i : Element} {added : List Relationship} {next : Nat}
    (replicates : m.Replicates i added) (paired : m.Paired i s d) (numbered : m'.Numbered next)
    (elements : m'.elements = m.elements ++ [i])
    (relationships : m'.relationships = m.relationships ++ added)
    (untouched : ∀ r ∈ m.relationships, r.source ≠ i.id ∧ r.destination ≠ i.id)
    (deployed : ∀ a ∈ added, s.instanceOf = some a.source →
      d.instanceOf ≠ some a.destination) : m'.Mirrors s d := by
  constructor
  · intro r listed declared deploys deploys'
    rw [relationships, List.mem_append] at listed
    have old := listed.resolve_right fun new => deployed r new deploys deploys'
    obtain ⟨a, ⟨member, copies⟩, -⟩ :=
      replicates.complete s d paired r old declared deploys deploys'
    exact ⟨a, relationships ▸ List.mem_append_right _ member, copies⟩
  · intro a member leaves enters
    rw [relationships, List.mem_append] at member
    have new := member.resolve_left fun old => paired.unrelated untouched old leaves enters
    obtain ⟨⟨r, s', d'⟩, ⟨listed, paired', copies⟩, -⟩ := replicates.sound a new
    obtain ⟨rfl, rfl⟩ := paired.eq_of_ids paired' numbered elements
      (leaves.symm.trans copies.source) (enters.symm.trans copies.destination)
    exact ⟨r, relationships ▸ List.mem_append_left _ listed, copies⟩

end Model

/-- The relationship leads neither from `s` to `d` nor, as a declared one, from what `s`
deploys to what `d` deploys. -/
structure Relationship.Apart (r : Relationship) (s d : Element) : Prop where
  ends : r.source = s.id → r.destination ≠ d.id
  deployed : r.origin.isImplied = false → s.instanceOf = some r.source →
    d.instanceOf ≠ some r.destination

/-- What a copy is of is a matter of the cores. -/
theorem Relationship.Copies.of_cores {a r a' r' : Relationship} {s d s' d' : Element}
    (copies : a.Copies r s d) (copy : a'.core = a.core) (original : r'.core = r.core)
    (same : s'.core = s.core) (same' : d'.core = d.core) : a'.Copies r' s' d' := by
  obtain ⟨-, source, destination, description, technology, origin⟩ := core_eq_iff.mp copy
  obtain ⟨id, source', destination', description', technology', origin'⟩ :=
    core_eq_iff.mp original
  obtain ⟨id_s, -, -, -, -, -, -, deploys_s, -⟩ := Element.core_eq_iff.mp same
  obtain ⟨id_d, -, -, -, -, -, -, deploys_d, -⟩ := Element.core_eq_iff.mp same'
  constructor
  · rw [origin', copies.declared]
  · rw [deploys_s, source', copies.deploys_source]
  · rw [deploys_d, destination', copies.deploys_destination]
  · rw [source, id_s, copies.source]
  · rw [destination, id_d, copies.destination]
  · rw [description, description', copies.description]
  · rw [technology, technology', copies.technology]
  · rw [origin, id, copies.origin]

/-- What leads between two instances mirrors what leads between what they deploy while nothing
is added that has to do with the two. -/
theorem Model.Mirrors.extends_ {m m' : Model} {s d s' d' : Element} (mirrors : m.Mirrors s d)
    (extends_ : m.Extends m') (same : s'.core = s.core) (same' : d'.core = d.core)
    (others : ∀ r' ∈ m'.relationships,
      (∃ r ∈ m.relationships, r'.core = r.core) ∨ r'.Apart s' d') : m'.Mirrors s' d' := by
  obtain ⟨id_s, -, -, -, -, -, -, deploys_s, -⟩ := Element.core_eq_iff.mp same
  obtain ⟨id_d, -, -, -, -, -, -, deploys_d, -⟩ := Element.core_eq_iff.mp same'
  constructor
  · intro r' member' declared deploys deploys'
    rcases others r' member' with ⟨r, member, core⟩ | apart
    · obtain ⟨-, source, destination, -, -, origin⟩ := Relationship.core_eq_iff.mp core
      obtain ⟨a, listed, copies⟩ := mirrors.complete r member (origin ▸ declared)
        (by rw [← deploys_s, deploys, source]) (by rw [← deploys_d, deploys', destination])
      obtain ⟨a', listed', copy⟩ := extends_.exists_relationship listed
      exact ⟨a', listed', copies.of_cores copy core same same'⟩
    · exact absurd deploys' (apart.deployed declared deploys)
  · intro a' member' leaves enters
    rcases others a' member' with ⟨a, member, core⟩ | apart
    · obtain ⟨-, source, destination, -⟩ := Relationship.core_eq_iff.mp core
      obtain ⟨r, listed, copies⟩ := mirrors.sound a member
        (by rw [← source, leaves, id_s]) (by rw [← destination, enters, id_d])
      obtain ⟨r', listed', original⟩ := extends_.exists_relationship listed
      exact ⟨r', listed', copies.of_cores core original same same'⟩
    · exact absurd enters (apart.ends leaves)

/-- A model stays mirrored while neither instances nor relationships are added. -/
theorem Model.Mirrored.extends_ {m m' : Model} (mirrored : m.Mirrored) (extends_ : m.Extends m')
    (instances : ∀ e' ∈ m'.elements, e'.instanceOf.isSome → ∃ e ∈ m.elements, e'.core = e.core)
    (relationships : ∀ r' ∈ m'.relationships, ∃ r ∈ m.relationships, r'.core = r.core) :
    m'.Mirrored := by
  intro s' member_s d' member_d placed_s placed_d other near
  obtain ⟨s, known_s, same⟩ := instances s' member_s placed_s
  obtain ⟨d, known_d, same'⟩ := instances d' member_d placed_d
  obtain ⟨id_s, -, -, -, -, -, near_s, deploys_s, -⟩ := Element.core_eq_iff.mp same
  obtain ⟨id_d, -, -, -, -, -, near_d, deploys_d, -⟩ := Element.core_eq_iff.mp same'
  have mirrors := mirrored s known_s d known_d (deploys_s ▸ placed_s) (deploys_d ▸ placed_d)
    (id_s ▸ id_d ▸ other) (near_s ▸ near_d ▸ near)
  exact mirrors.extends_ extends_ same same' fun r' member => .inl (relationships r' member)

namespace Builder

variable {b b' : Builder}

/-- A declared relationship leads neither between instances nor, once anything is deployed,
between software systems and containers. -/
def Call.Timely (b : Builder) : Call → Prop
  | .addRelationship source destination description technology =>
    ∀ id, (Builder.addRelationship source destination description technology).answer b = .ok id →
      ∀ s ∈ b.model.elements, ∀ d ∈ b.model.elements, s.id = source → d.id = destination →
        ¬ (s.kind.isInstance ∧ d.kind.isInstance) ∧
          (s.kind.instanceKind?.isSome → d.kind.instanceKind?.isSome →
            ∀ e ∈ b.model.elements, e.kind.isInstance = false)
  | _ => True

abbrev LeadsTimely : Builder → Builder → Prop :=
  LeadsBy fun b c => c.Timely b

/-! ### A declared relationship -/

/-- A pair of ends is given at most one new relationship, which is implied. -/
theorem mem_addImplied {o r : Relationship} {pair : ElementId × ElementId}
    (member : r ∈ (addImplied o b pair).model.relationships) :
    r ∈ b.model.relationships ∨ r.origin.isImplied ∧ (r.source, r.destination) = pair := by
  unfold addImplied at member
  split at member
  · rcases mem_of_mem_putKeyed member with rfl | member
    · exact .inr ⟨rfl, rfl⟩
    · exact .inl member
  · exact .inl member

/-- What is implied for several pairs of ends lies between one of them. -/
theorem mem_foldl_addImplied {o r : Relationship} {pairs : List (ElementId × ElementId)}
    (member : r ∈ (pairs.foldl (addImplied o) b).model.relationships) :
    r ∈ b.model.relationships ∨ r.origin.isImplied ∧ (r.source, r.destination) ∈ pairs := by
  induction pairs generalizing b with
  | nil => exact .inl member
  | cons pair pairs ih =>
    rcases ih member with member | ⟨implied, listed⟩
    · refine (mem_addImplied member).imp_right fun ⟨implied, own⟩ => ⟨implied, ?_⟩
      exact own ▸ List.mem_cons_self ..
    · exact .inr ⟨implied, List.mem_cons_of_mem pair listed⟩

/-- What there is after a relationship is declared: what was there, it, and what is implied
between its ends and their ancestors. -/
theorem mem_addRelationship (numbered : b.Numbered) {source destination : ElementId}
    {description technology : String} {id : RelationshipId}
    (done : addRelationship source destination description technology b = .ok id b')
    {r : Relationship} (member : r ∈ b'.model.relationships) :
    r ∈ b.model.relationships ∨ r.source = source ∧ r.destination = destination ∨
      r.origin.isImplied ∧ r.source ∈ b.model.lineage source ∧
        r.destination ∈ b.model.lineage destination := by
  obtain ⟨checked, rfl, rfl⟩ := addRelationship_eq_ok.mp done
  have joined : b.Joined source destination description technology .explicit := .explicit checked
  have numbered₁ := (Grows.relationship joined).numbered numbered
  have declared := mem_insertRelationship numbered source destination description technology
    .explicit
  have relationships := relationships_insertRelationship numbered source destination description
    technology .explicit
  have before : ∀ r ∈ (b.insertRelationship source destination description technology
      .explicit).2.model.relationships,
        r ∈ b.model.relationships ∨ r.source = source ∧ r.destination = destination := by
    intro r member
    rw [relationships, List.mem_append, List.mem_singleton] at member
    exact member.imp_right fun own => by simp [own, newRelationship]
  unfold implyIfEnabled at member
  split at member
  · rw [imply_eq numbered₁ declared] at member
    rcases mem_foldl_addImplied member with member | ⟨implied, lifted⟩
    · exact (before r member).imp_right .inl
    · have same : ∀ x, (b.insertRelationship source destination description technology
          .explicit).2.model.lineage x = b.model.lineage x := Model.lineage_congr rfl
      rw [mem_liftedPairs, same, same] at lifted
      exact .inr (.inr ⟨implied, lifted⟩)
  · exact (before r member).imp_right .inl

/-- An instance is among the ancestors of nothing, and so in its own lineage alone. -/
theorem Grown.eq_of_mem_lineage (grown : Grown b) {e : Element} (member : e ∈ b.model.elements)
    (placed : e.kind.isInstance) {x : ElementId} (above : e.id ∈ b.model.lineage x) :
    e.id = x := by
  refine (List.mem_cons.mp above).resolve_right fun contained => ?_
  have apart := grown.nested.not_isAncestor_of_instance grown.numbered member placed x
  simp [Model.isAncestor_iff.mpr contained] at apart

/-- A timely call that declares a relationship keeps the model mirrored: neither the
relationship nor what it implies has to do with two instances. -/
theorem mirrored_addRelationship (grown : Grown b) (mirrored : b.model.Mirrored)
    {source destination : ElementId} {description technology : String} {id : RelationshipId}
    (timely : (Call.addRelationship source destination description technology).Timely b)
    (done : addRelationship source destination description technology b = .ok id b') :
    b'.model.Mirrored := by
  have extends_ := (evolves_addRelationship grown.numbered done).extends_ grown.numbered
  have same : b'.model.elements = b.model.elements := by
    obtain ⟨-, rfl, rfl⟩ := addRelationship_eq_ok.mp done
    exact elements_implyIfEnabled _ _
  have fit := timely id (answer_eq_ok.mpr (after_of_ok done ▸ done))
  intro s member d member' placed placed' other near
  rw [same] at member member'
  have instance_s := grown.instancesDeploy s member placed
  have instance_d := grown.instancesDeploy d member' placed'
  refine (mirrored s member d member' placed placed' other near).extends_ extends_ rfl rfl
    fun r listed => ?_
  rcases mem_addRelationship grown.numbered done listed with old | ⟨rfl, rfl⟩ | ⟨implied, above⟩
  · exact .inl ⟨r, old, rfl⟩
  · refine .inr ⟨fun leaves enters => ?_, fun _ deploys deploys' => ?_⟩
    · exact (fit s member d member' leaves.symm enters.symm).1 ⟨instance_s, instance_d⟩
    · obtain ⟨x, known, own, fits⟩ := grown.instancesMatch s member instance_s
      obtain ⟨y, known', own', fits'⟩ := grown.instancesMatch d member' instance_d
      have none_deployed := (fit x known y known'
        (Option.some.inj (own.symm.trans deploys)) (Option.some.inj (own'.symm.trans deploys'))).2
        (by simp [fits]) (by simp [fits']) s member
      simp [instance_s] at none_deployed
  · refine .inr ⟨fun leaves enters => ?_, fun declared => by simp [implied] at declared⟩
    rw [leaves, enters] at above
    have own := grown.eq_of_mem_lineage member instance_s above.1
    have own' := grown.eq_of_mem_lineage member' instance_d above.2
    exact (fit s member d member' own own').1 ⟨instance_s, instance_d⟩

/-! ### A deployed element -/

/-- A call that adds an instance keeps the model mirrored: it brings in what leads between the
new instance and the others of its environment, and nothing that leads between these. -/
theorem mirrored_addInstance (grown : Grown b) (mirrored : b.model.Mirrored)
    {node of id : ElementId} (done : addInstance node of b = .ok id b') : b'.model.Mirrored := by
  have run := evolves_addInstance grown.numbered done
  have extends_ := run.extends_ grown.numbered
  have grown' := grown.evolves run
  obtain ⟨i, added, own, deploys, -, replicates, -, result⟩ := replicates_addInstance grown done
  have elements : b'.model.elements = b.model.elements ++ [i] := by rw [result]
  have relationships : b'.model.relationships = b.model.relationships ++ added := by rw [result]
  have last : i ∈ b'.model.elements := by simp [elements]
  have instance_i := grown'.instancesDeploy i last (by simp [deploys])
  have fresh : i.id = ⟨b.nextId⟩ := by
    obtain ⟨_, _, -, inserted, -⟩ := addInstance_eq_ok.mp done
    obtain ⟨-, rfl, -⟩ := insertElement_eq_ok.mp inserted
    exact own
  -- What is added leads from or to the new instance, which nothing deploys.
  have deployed : ∀ s ∈ b'.model.elements, ∀ d ∈ b'.model.elements, ∀ a ∈ added,
      s.instanceOf = some a.source → d.instanceOf ≠ some a.destination := by
    intro s member d member' a listed deploys deploys'
    rcases replicates.touches listed with leaves | enters
    · exact grown'.instanceOf_ne member last instance_i (leaves ▸ deploys)
    · exact grown'.instanceOf_ne member' last instance_i (enters ▸ deploys')
  intro s member d member' placed placed' other near
  have known := member
  have known' := member'
  rw [elements, List.mem_append, List.mem_singleton] at known known'
  have paired : b.model.Paired i s d → b'.model.Mirrors s d := fun paired =>
    replicates.mirrors paired grown'.numbered elements relationships
      (fun r listed => fresh ▸ grown.untouched listed) (deployed s member d member')
  rcases known with known | rfl
  · rcases known' with known' | rfl
    · refine (mirrored s known d known' placed placed' other near).extends_ extends_ rfl rfl
        fun r listed => ?_
      rw [relationships, List.mem_append] at listed
      refine listed.imp (fun old => ⟨r, old, rfl⟩) fun new => ⟨fun leaves enters => ?_, fun _ =>
        deployed s member d member' r new⟩
      rcases replicates.touches new with source | destination
      · exact grown.numbered.id_ne_next known (leaves.symm.trans (source.trans fresh))
      · exact grown.numbered.id_ne_next known' (enters.symm.trans (destination.trans fresh))
    · exact paired ⟨near, .inr ⟨rfl, known⟩⟩
  · rcases known' with known' | rfl
    · exact paired ⟨near, .inl ⟨rfl, known'⟩⟩
    · exact absurd rfl other

/-! ### All calls -/

def Call.deploys : Call → Bool
  | .addInstance .. => true
  | _ => false

def Call.relates : Call → Bool
  | .addRelationship .. => true
  | _ => false

/-- A call that deploys nothing leaves the skeleton of the model alone, enters an element that
deploys nothing, or relates elements. -/
theorem Call.cases_of_not_deploys (c : Call) (other : c.deploys = false) {a : c.Answer}
    (done : c.perform b = .ok a b') :
    b'.model.skeleton = b.model.skeleton ∨
      (∃ draft : Element, draft.instanceOf = none ∧ b' = (b.enterElement draft).2) ∨
        c.relates ∧ b'.model.elements = b.model.elements := by
  have entered : ∀ {draft : Element} {id : ElementId}, draft.instanceOf = none →
      insertElement draft b = .ok id b' →
        ∃ draft : Element, draft.instanceOf = none ∧ b' = (b.enterElement draft).2 := by
    intro draft id plain inserted
    obtain ⟨-, -, rfl⟩ := insertElement_eq_ok.mp inserted
    exact ⟨draft, plain, rfl⟩
  cases c with
  | addPerson | addSoftwareSystem | addContainer | addComponent | addCustomElement
  | addDeploymentNode => exact .inr (.inl (entered rfl done))
  | addInfrastructureNode =>
    obtain ⟨parent, -, inserted⟩ := ask_bind_eq_ok.mp done
    exact .inr (.inl (entered rfl inserted))
  | addInstance => cases other
  | addRelationship =>
    obtain ⟨-, rfl, rfl⟩ := addRelationship_eq_ok.mp done
    exact .inr (.inr ⟨rfl, elements_implyIfEnabled _ _⟩)
  | _ => exact .inl (congrArg Prod.fst (Call.keeps_stock _ rfl b a b' done))

/-- A call that deploys nothing adds no instance. -/
theorem Call.instances_kept (c : Call) (numbered : b.Numbered) (other : c.deploys = false)
    {a : c.Answer} (done : c.perform b = .ok a b') {e' : Element}
    (member : e' ∈ b'.model.elements) (placed : e'.instanceOf.isSome) :
    ∃ e ∈ b.model.elements, e'.core = e.core := by
  rcases c.cases_of_not_deploys other done with same | ⟨draft, plain, rfl⟩ | ⟨-, same⟩
  · obtain ⟨e, member, core⟩ := Model.exists_element_of_skeleton_eq same.symm member
    exact ⟨e, member, core.symm⟩
  · rw [elements_enterElement numbered, List.mem_append, List.mem_singleton] at member
    rcases member with member | rfl
    · exact ⟨e', member, rfl⟩
    · simp [newElement, plain] at placed
  · exact ⟨e', same ▸ member, rfl⟩

/-- A call that neither deploys elements nor relates them adds no relationship. -/
theorem Call.relationships_kept (c : Call) (other : c.deploys = false)
    (other' : c.relates = false) {a : c.Answer} (done : c.perform b = .ok a b')
    {r' : Relationship} (member : r' ∈ b'.model.relationships) :
    ∃ r ∈ b.model.relationships, r'.core = r.core := by
  rcases c.cases_of_not_deploys other done with same | ⟨draft, -, rfl⟩ | ⟨relates, -⟩
  · obtain ⟨r, member, core⟩ := Model.exists_relationship_of_skeleton_eq same.symm member
    exact ⟨r, member, core.symm⟩
  · exact ⟨r', member, rfl⟩
  · simp [relates] at other'

/-- A timely call keeps the model mirrored. -/
theorem Call.mirrored (c : Call) (grown : Grown b) (fit : c.Timely b)
    (mirrored : b.model.Mirrored) {a : c.Answer} (done : c.perform b = .ok a b') :
    b'.model.Mirrored := by
  have kept (other : c.deploys = false) (other' : c.relates = false) : b'.model.Mirrored :=
    mirrored.extends_ ((c.evolves grown.numbered done).extends_ grown.numbered)
      (fun e => c.instances_kept grown.numbered other done)
      fun r => c.relationships_kept other other' done
  cases c with
  | addInstance => exact mirrored_addInstance grown mirrored done
  | addRelationship => exact mirrored_addRelationship grown mirrored fit done
  | _ => exact kept rfl rfl

/-- A timely run keeps the model mirrored. -/
theorem LeadsTimely.mirrored (run : LeadsTimely b b') (grown : Grown b)
    (mirrored : b.model.Mirrored) : b'.model.Mirrored := by
  induction run with
  | refl => exact mirrored
  | @call b₁ earlier c fit ih =>
    have grown₁ : Grown b₁ := grown.evolves (earlier.leads.evolves grown.numbered)
    exact c.holds_after ih fun _ _ => c.mirrored grown₁ fit ih

/-! ### Timely runs -/

/-- Before anything is deployed, every call is timely. -/
theorem Call.timely_of_undeployed (c : Call)
    (undeployed : ∀ e ∈ b.model.elements, e.kind.isInstance = false) : c.Timely b := by
  cases c with
  | addRelationship =>
    intro id _ s member d _ _ _
    exact ⟨fun placed => by simp [undeployed s member] at placed, fun _ _ => undeployed⟩
  | _ => trivial

/-- A call that deploys nothing leaves everything undeployed. -/
theorem Call.undeployed (c : Call) (grown : Grown b) (other : c.deploys = false)
    (undeployed : ∀ e ∈ b.model.elements, e.kind.isInstance = false) :
    ∀ e ∈ (c.perform.after b).model.elements, e.kind.isInstance = false := by
  refine c.holds_after (P := fun b' => ∀ e ∈ b'.model.elements, e.kind.isInstance = false)
    undeployed fun a b' ran e' member' => ?_
  have grown' := grown.evolves (c.evolves grown.numbered ran)
  by_contra placed
  rw [Bool.not_eq_false, grown'.isInstance_eq member'] at placed
  obtain ⟨e, member, core⟩ := c.instances_kept grown.numbered other ran member' placed
  obtain ⟨-, -, -, -, -, -, -, deploys, -⟩ := Element.core_eq_iff.mp core
  rw [deploys, ← grown.isInstance_eq member, undeployed e member] at placed
  cases placed

/-- Calls that deploy nothing are timely as long as nothing is deployed. -/
theorem timely_of_undeployed (grown : Grown b)
    (undeployed : ∀ e ∈ b.model.elements, e.kind.isInstance = false) (calls : List Call)
    (others : ∀ c ∈ calls, c.deploys = false) : LeadsTimely b (b.run calls) := by
  induction calls generalizing b with
  | nil => exact .refl
  | cons c calls ih =>
    obtain ⟨other, others⟩ := List.forall_mem_cons.mp others
    have first : LeadsTimely b (c.perform.after b) :=
      .call .refl c (c.timely_of_undeployed undeployed)
    have grown' := grown.evolves (c.evolves_after grown.numbered)
    exact first.trans (ih grown' (c.undeployed grown other undeployed) others)

/-- Calls that declare no relationships are timely. -/
theorem timely_of_unrelated (b : Builder) (calls : List Call)
    (others : ∀ c ∈ calls, c.relates = false) : LeadsTimely b (b.run calls) := by
  induction calls generalizing b with
  | nil => exact .refl
  | cons c calls ih =>
    obtain ⟨other, others⟩ := List.forall_mem_cons.mp others
    have fit : c.Timely b := by
      cases c with
      | addRelationship => cases other
      | _ => trivial
    have first : LeadsTimely b (c.perform.after b) := .call .refl c fit
    exact first.trans (ih _ others)

/-- A run in which all relationships are declared before anything is deployed is timely. -/
theorem timely_of_phases (name description : String) (declared deployed : List Call)
    (others : ∀ c ∈ declared, c.deploys = false) (others' : ∀ c ∈ deployed, c.relates = false) :
    LeadsTimely (new name description) ((new name description).run (declared ++ deployed)) := by
  have start : Grown (new name description) := ⟨name, description, .refl⟩
  have first := timely_of_undeployed start (List.forall_mem_nil _) declared others
  have second := timely_of_unrelated ((new name description).run declared) deployed others'
  have split : (new name description).run (declared ++ deployed) =
      ((new name description).run declared).run deployed := List.foldl_append
  rw [split]
  exact first.trans second

/-! ### Replication -/

/-- **Replication is exact, whatever the order.**  A call that adds an instance to a reachable
builder adds it, one copy of each declared relationship, in either direction, between what it
deploys and what another instance of its environment deploys, and nothing else.  And after
every run in which what is declared between software systems and containers is declared
before anything is deployed, and nothing is declared between instances, the relationships from
one instance to another one of its environment are copies of those from what the one deploys
to what the other deploys, one of each. -/
theorem replication_is_exact (reachable : Reachable b) :
    (∀ node of id b', addInstance node of b = .ok id b' →
      ∃ i added, i.id = id ∧ i.instanceOf = some of ∧
        (∃ n ∈ b.model.elements, n.id = node ∧ i.parent = some node ∧
          i.environment = n.environment) ∧
        b.model.Replicates i added ∧
        added.map (·.id.index) = List.range' (b.nextId + 1) added.length ∧
        b' = { b with
          model := { b.model with
            elements := b.model.elements ++ [i]
            relationships := b.model.relationships ++ added
            canonicalNames := b.model.canonicalNames.insert i.canonicalName i.id }
          nextId := b.nextId + 1 + added.length }) ∧
      ∀ name description, LeadsTimely (new name description) b →
        ∀ s ∈ b.model.elements, ∀ d ∈ b.model.elements, s ≠ d → s.kind.isInstance →
          d.kind.isInstance → s.environment = d.environment →
            (∀ r ∈ b.model.relationships, r.origin.isImplied = false →
              s.instanceOf = some r.source → d.instanceOf = some r.destination →
                ∃! a, a ∈ b.model.relationships ∧ a.Copies r s d) ∧
            ∀ a ∈ b.model.relationships, a.source = s.id → a.destination = d.id →
              ∃! r, r ∈ b.model.relationships ∧ a.Copies r s d := by
  have grown := reachable.grown
  refine ⟨fun node of id b' => replicates_addInstance grown,
    fun name description run s member d member' different placed placed' near => ?_⟩
  have start : Grown (new name description) := ⟨name, description, .refl⟩
  have other : s.id ≠ d.id := fun same =>
    different (grown.numbered.element_eq_of_id member member' same)
  rw [grown.isInstance_eq member] at placed
  rw [grown.isInstance_eq member'] at placed'
  have mirrors : b.model.Mirrors s d :=
    run.mirrored start (List.forall_mem_nil _) s member d member' placed placed' other near
  constructor
  · intro r listed declared deploys deploys'
    obtain ⟨a, listed', copies⟩ := mirrors.complete r listed declared deploys deploys'
    refine ⟨a, ⟨listed', copies⟩, fun a' ⟨listed'', copies'⟩ => ?_⟩
    exact grown.distinct.copy_unique listed'' listed' copies' copies
  · intro a listed leaves enters
    obtain ⟨r, listed', copies⟩ := mirrors.sound a listed leaves enters
    refine ⟨r, ⟨listed', copies⟩, fun r' ⟨listed'', copies'⟩ => ?_⟩
    exact grown.numbered.origin_unique listed'' listed' copies' copies

theorem timely_farm : LeadsTimely (new "Shop" "") farm :=
  timely_of_phases "Shop" ""
    [.addSoftwareSystem "Shop" none, .addContainer ⟨1⟩ "Web" none, .addPerson "Customer" none,
      .addRelationship ⟨3⟩ ⟨2⟩ "Uses" "", .addContainer ⟨1⟩ "Store" none,
      .addRelationship ⟨2⟩ ⟨6⟩ "Reads" ""]
    [.addDeploymentNode "Live" none "Server", .addInstance ⟨8⟩ ⟨2⟩, .addInstance ⟨8⟩ ⟨6⟩,
      .addView .dynamic (some "Steps") none none, .addInstance ⟨8⟩ ⟨2⟩,
      .addDeploymentNode "Live" none "Spare", .addInstance ⟨12⟩ ⟨2⟩]
    (by decide) (by decide)

/-- The web application on the second server reads the store on the first one.  A store on
the second server is then read from both. -/
theorem replication_of_farm :
    farm.Reachable ∧ LeadsTimely (new "Shop" "") farm ∧
      (∃ s ∈ farm.model.elements, ∃ d ∈ farm.model.elements, ∃ r ∈ farm.model.relationships,
        s.id = ⟨13⟩ ∧ d.id = ⟨10⟩ ∧ r.id = ⟨7⟩ ∧
          ∃! a, a ∈ farm.model.relationships ∧ a.Copies r s d) ∧
      ∃ i added, i.id = ⟨15⟩ ∧ farm.model.Replicates i added ∧ added.length = 2 := by
  obtain ⟨each, all⟩ := replication_is_exact reachable_farm
  refine ⟨reachable_farm, timely_farm, ?_, ?_⟩
  · have known : ∃ s ∈ farm.model.elements, ∃ d ∈ farm.model.elements,
        ∃ r ∈ farm.model.relationships, (s.id = ⟨13⟩ ∧ d.id = ⟨10⟩ ∧ r.id = ⟨7⟩) ∧ s ≠ d ∧
          s.kind.isInstance ∧ d.kind.isInstance ∧ s.environment = d.environment ∧
            r.origin.isImplied = false ∧ s.instanceOf = some r.source ∧
              d.instanceOf = some r.destination := by decide +kernel
    obtain ⟨s, member, d, member', r, listed, ids, different, placed, placed', near, declared,
      deploys, deploys'⟩ := known
    have copies := (all "Shop" "" timely_farm s member d member' different placed placed' near).1
    exact ⟨s, member, d, member', r, listed, ids.1, ids.2.1, ids.2.2,
      copies r listed declared deploys deploys'⟩
  · have answer : (addInstance ⟨12⟩ ⟨6⟩).answer farm = .ok ⟨15⟩ := by decide +kernel
    have next : ((addInstance ⟨12⟩ ⟨6⟩).after farm).nextId = 18 := by decide +kernel
    have before : farm.nextId = 15 := by decide +kernel
    obtain ⟨i, added, own, -, -, replicates, -, result⟩ := each _ _ _ _ (answer_eq_ok.mp answer)
    rw [result, before] at next
    exact ⟨i, added, own, replicates, Nat.add_left_cancel next⟩

end Builder

end Edifice
