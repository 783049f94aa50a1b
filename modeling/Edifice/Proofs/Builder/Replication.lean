import Edifice.Proofs.Builder.Deployment

/-!
What comes with a new instance.

A new instance calls for a copy of every declared relationship, in either direction, between
what it deploys and what another instance of its environment deploys.  The loop over them
skips a copy where a relationship with its ends and its description is there.  None is
skipped: nothing leads to or from the new instance yet, and no two declared relationships
share ends and description.  So each of them has its copy, and each of what is added is the
copy of one (`Model.Replicates`).
-/

open Edifice.Change

namespace Edifice

/-! ### Copies -/

/-- `a` copies the declared relationship `r` onto `s` and `d`, which deploy its ends. -/
structure Relationship.Copies (a r : Relationship) (s d : Element) : Prop where
  declared : r.origin.isImplied = false
  deploys_source : s.instanceOf = some r.source
  deploys_destination : d.instanceOf = some r.destination
  source : a.source = s.id
  destination : a.destination = d.id
  description : a.description = r.description
  technology : a.technology = r.technology
  origin : a.origin = .replicated r.id

def Replica.copy (c : Replica) (n : Nat) : Relationship where
  id := ⟨n⟩
  source := c.source
  destination := c.destination
  description := c.origin.description
  technology := c.origin.technology
  origin := .replicated c.origin.id

namespace Model

variable {m m' : Model} {i s d s' d' : Element} {a r a' r' : Relationship}

/-- The relationships that are copied are those between two elements that nothing implied. -/
theorem mem_declaredBetween {x y : ElementId} :
    r ∈ m.declaredBetween x y ↔
      r ∈ m.relationships ∧ r.source = x ∧ r.destination = y ∧ r.origin.isImplied = false := by
  simp only [declaredBetween, between, List.mem_filter, Bool.and_eq_true, beq_iff_eq,
    Bool.not_eq_true', and_assoc]

/-- Relationships with the same ends and the same description are the same. -/
theorem Distinct.eq_of_ends (distinct : m.Distinct) (member : r ∈ m.relationships)
    (member' : r' ∈ m.relationships) (source : r.source = r'.source)
    (destination : r.destination = r'.destination)
    (description : r.description = r'.description) : r = r' := by
  apply List.inj_on_of_nodup_map distinct member member'
  rw [source, destination, description]

/-- A relationship has one copy at most onto two instances. -/
theorem Distinct.copy_unique (distinct : m.Distinct) (member : a ∈ m.relationships)
    (member' : a' ∈ m.relationships) (copies : a.Copies r s d) (copies' : a'.Copies r s d) :
    a = a' :=
  distinct.eq_of_ends member member' (copies.source.trans copies'.source.symm)
    (copies.destination.trans copies'.destination.symm)
    (copies.description.trans copies'.description.symm)

/-- A relationship copies one relationship at most. -/
theorem Numbered.origin_unique {next : Nat} (numbered : m.Numbered next)
    (member : r ∈ m.relationships) (member' : r' ∈ m.relationships) (copies : a.Copies r s d)
    (copies' : a.Copies r' s' d') : r = r' := by
  apply numbered.relationship_eq_of_id member member'
  have same := copies.origin.symm.trans copies'.origin
  exact Origin.replicated.inj same

/-- An element has another id than the next one. -/
theorem Numbered.id_ne_next {next : Nat} (numbered : m.Numbered next) {e : Element}
    (member : e ∈ m.elements) : e.id ≠ ⟨next⟩ := by
  intro same
  have below := numbered.element_lt member
  rw [same] at below
  exact Nat.lt_irrefl _ below

/-- Of the two elements, one is the instance `i` and the other an element of its
environment. -/
def Paired (m : Model) (i s d : Element) : Prop :=
  s.environment = d.environment ∧ (s = i ∧ d ∈ m.elements ∨ d = i ∧ s ∈ m.elements)

/-- What an instance calls for copies a declared relationship onto it and another element of
its environment. -/
theorem exists_paired_of_mem_replicas {of : ElementId} (deploys : i.instanceOf = some of)
    (elements : m'.elements = m.elements ++ [i]) {c : Replica} (called : c ∈ m'.replicas i of) :
    c.origin ∈ m'.relationships ∧
      ∃ s d, m.Paired i s d ∧ ∀ n, (c.copy n).Copies c.origin s d := by
  obtain ⟨p, listed, y, other, near, deploys', copied⟩ := Builder.mem_replicas.mp called
  have member : p ∈ m.elements := by
    rcases List.mem_append.mp (elements ▸ listed) with member | last
    · exact member
    · exact absurd (congrArg Element.id (List.mem_singleton.mp last)) other
  rcases copied with ⟨r, between, rfl⟩ | ⟨r, between, rfl⟩
  · obtain ⟨listed, rfl, rfl, declared⟩ := mem_declaredBetween.mp between
    exact ⟨listed, i, p, ⟨near.symm, .inl ⟨rfl, member⟩⟩, fun n =>
      ⟨declared, deploys, deploys', rfl, rfl, rfl, rfl, rfl⟩⟩
  · obtain ⟨listed, rfl, rfl, declared⟩ := mem_declaredBetween.mp between
    exact ⟨listed, p, i, ⟨near, .inr ⟨rfl, member⟩⟩, fun n =>
      ⟨declared, deploys', deploys, rfl, rfl, rfl, rfl, rfl⟩⟩

/-- An instance calls for a copy of every declared relationship between what it deploys and
what another element of its environment deploys. -/
theorem Paired.mem_replicas (paired : m.Paired i s d)
    (elements : m'.elements = m.elements ++ [i]) (new : ∀ p ∈ m.elements, p.id ≠ i.id)
    (listed : r ∈ m'.relationships) (declared : r.origin.isImplied = false)
    (deploys : s.instanceOf = some r.source) (deploys' : d.instanceOf = some r.destination)
    {of : ElementId} (own : i.instanceOf = some of) : ⟨s.id, d.id, r⟩ ∈ m'.replicas i of := by
  have kept : ∀ p ∈ m.elements, p ∈ m'.elements := fun p member =>
    elements ▸ List.mem_append_left _ member
  rw [Builder.mem_replicas]
  obtain ⟨near, ⟨rfl, member⟩ | ⟨rfl, member⟩⟩ := paired
  · obtain rfl := Option.some.inj (own.symm.trans deploys)
    refine ⟨d, kept d member, r.destination, new d member, near.symm, deploys', .inl ?_⟩
    exact ⟨r, mem_declaredBetween.mpr ⟨listed, rfl, rfl, declared⟩, rfl⟩
  · obtain rfl := Option.some.inj (own.symm.trans deploys')
    refine ⟨s, kept s member, r.source, new s member, near, deploys, .inr ?_⟩
    exact ⟨r, mem_declaredBetween.mpr ⟨listed, rfl, rfl, declared⟩, rfl⟩

/-! ### A new instance -/

/-- The relationships that come with an instance: one for every declared relationship
between what it deploys and what an element of its environment deploys. -/
structure Replicates (m : Model) (i : Element) (added : List Relationship) : Prop where
  complete : ∀ s d, m.Paired i s d → ∀ r ∈ m.relationships, r.origin.isImplied = false →
    s.instanceOf = some r.source → d.instanceOf = some r.destination →
      ∃! a, a ∈ added ∧ a.Copies r s d
  sound : ∀ a ∈ added, ∃! c : Relationship × Element × Element,
    c.1 ∈ m.relationships ∧ m.Paired i c.2.1 c.2.2 ∧ a.Copies c.1 c.2.1 c.2.2

/-- Elements that are paired are elements. -/
theorem Paired.members (paired : m.Paired i s d) (elements : m'.elements = m.elements ++ [i]) :
    s ∈ m'.elements ∧ d ∈ m'.elements := by
  rw [elements]
  obtain ⟨-, ⟨rfl, member⟩ | ⟨rfl, member⟩⟩ := paired <;> simp [member]

/-- Ids tell apart what is paired. -/
theorem Paired.eq_of_ids {next : Nat} (paired : m.Paired i s d) (paired' : m.Paired i s' d')
    (numbered : m'.Numbered next) (elements : m'.elements = m.elements ++ [i])
    (source : s.id = s'.id) (destination : d.id = d'.id) : s = s' ∧ d = d' := by
  obtain ⟨known_s, known_d⟩ := paired.members elements
  obtain ⟨known_s', known_d'⟩ := paired'.members elements
  exact ⟨numbered.element_eq_of_id known_s known_s' source,
    numbered.element_eq_of_id known_d known_d' destination⟩

/-- Where no relationship leads from the instance or to it, none leads between what is
paired. -/
theorem Paired.unrelated (paired : m.Paired i s d)
    (untouched : ∀ r ∈ m.relationships, r.source ≠ i.id ∧ r.destination ≠ i.id)
    (member : r ∈ m.relationships) (source : r.source = s.id) : r.destination ≠ d.id := by
  intro destination
  obtain ⟨-, ⟨rfl, -⟩ | ⟨rfl, -⟩⟩ := paired
  · exact (untouched r member).1 source
  · exact (untouched r member).2 destination

/-- Copies of all that is to be copied are the relationships that come with an instance,
since ids tell elements and relationships apart, and relationships differ in their ends or
their description. -/
theorem Replicates.of_copies {added : List Relationship} {next : Nat}
    (numbered : m'.Numbered next) (distinct : m'.Distinct)
    (elements : m'.elements = m.elements ++ [i])
    (relationships : m'.relationships = m.relationships ++ added)
    (untouched : ∀ r ∈ m.relationships, r.source ≠ i.id ∧ r.destination ≠ i.id)
    (sound : ∀ a ∈ added, ∃ r ∈ m.relationships, ∃ s d, m.Paired i s d ∧ a.Copies r s d)
    (complete : ∀ s d, m.Paired i s d → ∀ r ∈ m.relationships, r.origin.isImplied = false →
      s.instanceOf = some r.source → d.instanceOf = some r.destination →
        ∃ a ∈ m.relationships ++ added, a.source = s.id ∧ a.destination = d.id ∧
          a.description = r.description) : m.Replicates i added where
  complete s d paired r listed declared deploys deploys' := by
    have new : ∀ a ∈ added, a ∈ m'.relationships := fun a member =>
      relationships ▸ List.mem_append_right _ member
    have old : ∀ r ∈ m.relationships, r ∈ m'.relationships := fun r member =>
      relationships ▸ List.mem_append_left _ member
    obtain ⟨a, member, source, destination, description⟩ :=
      complete s d paired r listed declared deploys deploys'
    have member : a ∈ added := (List.mem_append.mp member).resolve_left fun member =>
      paired.unrelated untouched member source destination
    -- It has the ends and the description of a copy of `r`, so what it copies is `r`.
    obtain ⟨r', listed', s', d', paired', copies⟩ := sound a member
    obtain ⟨rfl, rfl⟩ := paired.eq_of_ids paired' numbered elements
      (source.symm.trans copies.source) (destination.symm.trans copies.destination)
    obtain rfl : r = r' := distinct.eq_of_ends (old r listed) (old r' listed')
      (Option.some.inj (deploys.symm.trans copies.deploys_source))
      (Option.some.inj (deploys'.symm.trans copies.deploys_destination))
      (description.symm.trans copies.description)
    refine ⟨a, ⟨member, copies⟩, fun a' ⟨member', copies'⟩ => ?_⟩
    exact distinct.copy_unique (new a' member') (new a member) copies' copies
  sound a member := by
    have old : ∀ r ∈ m.relationships, r ∈ m'.relationships := fun r member =>
      relationships ▸ List.mem_append_left _ member
    obtain ⟨r, listed, s, d, paired, copies⟩ := sound a member
    refine ⟨(r, s, d), ⟨listed, paired, copies⟩, ?_⟩
    rintro ⟨r', s', d'⟩ ⟨listed', paired', copies'⟩
    obtain rfl := numbered.origin_unique (old r listed) (old r' listed') copies copies'
    obtain ⟨rfl, rfl⟩ := paired.eq_of_ids paired' numbered elements
      (copies.source.symm.trans copies'.source)
      (copies.destination.symm.trans copies'.destination)
    rfl

end Model

namespace Builder

variable {b b' : Builder}

/-- The builder with further relationships, whose numbers are the next ones. -/
def withRelationships (b : Builder) (added : List Relationship) : Builder :=
  { b with
    model := { b.model with relationships := b.model.relationships ++ added }
    nextId := b.nextId + added.length }

theorem withRelationships_append (b : Builder) (added added' : List Relationship) :
    (b.withRelationships added).withRelationships added' =
      b.withRelationships (added ++ added') := by
  simp only [withRelationships, List.append_assoc, List.length_append, Nat.add_assoc]

/-- A turn of the loop over copies adds its copy, unless a relationship with its ends and its
description is there. -/
theorem addReplica_eq (numbered : b.Numbered) (c : Replica) :
    addReplica b c =
      if b.model.hasDescribed c.source c.destination c.origin.description then b
      else b.withRelationships [c.copy b.nextId] := by
  unfold addReplica
  split
  · rfl
  · have put : putKeyed (·.id) (c.copy b.nextId) b.model.relationships =
        b.model.relationships ++ [c.copy b.nextId] :=
      numbered.relationships_putRelationship rfl
    simp only [withRelationships, ← put]
    rfl

/-- What the loop over copies adds: copies of the list, and for each of them one with its
ends and its description, unless that is there. -/
theorem foldl_addReplica (numbered : b.Numbered) (cs : List Replica) :
    ∃ added, cs.foldl addReplica b = b.withRelationships added ∧
      added.map (·.id.index) = List.range' b.nextId added.length ∧
      (∀ a ∈ added, ∃ c ∈ cs, ∃ n, a = c.copy n) ∧
      ∀ c ∈ cs, ∃ r ∈ b.model.relationships ++ added, r.source = c.source ∧
        r.destination = c.destination ∧ r.description = c.origin.description := by
  induction cs generalizing b with
  | nil => exact ⟨[], by simp [withRelationships], rfl, by simp, by simp⟩
  | cons c cs ih =>
    rw [List.foldl_cons, addReplica_eq numbered]
    split
    case isTrue taken =>
      obtain ⟨added, result, numbers, sound, complete⟩ := ih numbered
      refine ⟨added, result, numbers, fun a member => ?_, List.forall_mem_cons.mpr ⟨?_, complete⟩⟩
      · obtain ⟨c', listed, copy⟩ := sound a member
        exact ⟨c', List.mem_cons_of_mem c listed, copy⟩
      · obtain ⟨r, member, ends⟩ : ∃ r ∈ b.model.relationships, (r.source = c.source ∧
            r.destination = c.destination) ∧ r.description = c.origin.description := by
          simpa [Model.hasDescribed, Model.between] using taken
        exact ⟨r, List.mem_append_left _ member, ends.1.1, ends.1.2, ends.2⟩
    case isFalse =>
      let a := c.copy b.nextId
      have numbered' : (b.withRelationships [a]).Numbered :=
        Model.Numbered.snoc_relationship numbered rfl rfl rfl
      obtain ⟨added, result, numbers, sound, complete⟩ := ih numbered'
      have relationships : (b.withRelationships [a]).model.relationships ++ added =
          b.model.relationships ++ a :: added := List.append_assoc ..
      rw [relationships] at complete
      refine ⟨a :: added, result.trans (withRelationships_append ..), ?_,
        List.forall_mem_cons.mpr ⟨⟨c, List.mem_cons_self .., _, rfl⟩, fun a member => ?_⟩,
        List.forall_mem_cons.mpr ⟨⟨a, by simp, rfl, rfl, rfl⟩, complete⟩⟩
      · rw [List.map_cons, numbers]
        rfl
      · obtain ⟨c', listed, copy⟩ := sound a member
        exact ⟨c', List.mem_cons_of_mem c listed, copy⟩

theorem replicate_eq (numbered : b.Numbered) {i : Element} (member : i ∈ b.model.elements)
    {of : ElementId} (own : i.instanceOf = some of) :
    b.replicate i.id = (b.model.replicas i of).foldl addReplica b := by
  simp only [replicate, numbered.element?_of_mem member, own]

/-- No relationship leads from or to the next element. -/
theorem Grown.untouched (grown : Grown b) {r : Relationship}
    (member : r ∈ b.model.relationships) :
    r.source ≠ ⟨b.nextId⟩ ∧ r.destination ≠ ⟨b.nextId⟩ := by
  have ends := grown.related r member
  obtain ⟨x, known, own⟩ := ends.source_declared
  obtain ⟨y, known', own'⟩ := ends.destination_declared
  exact ⟨own ▸ grown.numbered.id_ne_next known, own' ▸ grown.numbered.id_ne_next known'⟩

/-- An instance is not deployed itself. -/
theorem Grown.instanceOf_ne (grown : Grown b) {e i : Element} (member : e ∈ b.model.elements)
    (member' : i ∈ b.model.elements) (placed : i.kind.isInstance) :
    e.instanceOf ≠ some i.id := by
  intro deploys
  obtain ⟨x, known, own, fits⟩ :=
    grown.instancesMatch e member (grown.instancesDeploy e member (by simp [deploys]))
  obtain rfl := grown.numbered.element_eq_of_id known member'
    (Option.some.inj (own.symm.trans deploys))
  cases kind : x.kind <;> simp_all [ElementKind.isInstance, ElementKind.instanceKind?]

/-- A call that adds an instance adds it, a copy of each declared relationship between what
it deploys and what the other instances of its environment deploy, and nothing else. -/
theorem replicates_addInstance (grown : Grown b) {node of id : ElementId}
    (done : addInstance node of b = .ok id b') :
    ∃ i added, i.id = id ∧ i.instanceOf = some of ∧
      (∃ n ∈ b.model.elements, n.id = node ∧ i.parent = some node ∧
        i.environment = n.environment) ∧
      b.model.Replicates i added ∧
      added.map (·.id.index) = List.range' (b.nextId + 1) added.length ∧
      b' = { b with
        model := { b.model with
          elements := b.model.elements ++ [i]
          relationships := b.model.relationships ++ added
          canonicalNames := b.model.canonicalNames.insert i.canonicalName i.id }
        nextId := b.nextId + 1 + added.length } := by
  have grown' : Grown b' := grown.evolves (evolves_addInstance grown.numbered done)
  obtain ⟨draft, _, answer, inserted, rfl⟩ := addInstance_eq_ok.mp done
  obtain ⟨checked, rfl, rfl⟩ := insertElement_eq_ok.mp inserted
  have step : Grows b (b.enterElement draft).2 := .element (.copy answer) checked
  have numbered₁ := step.numbered grown.numbered
  obtain ⟨own, alone, home⟩ : draft.instanceOf = some of ∧ draft.kind.isTopLevel = false ∧
      ∃ n ∈ b.model.elements, n.id = node ∧ draft.parent = some node ∧
        draft.environment = n.environment := by
    obtain ⟨_, kind, n, -, fits, found, -, rfl⟩ := instanceDraft_eq_ok answer
    obtain ⟨member, rfl⟩ := Model.element?_eq_some found
    have placed := ElementKind.isInstance_of_instanceKind? fits
    refine ⟨rfl, ?_, n, member, rfl, rfl, rfl⟩
    cases kind <;> simp_all [Element.draft, ElementKind.isInstance, ElementKind.isTopLevel]
  let i := b.newElement draft
  have deploys : i.instanceOf = some of := own
  have elements : (b.enterElement draft).2.model.elements = b.model.elements ++ [i] :=
    elements_enterElement grown.numbered draft
  have looped : (b.enterElement draft).2.replicate (b.enterElement draft).1 =
      ((b.enterElement draft).2.model.replicas i of).foldl addReplica (b.enterElement draft).2 :=
    replicate_eq numbered₁ (i := i) (by simp [elements]) deploys
  obtain ⟨added, result, numbers, sound, complete⟩ :=
    foldl_addReplica numbered₁ ((b.enterElement draft).2.model.replicas i of)
  rw [looped, result] at grown' ⊢
  have old : ∀ e ∈ b.model.elements, e.id ≠ i.id := fun e => grown.numbered.id_ne_next
  have copied : b.model.Replicates i added := by
    refine .of_copies grown'.numbered grown'.distinct elements rfl (fun r => grown.untouched)
      (fun a member => ?_) fun s d paired r listed declared source destination => ?_
    · obtain ⟨c, called, n, rfl⟩ := sound a member
      obtain ⟨listed, s, d, paired, copies⟩ :=
        Model.exists_paired_of_mem_replicas deploys elements called
      exact ⟨c.origin, listed, s, d, paired, copies n⟩
    · exact complete _ (paired.mem_replicas elements old listed declared source destination deploys)
  refine ⟨i, added, rfl, own, home, copied, numbers, ?_⟩
  simp only [withRelationships, enterElement, newElement, alone]
  rw [← elements]
  rfl

end Builder

end Edifice
