import Edifice.Proofs.Builder.Relationships

/-!
Implied relationships.

Sound: what is implied follows from a declared relationship between descendants (`Follows`)
and is the first relationship between its ends.  This is kept by every step, since later
relationships have larger numbers and elements keep their ancestors.  Complete: after the
loop over the pairs of ancestors, every pair that may be related is related, because each
turn of the loop relates its pair unless it is related already, and no later step takes a
relationship away.
-/

namespace Edifice

namespace Model

variable {m m' : Model}

/-- `i` follows from `o`, which is declared, older and says the same, between ancestors of
the ends of `o`. -/
structure Follows (m : Model) (i o : Relationship) : Prop where
  declared : o.origin = .explicit
  older : o.id.index < i.id.index
  source : i.source ∈ m.lineage o.source
  destination : i.destination ∈ m.lineage o.destination
  other : (i.source, i.destination) ≠ (o.source, o.destination)
  description : i.description = o.description
  technology : i.technology = o.technology

/-- What is implied follows from a relationship of the model, and is the first relationship
between its ends. -/
def ImpliedFollow (m : Model) : Prop :=
  ∀ i ∈ m.relationships, ∀ id, i.origin = .implied id →
    (∃ o ∈ m.relationships, o.id = id ∧ m.Follows i o) ∧
      ∀ r ∈ m.relationships, r.source = i.source → r.destination = i.destination →
        i.id.index ≤ r.id.index

/-- What follows from a relationship follows from it in every model that extends its own. -/
theorem Follows.extends_ {i o i' o' : Relationship} (follows : m.Follows i o)
    (extends_ : m.Extends m') (nested : m.Nested) (ends : m.Relatable o.source o.destination)
    (same : i'.core = i.core) (same' : o'.core = o.core) : m'.Follows i' o' := by
  obtain ⟨id, source, destination, description, technology, -⟩ :=
    Relationship.core_eq_iff.mp same
  obtain ⟨id', source', destination', description', technology', origin'⟩ :=
    Relationship.core_eq_iff.mp same'
  constructor
  · rw [origin', follows.declared]
  · rw [id, id']
    exact follows.older
  · rw [source, source', extends_.lineage_eq nested ends.source_declared]
    exact follows.source
  · rw [destination, destination', extends_.lineage_eq nested ends.destination_declared]
    exact follows.destination
  · rw [source, destination, source', destination']
    exact follows.other
  · rw [description, description', follows.description]
  · rw [technology, technology', follows.technology]

end Model

namespace Builder

variable {b b' : Builder}

/-! ### Sound -/

/-- A relationship that comes to be by implication follows from one that is there. -/
theorem Joined.follows {source destination : ElementId} {description technology : String}
    {id : RelationshipId}
    (joined : b.Joined source destination description technology (.implied id))
    (numbered : b.Numbered) :
    (∃ o ∈ b.model.relationships, o.id = id ∧
      b.model.Follows
        (b.newRelationship source destination description technology (.implied id)) o) ∧
      b.model.hasRelationship source destination = false := by
  cases joined with
  | @implied o _ _ member declared above above' other room =>
    exact ⟨⟨o, member, rfl, declared, numbered.relationship_lt member, above, above', other,
      rfl, rfl⟩, (Model.canImply_iff.mp room).2.2.2⟩

/-- A step keeps what is implied following, and first between its ends. -/
theorem Grows.impliedFollow (step : Grows b b') (numbered : b.Numbered)
    (nested : b.model.Nested) (related : b.model.Related)
    (follow : b.model.ImpliedFollow) : b'.model.ImpliedFollow := by
  have extends_ := step.extends_ numbered
  -- What follows from `o` before the step follows from what `o` is after it.
  have kept : ∀ i i' o, o ∈ b.model.relationships → b.model.Follows i o → i'.core = i.core →
      ∃ o' ∈ b'.model.relationships, o'.id = o.id ∧ b'.model.Follows i' o' := by
    intro i i' o member follows same
    obtain ⟨o', member', same'⟩ := extends_.exists_relationship member
    exact ⟨o', member', (Relationship.core_eq_iff.mp same').1,
      follows.extends_ extends_ nested (related o member) same same'⟩
  intro i' member id implied
  rcases step.mem_relationships numbered member with
    ⟨i, member, same⟩ | ⟨s, d, description, technology, origin, joined, rfl⟩
  · obtain ⟨id_eq, source, destination, -, -, origin⟩ := Relationship.core_eq_iff.mp same
    obtain ⟨⟨o, omember, rfl, follows⟩, first⟩ := follow i member id (origin ▸ implied)
    refine ⟨kept i i' o omember follows same, fun r' rmember rsource rdestination => ?_⟩
    rcases step.mem_relationships numbered rmember with
      ⟨r, rmember, rsame⟩ | ⟨_, _, _, _, _, _, rfl⟩
    · obtain ⟨rid, rsource', rdestination', -⟩ := Relationship.core_eq_iff.mp rsame
      rw [id_eq, rid]
      exact first r rmember (rsource' ▸ source ▸ rsource)
        (rdestination' ▸ destination ▸ rdestination)
    · rw [id_eq]
      exact Nat.le_of_lt (numbered.relationship_lt member)
  · obtain rfl : origin = .implied id := implied
    obtain ⟨⟨o, omember, rfl, follows⟩, free⟩ := joined.follows numbered
    refine ⟨kept _ _ o omember follows rfl, fun r' rmember rsource rdestination => ?_⟩
    rcases step.mem_relationships numbered rmember with
      ⟨r, rmember, rsame⟩ | ⟨_, _, _, _, _, _, rfl⟩
    · obtain ⟨-, rsource', rdestination', -⟩ := Relationship.core_eq_iff.mp rsame
      refine absurd ?_ (Model.hasRelationship_eq_false.mp free r rmember)
      exact Prod.ext (rsource'.symm.trans rsource) (rdestination'.symm.trans rdestination)
    · exact Nat.le_refl _

theorem Grown.impliedFollow (grown : Grown b) : b.model.ImpliedFollow :=
  grown.induction (fun _ _ => List.forall_mem_nil _) fun _ _ earlier step =>
    step.impliedFollow earlier.numbered earlier.nested earlier.related

/-! ### Complete -/

/-- Implying relationships leaves the elements alone. -/
theorem imply_elements {o : Relationship} (numbered : b.Numbered)
    (member : o ∈ b.model.relationships) (declared : o.origin = .explicit) :
    (b.imply o.id).model.elements = b.model.elements := by
  rw [imply_eq numbered member]
  exact (evolves_foldl_addImplied numbered member declared (List.Subset.refl _)).2.1

/-- A turn of the loop relates its pair, if it may be related. -/
theorem addImplied_relates {o : Relationship} (numbered : b.Numbered)
    (member : o ∈ b.model.relationships) {s d : ElementId} (different : s ≠ d)
    (not_around : b.model.isAncestor s d = false) (not_inside : b.model.isAncestor d s = false) :
    ∃ r ∈ (addImplied o b (s, d)).model.relationships, r.source = s ∧ r.destination = d := by
  unfold addImplied
  split
  case isTrue =>
    rw [relationships_insertRelationship numbered]
    exact ⟨_, List.mem_append_right _ (List.mem_singleton_self _), rfl, rfl⟩
  case isFalse taken =>
    by_cases own : (s, d) = (o.source, o.destination)
    · obtain ⟨rfl, rfl⟩ := Prod.mk.inj own
      exact ⟨o, member, rfl, rfl⟩
    · have there : ¬ b.model.hasRelationship s d = false := fun free =>
        taken ⟨own, Model.canImply_iff.mpr ⟨different, not_around, not_inside, free⟩⟩
      simpa [Model.hasRelationship_eq_false] using there

/-- The loop relates every pair of ancestors that may be related. -/
theorem imply_relates {o : Relationship} (numbered : b.Numbered)
    (member : o ∈ b.model.relationships) (declared : o.origin = .explicit) {s d : ElementId}
    (above : s ∈ b.model.lineage o.source) (above' : d ∈ b.model.lineage o.destination)
    (different : s ≠ d) (not_around : b.model.isAncestor s d = false)
    (not_inside : b.model.isAncestor d s = false) :
    ∃ r ∈ (b.imply o.id).model.relationships, r.source = s ∧ r.destination = d := by
  have lifted : (s, d) ∈ b.model.liftedPairs o.source o.destination :=
    mem_liftedPairs.mpr ⟨above, above'⟩
  rw [imply_eq numbered member]
  obtain ⟨before, after, pairs⟩ := List.append_of_mem lifted
  have listed : before ++ (s, d) :: after ⊆ b.model.liftedPairs o.source o.destination :=
    pairs ▸ List.Subset.refl _
  obtain ⟨earlier, listed'⟩ := List.append_subset.mp listed
  obtain ⟨-, later⟩ := List.cons_subset.mp listed'
  rw [pairs, List.foldl_append, List.foldl_cons]
  -- The turns before that of the pair leave the elements and `o` as they are.
  obtain ⟨run, same, member'⟩ := evolves_foldl_addImplied numbered member declared earlier
  have numbered' := Evolves.numbered run numbered
  generalize before.foldl (addImplied o) b = b₁ at run same member' numbered' ⊢
  have lifted₁ : b₁.model.liftedPairs o.source o.destination =
      b.model.liftedPairs o.source o.destination := by
    simp only [Model.liftedPairs, Model.lineage_congr same]
  obtain ⟨step, same', member''⟩ :=
    grows_addImplied numbered' member' declared (lifted₁ ▸ lifted)
  obtain ⟨r, related, ends⟩ := addImplied_relates numbered' member' different
    (by rwa [Model.isAncestor_congr same]) (by rwa [Model.isAncestor_congr same])
  -- Those after it take no relationship away.
  have lifted₂ : (addImplied o b₁ (s, d)).model.liftedPairs o.source o.destination =
      b.model.liftedPairs o.source o.destination := by
    simp only [Model.liftedPairs, Model.lineage_congr same', Model.lineage_congr same]
  obtain ⟨run', -⟩ := evolves_foldl_addImplied (step.numbered numbered') member'' declared
    (lifted₂ ▸ later)
  obtain ⟨r', related', core⟩ :=
    (Evolves.extends_ run' (step.numbered numbered')).exists_relationship related
  obtain ⟨-, source, destination, -⟩ := Relationship.core_eq_iff.mp core
  exact ⟨r', related', source.trans ends.1, destination.trans ends.2⟩

/-- Every pair of ancestors of the two elements that may be related is related, by a
relationship that all later builders have. -/
def Covered (b : Builder) (source destination : ElementId) : Prop :=
  ∀ s ∈ b.model.lineage source, ∀ d ∈ b.model.lineage destination, s ≠ d →
    b.model.isAncestor s d = false → b.model.isAncestor d s = false →
      ∃ r ∈ b.model.relationships, r.source = s ∧ r.destination = d ∧
        ∀ b', Leads b b' → ∃ r' ∈ b'.model.relationships, r'.core = r.core

/-- A run leads to a builder of the same elements and relationships and further ones. -/
theorem Leads.extends_ (run : Leads b b') (numbered : b.Numbered) :
    b.model.Extends b'.model :=
  Evolves.extends_ (run.evolves numbered) numbered

/-- What is covered stays covered: the elements keep their ancestors. -/
theorem Covered.leads {source destination : ElementId} (covered : b.Covered source destination)
    (run : Leads b b') (grown : Grown b) (declared : b.model.Declares source)
    (declared' : b.model.Declares destination) : b'.Covered source destination := by
  have extends_ := run.extends_ grown.numbered
  intro s above d above' different not_around not_inside
  rw [extends_.lineage_eq grown.nested declared] at above
  rw [extends_.lineage_eq grown.nested declared'] at above'
  rw [extends_.isAncestor_eq grown.nested _
    (grown.nested.declares_lineage declared' above')] at not_around
  rw [extends_.isAncestor_eq grown.nested _
    (grown.nested.declares_lineage declared above)] at not_inside
  obtain ⟨r, -, source, destination, stays⟩ :=
    covered s above d above' different not_around not_inside
  obtain ⟨r', member', core⟩ := stays b' run
  obtain ⟨-, source', destination', -⟩ := Relationship.core_eq_iff.mp core
  refine ⟨r', member', source'.trans source, destination'.trans destination,
    fun b'' later => ?_⟩
  rw [core]
  exact stays b'' (run.trans later)

/-- A relationship that is declared while implied ones are switched on is covered. -/
theorem covered_addRelationship (grown : Grown b) (enabled : b.impliedRelationships)
    {source destination : ElementId} {description technology : String} {id : RelationshipId}
    (added : addRelationship source destination description technology b = .ok id b') :
    b'.Covered source destination := by
  have numbered' : b'.Numbered :=
    (evolves_addRelationship grown.numbered added).numbered grown.numbered
  obtain ⟨checked, rfl, rfl⟩ := addRelationship_eq_ok.mp added
  have joined : b.Joined source destination description technology .explicit := .explicit checked
  have step := Grows.relationship joined
  have numbered := step.numbered grown.numbered
  have member := mem_insertRelationship grown.numbered source destination description technology
    .explicit
  have enabled' : (b.insertRelationship source destination description technology
      .explicit).2.impliedRelationships := enabled
  rw [implyIfEnabled, if_pos enabled'] at numbered' ⊢
  have same := imply_elements numbered member rfl
  intro s above d above' different not_around not_inside
  rw [Model.lineage_congr same] at above above'
  rw [Model.isAncestor_congr same] at not_around not_inside
  obtain ⟨r, related, ends⟩ :=
    imply_relates numbered member rfl above above' different not_around not_inside
  exact ⟨r, related, ends.1, ends.2, fun b'' later =>
    (later.extends_ numbered').exists_relationship related⟩

/-- **Implied relationships are sound and complete.**  In every reachable builder, what is
implied follows from an older declared relationship between descendants, and is the first
and thus the only implied relationship between its ends.  And where a relationship is
declared while implied ones are switched on, every pair of its ends and their ancestors that
may be related is related from then on, in all later builders. -/
theorem implied_sound_and_complete (reachable : Reachable b) :
    (b.model.ImpliedFollow ∧
      ∀ i ∈ b.model.relationships, ∀ j ∈ b.model.relationships, ∀ id id',
        i.origin = .implied id → j.origin = .implied id' → i.source = j.source →
          i.destination = j.destination → i = j) ∧
      ∀ source destination description technology id b', b.impliedRelationships →
        addRelationship source destination description technology b = .ok id b' →
          ∀ b'', Leads b' b'' → b''.Covered source destination := by
  have grown := reachable.grown
  refine ⟨⟨grown.impliedFollow, fun i member j member' id id' implied implied' source
    destination => ?_⟩, ?_⟩
  · have first := (grown.impliedFollow i member id implied).2 j member' source.symm
      destination.symm
    have first' := (grown.impliedFollow j member' id' implied').2 i member source destination
    exact grown.numbered.relationship_eq_of_id member member'
      (RelationshipId.ext (Nat.le_antisymm first first'))
  · intro source destination description technology id b' enabled added b'' later
    have run : Evolves b b' := evolves_addRelationship grown.numbered added
    have checked := (addRelationship_eq_ok.mp added).1
    obtain ⟨s, d, found, found', -⟩ := checkRelationship_eq_ok.mp checked
    have extends_ := run.extends_ grown.numbered
    exact (covered_addRelationship grown enabled added).leads later (grown.evolves run)
      (extends_.declares ⟨s, Model.element?_eq_some found⟩)
      (extends_.declares ⟨d, Model.element?_eq_some found'⟩)

/-- In the shop the customer uses the web application, and with it the shop. -/
theorem implied_of_shop :
    shop.impliedRelationships ∧ shop.model.ImpliedFollow ∧
      shop.model.relationships.any (fun r => r.origin == .implied ⟨4⟩) ∧
      (addRelationship ⟨3⟩ ⟨6⟩ "Visits" "").answer shop = .ok ⟨12⟩ ∧
        ((addRelationship ⟨3⟩ ⟨6⟩ "Visits" "").after shop).Covered ⟨3⟩ ⟨6⟩ := by
  have enabled : shop.impliedRelationships := by decide +kernel
  have added : (addRelationship ⟨3⟩ ⟨6⟩ "Visits" "").answer shop = .ok ⟨12⟩ := by
    decide +kernel
  obtain ⟨⟨follow, -⟩, complete⟩ := implied_sound_and_complete reachable_shop
  exact ⟨enabled, follow, by decide +kernel, added,
    complete _ _ _ _ _ _ enabled (Change.answer_eq_ok.mp added) _ .refl⟩

end Builder

end Edifice
