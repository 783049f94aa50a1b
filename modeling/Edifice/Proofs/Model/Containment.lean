import Edifice.Proofs.Model.Skeleton

/-!
The containment tree and the numbering of a model.

`Numbered` says that elements and relationships share the numbers below the next one, and
`Nested` that every element lies in an older one that may contain it.  In a nested model
climbing from parent to parent ends (`climb_ancestors`), so `ancestors` is the list of all
that contains an element, and containment is a strict order on ids.
-/

namespace Edifice

/-- Induction from older ids to younger ones. -/
theorem ElementId.induction_older {motive : ElementId → Prop}
    (older : ∀ id, (∀ x : ElementId, x.index < id.index → motive x) → motive id)
    (id : ElementId) : motive id := by
  obtain ⟨number⟩ := id
  induction number using Nat.strongRecOn with
  | ind number ih => exact older ⟨number⟩ fun x below => ih x.index below

namespace Model

variable {m m' : Model}

/-- Elements and relationships are numbered: in ascending order, and with each number from
one up to the next once. -/
structure Numbered (m : Model) (next : Nat) : Prop where
  positive : 1 ≤ next
  elements_ascend : m.elements.Pairwise fun x y => x.id.index < y.id.index
  relationships_ascend : m.relationships.Pairwise fun x y => x.id.index < y.id.index
  numbers : (m.elements.map (·.id.index) ++ m.relationships.map (·.id.index)).Perm
    (List.range' 1 (next - 1))

/-- An element lies where its kind may lie: in an older element that may contain it, or at
the top. -/
structure Placed (m : Model) (e : Element) : Prop where
  inside_older : ∀ id, e.parent = some id →
    ∃ p ∈ m.elements, p.id = id ∧ id.index < e.id.index ∧ p.kind.canContain e.kind
  needs_parent : e.kind.requiresParent → e.parent.isSome
  stands_alone : e.kind.isTopLevel → e.parent = none

def Nested (m : Model) : Prop :=
  ∀ e ∈ m.elements, m.Placed e

/-- `Climb m from ids`: climbing from parent to parent, from `from` on, passes `ids` and
ends. -/
inductive Climb (m : Model) : Option ElementId → List ElementId → Prop where
  | done : Climb m none []
  | up {id : ElementId} {ids : List ElementId} (rest : Climb m (m.parent? id) ids) :
      Climb m (some id) (id :: ids)

/-! ### Looking elements up -/

/-- In a list in ascending order of numbers, a number finds the value that has it. -/
theorem find?_of_ascending {α : Type} {number : α → Nat} {l : List α} {x : α}
    (ascend : l.Pairwise fun x y => number x < number y) (member : x ∈ l) (p : α → Bool)
    (picks : ∀ y, p y = true ↔ number y = number x) : l.find? p = some x := by
  induction l with
  | nil => cases member
  | cons y rest ih =>
      obtain ⟨least, ascend⟩ := List.pairwise_cons.mp ascend
      rcases List.mem_cons.mp member with rfl | member
      · exact List.find?_cons_of_pos ((picks x).mpr rfl)
      · have smaller := least x member
        have passed : ¬ p y = true := fun h => by
          have := (picks y).mp h
          omega
        rw [List.find?_cons_of_neg passed]
        exact ih ascend member

/-- What is larger than everything in an ascending list may go to its end. -/
theorem ascending_snoc {α : Type} {number : α → Nat} {l : List α} {x : α}
    (ascend : l.Pairwise fun x y => number x < number y)
    (below : ∀ y ∈ l, number y < number x) :
    (l ++ [x]).Pairwise fun x y => number x < number y :=
  List.pairwise_append.mpr ⟨ascend, List.pairwise_singleton _ _, by simpa using below⟩

theorem range'_snoc {next : Nat} (positive : 1 ≤ next) :
    List.range' 1 (next + 1 - 1) = List.range' 1 (next - 1) ++ [next] := by
  obtain ⟨n, rfl⟩ : ∃ n, next = n + 1 := ⟨next - 1, by omega⟩
  simp [List.range'_concat, Nat.add_comm]

/-- The numbering is a matter of the skeleton. -/
theorem numbered_skeleton {next : Nat} : m.skeleton.Numbered next ↔ m.Numbered next := by
  have numbers : m.skeleton.elements.map (·.id.index) ++
      m.skeleton.relationships.map (·.id.index) =
        m.elements.map (·.id.index) ++ m.relationships.map (·.id.index) := by
    simp only [skeleton_elements, skeleton_relationships, List.map_map]
    rfl
  constructor <;> intro numbered
  · exact ⟨numbered.positive, by simpa [List.pairwise_map] using numbered.elements_ascend,
      by simpa [List.pairwise_map] using numbered.relationships_ascend,
      numbers ▸ numbered.numbers⟩
  · exact ⟨numbered.positive, by simpa [List.pairwise_map] using numbered.elements_ascend,
      by simpa [List.pairwise_map] using numbered.relationships_ascend,
      numbers ▸ numbered.numbers⟩

namespace Numbered

variable {next : Nat}

theorem element?_of_mem (numbered : m.Numbered next) {e : Element} (member : e ∈ m.elements) :
    m.element? e.id = some e :=
  find?_of_ascending numbered.elements_ascend member _ fun y => by
    simp [ElementId.ext_iff]

/-- An id names one element. -/
theorem element_eq_of_id (numbered : m.Numbered next) {e e' : Element} (member : e ∈ m.elements)
    (member' : e' ∈ m.elements) (same : e.id = e'.id) : e = e' := by
  have found := numbered.element?_of_mem member
  rw [same, numbered.element?_of_mem member'] at found
  exact (Option.some.inj found).symm

theorem relationship?_of_mem (numbered : m.Numbered next) {r : Relationship}
    (member : r ∈ m.relationships) : m.relationship? r.id = some r :=
  find?_of_ascending numbered.relationships_ascend member _ fun y => by
    simp [RelationshipId.ext_iff]

/-- An id names one relationship. -/
theorem relationship_eq_of_id (numbered : m.Numbered next) {r r' : Relationship}
    (member : r ∈ m.relationships) (member' : r' ∈ m.relationships) (same : r.id = r'.id) :
    r = r' := by
  have found := numbered.relationship?_of_mem member
  rw [same, numbered.relationship?_of_mem member'] at found
  exact (Option.some.inj found).symm

/-- No two relationships share an id. -/
theorem nodup_relationships (numbered : m.Numbered next) :
    (m.relationships.map (·.id)).Nodup := by
  refine List.Pairwise.map _ (fun r r' other => other) (numbered.relationships_ascend.imp ?_)
  intro r r' below same
  rw [same] at below
  omega

/-- No two elements share an id. -/
theorem nodup_elements (numbered : m.Numbered next) : (m.elements.map (·.id)).Nodup := by
  apply List.Pairwise.map _ _ numbered.elements_ascend
  intro e e' below same
  rw [same] at below
  omega

/-- Every number in use is below the next one. -/
theorem number_lt (numbered : m.Numbered next) {n : Nat}
    (used : n ∈ m.elements.map (·.id.index) ++ m.relationships.map (·.id.index)) :
    n < next := by
  have := List.mem_range'_1.mp (numbered.numbers.mem_iff.mp used)
  omega

theorem element_lt (numbered : m.Numbered next) {e : Element} (member : e ∈ m.elements) :
    e.id.index < next :=
  numbered.number_lt (List.mem_append_left _ (List.mem_map_of_mem member))

theorem relationship_lt (numbered : m.Numbered next) {r : Relationship}
    (member : r ∈ m.relationships) : r.id.index < next :=
  numbered.number_lt (List.mem_append_right _ (List.mem_map_of_mem member))

/-- A new element gets a number of its own and goes to the end. -/
theorem elements_putElement (numbered : m.Numbered next) {e : Element}
    (fresh : e.id = ⟨next⟩) : (m.putElement e).elements = m.elements ++ [e] :=
  putKeyed_of_new fun y member same => by
    have := numbered.element_lt member
    simp_all

/-- A new relationship gets a number of its own and goes to the end. -/
theorem relationships_putRelationship (numbered : m.Numbered next) {r : Relationship}
    (fresh : r.id = ⟨next⟩) :
    (m.putRelationship r).relationships = m.relationships ++ [r] :=
  putKeyed_of_new fun y member same => by
    have := numbered.relationship_lt member
    simp_all

/-- An element under the next number may be added at the end. -/
theorem snoc_element (numbered : m.Numbered next) {e : Element}
    (elements : m'.elements = m.elements ++ [e])
    (relationships : m'.relationships = m.relationships) (fresh : e.id = ⟨next⟩) :
    m'.Numbered (next + 1) where
  positive := by omega
  elements_ascend := by
    rw [elements]
    refine ascending_snoc numbered.elements_ascend fun x member => ?_
    simpa [fresh] using numbered.element_lt member
  relationships_ascend := relationships ▸ numbered.relationships_ascend
  numbers := by
    rw [range'_snoc numbered.positive]
    refine List.Perm.trans ?_ (numbered.numbers.append_right [next])
    simp only [elements, relationships, List.map_append, List.map_cons, List.map_nil, fresh,
      List.append_assoc]
    exact List.Perm.append_left _ List.perm_append_comm

/-- A relationship under the next number may be added at the end. -/
theorem snoc_relationship (numbered : m.Numbered next) {r : Relationship}
    (elements : m'.elements = m.elements)
    (relationships : m'.relationships = m.relationships ++ [r]) (fresh : r.id = ⟨next⟩) :
    m'.Numbered (next + 1) where
  positive := by omega
  elements_ascend := elements ▸ numbered.elements_ascend
  relationships_ascend := by
    rw [relationships]
    refine ascending_snoc numbered.relationships_ascend fun x member => ?_
    simpa [fresh] using numbered.relationship_lt member
  numbers := by
    rw [range'_snoc numbered.positive]
    refine List.Perm.trans ?_ (numbered.numbers.append_right [next])
    simp [elements, relationships, fresh]

end Numbered

/-! ### Climbing -/

/-- What the parent of an element is: an older element, of a kind that may contain it. -/
theorem Nested.parent?_spec (nested : m.Nested) {id parent : ElementId}
    (inside : m.parent? id = some parent) :
    ∃ e ∈ m.elements, e.id = id ∧ ∃ p ∈ m.elements, p.id = parent ∧
      parent.index < id.index ∧ p.kind.canContain e.kind := by
  obtain ⟨e, found, link⟩ := Option.bind_eq_some_iff.mp inside
  obtain ⟨member, rfl⟩ := element?_eq_some found
  exact ⟨e, member, rfl, (nested e member).inside_older parent link⟩

theorem Nested.parent?_older (nested : m.Nested) {id parent : ElementId}
    (inside : m.parent? id = some parent) : parent.index < id.index := by
  obtain ⟨_, _, _, _, _, _, older, _⟩ := nested.parent?_spec inside
  exact older

/-- A climb of as many steps as the number of an element says reaches the top: more steps
pass nothing more. -/
theorem Nested.ancestorsWithin_eq (nested : m.Nested) {limit : Nat} {id : ElementId}
    (enough : id.index ≤ limit) : m.ancestorsWithin limit id = m.ancestors id := by
  suffices ∀ limit limit' id, id.index ≤ limit → id.index ≤ limit' →
      m.ancestorsWithin limit id = m.ancestorsWithin limit' id from
    this limit id.index id enough (Nat.le_refl _)
  intro limit
  induction limit with
  | zero =>
      intro limit' id enough _
      cases limit' with
      | zero => rfl
      | succ limit' =>
          cases inside : m.parent? id with
          | none => simp [ancestorsWithin, inside]
          | some parent =>
              have := nested.parent?_older inside
              omega
  | succ limit ih =>
      intro limit' id enough enough'
      cases inside : m.parent? id with
      | none => cases limit' <;> simp [ancestorsWithin, inside]
      | some parent =>
          have older := nested.parent?_older inside
          cases limit' with
          | zero => omega
          | succ limit' =>
              simp only [ancestorsWithin, inside]
              rw [ih limit' parent (by omega) (by omega)]

/-- The ancestors of an element are its parent and the ancestors of its parent. -/
theorem Nested.ancestors_eq (nested : m.Nested) (id : ElementId) :
    m.ancestors id = match m.parent? id with
      | none => []
      | some parent => m.lineage parent := by
  cases inside : m.parent? id with
  | none =>
      rw [← nested.ancestorsWithin_eq (Nat.le_succ id.index)]
      simp only [ancestorsWithin, inside]
  | some parent =>
      have older := nested.parent?_older inside
      rw [← nested.ancestorsWithin_eq (Nat.le_succ id.index)]
      simp only [ancestorsWithin, inside, lineage]
      rw [nested.ancestorsWithin_eq (by omega)]

/-- Climbing ends, and passes exactly the ancestors. -/
theorem Nested.climb_ancestors (nested : m.Nested) (id : ElementId) :
    m.Climb (m.parent? id) (m.ancestors id) := by
  induction id using ElementId.induction_older with
  | older id ih =>
      rw [nested.ancestors_eq]
      cases inside : m.parent? id with
      | none => exact .done
      | some parent => exact .up (ih parent (nested.parent?_older inside))

/-- Ancestors are older than what they contain, and listed from the youngest on. -/
theorem Nested.ancestors_descend (nested : m.Nested) (id : ElementId) :
    (m.lineage id).Pairwise fun x y => y.index < x.index := by
  induction id using ElementId.induction_older with
  | older id ih =>
      rw [lineage, nested.ancestors_eq]
      cases inside : m.parent? id with
      | none => exact List.pairwise_singleton _ _
      | some parent =>
          have older := nested.parent?_older inside
          have above := ih parent older
          refine List.pairwise_cons.mpr ⟨fun x member => ?_, above⟩
          rcases List.mem_cons.mp member with rfl | further
          · exact older
          · have := (List.pairwise_cons.mp above).1 x further
            omega

/-- Every ancestor is the parent of something. -/
theorem Nested.exists_child (nested : m.Nested) {ancestor id : ElementId}
    (member : ancestor ∈ m.ancestors id) : ∃ child, m.parent? child = some ancestor := by
  induction id using ElementId.induction_older with
  | older id ih =>
      rw [nested.ancestors_eq] at member
      cases inside : m.parent? id with
      | none => simp [inside] at member
      | some parent =>
          simp only [inside] at member
          rcases List.mem_cons.mp member with rfl | further
          · exact ⟨id, inside⟩
          · exact ih parent (nested.parent?_older inside) further

theorem Nested.ancestor_older (nested : m.Nested) {ancestor id : ElementId}
    (member : ancestor ∈ m.ancestors id) : ancestor.index < id.index :=
  (List.pairwise_cons.mp (nested.ancestors_descend id)).1 ancestor member

theorem Nested.nodup_ancestors (nested : m.Nested) (id : ElementId) :
    (m.ancestors id).Nodup :=
  (List.pairwise_cons.mp (nested.ancestors_descend id)).2.imp fun older same => by
    simp [same] at older

/-- The lineage of an ancestor ends the lineage of what it contains. -/
theorem Nested.lineage_suffix (nested : m.Nested) {ancestor id : ElementId}
    (member : ancestor ∈ m.ancestors id) : m.lineage ancestor <:+ m.ancestors id := by
  induction id using ElementId.induction_older with
  | older id ih =>
      rw [nested.ancestors_eq] at member ⊢
      cases inside : m.parent? id with
      | none => simp [inside] at member
      | some parent =>
          simp only [inside] at member ⊢
          rcases List.mem_cons.mp member with rfl | further
          · exact List.suffix_refl _
          · exact (ih parent (nested.parent?_older inside) further).trans
              (List.suffix_cons _ _)

/-! ### Containment is a strict order -/

theorem isAncestor_iff {ancestor id : ElementId} :
    m.isAncestor ancestor id = true ↔ ancestor ∈ m.ancestors id := by
  simp [isAncestor]

/-- Nothing contains itself, as everything is younger than what contains it. -/
theorem Nested.not_isAncestor_self (nested : m.Nested) (id : ElementId) :
    m.isAncestor id id = false := by
  refine Bool.eq_false_iff.mpr fun contained => ?_
  have := nested.ancestor_older (isAncestor_iff.mp contained)
  omega

theorem Nested.isAncestor_trans (nested : m.Nested) {x y z : ElementId}
    (outer : m.isAncestor x y) (inner : m.isAncestor y z) : m.isAncestor x z := by
  rw [isAncestor_iff] at *
  exact (nested.lineage_suffix inner).subset (List.mem_cons_of_mem y outer)

/-- Nothing contains what it is contained in, as parents are older. -/
theorem Nested.isAncestor_asymm (nested : m.Nested) {x y : ElementId}
    (contained : m.isAncestor x y) : m.isAncestor y x = false := by
  refine Bool.eq_false_iff.mpr fun converse => ?_
  have below := nested.ancestor_older (isAncestor_iff.mp contained)
  have above := nested.ancestor_older (isAncestor_iff.mp converse)
  omega

end Model

end Edifice
