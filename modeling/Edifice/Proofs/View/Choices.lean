import Edifice.Proofs.Model.Extension
import Edifice.View.Selection

/-!
What selections stand for.

A selection that is included stands for elements (`Selection.Chooses`): what `*` stands for
depends on what the view is about, a filter stands for the elements that it describes, and a
coupling for an element and what it is related to.  A selection that is excluded matches
elements and lines (`Selection.Matches`, `Selection.MatchesLine`).  Both are said here of the
elements and relationships of the model; the lists and tests by which statements are executed
agree with that.
-/

namespace Edifice

namespace Model

variable {m : Model} {x y : ElementId}

/-- The elements are two, and one of them is related to the other. -/
def Adjacent (m : Model) (x y : ElementId) : Prop :=
  x ≠ y ∧ ∃ r ∈ m.relationships,
    r.source = x ∧ r.destination = y ∨ r.source = y ∧ r.destination = x

/-- Neighbours are found by their relationships, in either direction. -/
theorem mem_neighbours : y ∈ m.neighbours x ↔ m.Adjacent x y := by
  simp only [neighbours, efferent, afferent, Adjacent, List.mem_filter, List.mem_append,
    List.mem_map, beq_iff_eq, bne_iff_ne]
  constructor
  · rintro ⟨⟨r, ⟨listed, out⟩, rfl⟩ | ⟨r, ⟨listed, into⟩, rfl⟩, apart⟩
    · exact ⟨apart.symm, r, listed, .inl ⟨out, rfl⟩⟩
    · exact ⟨apart.symm, r, listed, .inr ⟨rfl, into⟩⟩
  · rintro ⟨apart, r, listed, ⟨out, rfl⟩ | ⟨rfl, into⟩⟩
    · exact ⟨.inl ⟨r, ⟨listed, out⟩, rfl⟩, apart.symm⟩
    · exact ⟨.inr ⟨r, ⟨listed, into⟩, rfl⟩, apart.symm⟩

/-- A relationship that the coupling of `x` follows leads between `x` and `y`. -/
def Couples (m : Model) (coupling : Coupling) (x y : ElementId) : Prop :=
  ∃ r ∈ m.relationships,
    coupling ≠ .efferent ∧ r.destination = x ∧ r.source = y ∨
      coupling ≠ .afferent ∧ r.source = x ∧ r.destination = y

/-- The far ends that a coupling follows are found relationship by relationship. -/
theorem mem_coupled {coupling : Coupling} :
    y ∈ m.coupled x coupling ↔ m.Couples coupling x y := by
  simp only [coupled, Couples, List.mem_map, List.mem_filter, and_assoc]
  refine exists_congr fun r => and_congr_right fun _ => ?_
  cases coupling <;> simp only [Coupling.follows, beq_iff_eq, Bool.or_eq_true] <;>
    split <;> grind

end Model

/-- The coupling of `element` follows relationships that lead into it, out of it, or both. -/
def Coupling.Follows (c : Coupling) (element source destination : ElementId) : Prop :=
  c ≠ .efferent ∧ destination = element ∨ c ≠ .afferent ∧ source = element

instance (c : Coupling) (element source destination : ElementId) :
    Decidable (c.Follows element source destination) :=
  inferInstanceAs (Decidable
    (c ≠ .efferent ∧ destination = element ∨ c ≠ .afferent ∧ source = element))

theorem Coupling.follows_iff {c : Coupling} {element source destination : ElementId} :
    c.follows element source destination ↔ c.Follows element source destination := by
  cases c <;> simp [follows, Follows, or_comm]

namespace Selection

variable {m : Model} {s : Selection} {x : ElementId}

/-! ### Elements and relationships -/

/-- The selection describes an element: a filter by tags those that carry one of them, a
filter by type those of the kind, and each the other ones where it is negated. -/
def Describes (s : Selection) (e : Element) : Prop :=
  match s with
  | .all => True
  | .elementTags tags negated => (∃ t ∈ tags, e.item.hasTag t) ↔ negated = false
  | .elementType kind negated => e.kind = kind ↔ negated = false
  | .element id => e.id = id
  | _ => False

/-- The test of an element is what the selection describes, form by form. -/
theorem picksElement_iff {e : Element} : s.picksElement e ↔ s.Describes e := by
  cases s with
  | elementTags tags negated => cases negated <;> simp [picksElement, Describes, hasAnyTag]
  | elementType kind negated => cases negated <;> simp [picksElement, Describes]
  | element id => exact beq_iff_eq.trans eq_comm
  | _ => simp [picksElement, Describes]

instance (s : Selection) : DecidablePred s.Describes :=
  fun _ => decidable_of_iff _ picksElement_iff

/-- The selection is a filter that describes a relationship. -/
def DescribesRelationship (s : Selection) (r : Relationship) : Prop :=
  match s with
  | .allRelationships => True
  | .relationshipTags tags negated => (∃ t ∈ tags, r.item.hasTag t) ↔ negated = false
  | _ => False

/-- The test of a relationship is what the filter describes, form by form. -/
theorem picksRelationship_iff {r : Relationship} :
    s.picksRelationship r ↔ s.DescribesRelationship r := by
  cases s with
  | relationshipTags tags negated =>
    cases negated <;> simp [picksRelationship, DescribesRelationship, hasAnyTag]
  | _ => simp [picksRelationship, DescribesRelationship]

instance (s : Selection) : DecidablePred s.DescribesRelationship :=
  fun _ => decidable_of_iff _ picksRelationship_iff

/-! ### What is excluded -/

/-- The selection matches the element with the id. -/
def Matches (m : Model) (s : Selection) (x : ElementId) : Prop :=
  ∃ e ∈ m.elements, e.id = x ∧ s.Describes e

instance (m : Model) (s : Selection) : DecidablePred (s.Matches m) :=
  fun x => inferInstanceAs (Decidable (∃ e ∈ m.elements, e.id = x ∧ s.Describes e))

/-- The selection matches a line: a coupling by its direction, a pair of ends by those that
are given, and any other selection by the relationship of the line. -/
def MatchesLine (m : Model) (s : Selection) (l : ViewLine) : Prop :=
  match s with
  | .coupled id coupling => coupling.Follows id l.source l.destination
  | .between source destination =>
    (∀ id ∈ source, l.source = id) ∧ ∀ id ∈ destination, l.destination = id
  | .relationship id => l.relationship = id
  | s => ∃ r ∈ m.relationships, r.id = l.relationship ∧ s.DescribesRelationship r

instance (m : Model) (s : Selection) : DecidablePred (s.MatchesLine m) := fun l =>
  match s with
  | .coupled id coupling =>
    inferInstanceAs (Decidable (coupling.Follows id l.source l.destination))
  | .between source destination => inferInstanceAs (Decidable
      ((∀ id ∈ source, l.source = id) ∧ ∀ id ∈ destination, l.destination = id))
  | .relationship id => inferInstanceAs (Decidable (l.relationship = id))
  | .all | .elementTags .. | .elementType .. | .relationshipTags .. | .allRelationships
  | .element _ => inferInstanceAs (Decidable
      (∃ r ∈ m.relationships, r.id = l.relationship ∧ DescribesRelationship _ r))

/-- An element matches a selection by its id, as no two elements share one. -/
theorem matches_iff {next : Nat} (numbered : m.Numbered next) :
    ((m.element? x).map s.picksElement).getD false ↔ s.Matches m x := by
  cases found : m.element? x with
  | none =>
    simp only [Option.map_none, Option.getD_none, Bool.false_eq_true, false_iff]
    rintro ⟨e, listed, rfl, -⟩
    cases found.symm.trans (numbered.element?_of_mem listed)
  | some e =>
    obtain ⟨listed, rfl⟩ := Model.element?_eq_some found
    simp only [Option.map_some, Option.getD_some, picksElement_iff]
    constructor
    · intro described
      exact ⟨e, listed, rfl, described⟩
    · rintro ⟨e', listed', same, described⟩
      exact numbered.element_eq_of_id listed' listed same ▸ described

theorem isEnd_iff {asked : Option ElementId} : isEnd asked x ↔ ∀ id ∈ asked, x = id := by
  cases asked with
  | none => simp [isEnd]
  | some id => simpa [isEnd] using eq_comm

/-- A line matches a selection by the relationship it draws. -/
theorem picksLine_iff {next : Nat} (numbered : m.Numbered next) {l : ViewLine} :
    s.picksLine m l ↔ s.MatchesLine m l := by
  have listed_iff : ((m.relationship? l.relationship).map s.picksRelationship).getD false ↔
      ∃ r ∈ m.relationships, r.id = l.relationship ∧ s.DescribesRelationship r := by
    cases found : m.relationship? l.relationship with
    | none =>
      simp only [Option.map_none, Option.getD_none, Bool.false_eq_true, false_iff]
      rintro ⟨r, listed, own, -⟩
      cases found.symm.trans (own ▸ numbered.relationship?_of_mem listed)
    | some r =>
      obtain ⟨listed, own⟩ := Model.relationship?_eq_some found
      simp only [Option.map_some, Option.getD_some, picksRelationship_iff]
      constructor
      · intro described
        exact ⟨r, listed, own, described⟩
      · rintro ⟨r', listed', own', described⟩
        exact numbered.relationship_eq_of_id listed' listed (own'.trans own.symm) ▸ described
  cases s with
  | coupled id coupling => exact Coupling.follows_iff
  | between source destination =>
    simp only [picksLine, MatchesLine, Bool.and_eq_true, isEnd_iff]
  | relationship id => exact beq_iff_eq.trans eq_comm
  | _ => exact listed_iff

/-! ### What is included -/

def isOfElements : Selection → Bool
  | .all | .elementTags .. | .elementType .. | .coupled .. | .element _ => true
  | _ => false

/-- The element that the selection names, which must be accepted. -/
def named? : Selection → Option ElementId
  | .coupled id _ | .element id => some id
  | _ => none

/-- The element is one that the selection stands for when it is included in the view. -/
def Chooses (m : Model) (v : View) (s : Selection) (x : ElementId) : Prop :=
  match s with
  | .all =>
    match v.kind with
    | .systemContext => ∃ system, v.scope = some system ∧ (x = system ∨ m.Adjacent system x)
    | .container | .component =>
      ∃ scope, v.scope = some scope ∧
        ∃ e ∈ m.elements, e.parent = some scope ∧ (x = e.id ∨ m.Adjacent e.id x)
    | _ => m.Declares x
  | .coupled id coupling => x = id ∨ m.Couples coupling id x
  | .element id => x = id
  | s => s.Matches m x

/-- The elements that the selection stands for, in the order in which they come in. -/
def chosen (m : Model) (v : View) (s : Selection) : List ElementId :=
  match s with
  | .all => v.defaultElements m
  | .elementTags .. | .elementType .. => (m.elements.filter s.picksElement).map (·.id)
  | .coupled id coupling => id :: m.coupled id coupling
  | .element id => [id]
  | _ => []

/-- What a view shows by default is said kind by kind, and read off the model so. -/
theorem mem_defaultElements {v : View} (about : v.kind.requiresScope → v.scope.isSome) :
    x ∈ v.defaultElements m ↔ Chooses m v .all x := by
  have inside : ∀ scope : ElementId,
      (x ∈ (m.childrenOf scope).map (·.id) ++
        ((m.childrenOf scope).map (·.id)).flatMap m.neighbours) ↔
      ∃ e ∈ m.elements, e.parent = some scope ∧ (x = e.id ∨ m.Adjacent e.id x) := by
    intro scope
    simp only [Model.childrenOf, List.mem_append, List.mem_map, List.mem_flatMap, List.mem_filter,
      beq_iff_eq, Model.mem_neighbours]
    constructor
    · rintro (⟨e, ⟨listed, inside⟩, rfl⟩ | ⟨_, ⟨e, ⟨listed, inside⟩, rfl⟩, adjacent⟩)
      · exact ⟨e, listed, inside, .inl rfl⟩
      · exact ⟨e, listed, inside, .inr adjacent⟩
    · rintro ⟨e, listed, inside, rfl | adjacent⟩
      · exact .inl ⟨e, ⟨listed, inside⟩, rfl⟩
      · exact .inr ⟨e.id, ⟨e, ⟨listed, inside⟩, rfl⟩, adjacent⟩
  cases kind : v.kind <;> cases scope : v.scope <;>
    simp_all [View.defaultElements, Chooses, ViewKind.requiresScope, Model.mem_neighbours,
      Model.Declares]

/-- What a selection of elements chooses is said form by form, and read off the model so. -/
theorem mem_chosen {v : View} (elements : s.isOfElements)
    (about : v.kind.requiresScope → v.scope.isSome) :
    x ∈ s.chosen m v ↔ s.Chooses m v x := by
  have filtered : (x ∈ (m.elements.filter s.picksElement).map (·.id)) ↔ s.Matches m x := by
    simp only [List.mem_map, List.mem_filter, picksElement_iff, Matches, and_assoc]
    exact exists_congr fun e => and_congr_right fun _ => and_comm
  cases s with
  | all => exact mem_defaultElements about
  | elementTags | elementType => exact filtered
  | coupled id coupling => simp [chosen, Chooses, Model.mem_coupled]
  | element id => simp [chosen, Chooses]
  | _ => cases elements

end Selection

end Edifice
