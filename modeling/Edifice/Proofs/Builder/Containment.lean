import Edifice.Proofs.Builder.Growth

/-!
Containment in reachable builders.

An element is entered only where `checkPlace` permits it: inside an element that is there
already, hence older, and whose kind may contain it, or at the top if its kind may stand
there.  So every step keeps the model nested, and with the numbering that every step keeps
as well, containment is a strict order at all times.
-/

namespace Edifice

/-- What is contained in something is of no kind that stands at the top. -/
theorem ElementKind.isTopLevel_of_canContain {parent child : ElementKind}
    (contains : parent.canContain child) : child.isTopLevel = false := by
  cases parent <;> cases child <;> first | rfl | cases contains

namespace Model

variable {m m' : Model}

/-- An element may be declared at the top, or inside an element that may contain it. -/
theorem checkPlace_eq_ok {kind : ElementKind} {parent : Option ElementId} :
    m.checkPlace kind parent = .ok () ↔
      (parent = none ∧ kind.requiresParent = false) ∨
        ∃ id p, parent = some id ∧ m.element? id = some p ∧ p.kind.canContain kind := by
  unfold checkPlace
  cases parent with
  | none => by_cases required : kind.requiresParent <;> simp [required]
  | some id =>
    cases found : m.element? id with
    | none => simp [found]
    | some p => by_cases contains : p.kind.canContain kind <;> simp [found, contains]

/-- An element lies where it may in every model that extends its own. -/
theorem Placed.extends_ {e e' : Element} (placed : m.Placed e) (extends_ : m.Extends m')
    (same : e'.core = e.core) : m'.Placed e' := by
  obtain ⟨id, kind, -, -, parent, -⟩ := Element.core_eq_iff.mp same
  refine ⟨fun id' inside => ?_, ?_, ?_⟩
  · obtain ⟨p, member, own, older, contains⟩ := placed.inside_older id' (parent ▸ inside)
    obtain ⟨p', member', core⟩ := extends_.exists_element member
    obtain ⟨id_eq, kind_eq, -⟩ := Element.core_eq_iff.mp core
    exact ⟨p', member', id_eq.trans own, id ▸ older, by rwa [kind_eq, kind]⟩
  · simpa only [kind, parent] using placed.needs_parent
  · simpa only [kind, parent] using placed.stands_alone

/-- What may be declared where it is lies where it may: what contains it is there already,
and so has a smaller number. -/
theorem Placed.of_checkPlace {next : Nat} (numbered : m.Numbered next) {e : Element}
    (fresh : e.id = ⟨next⟩) (checked : m.checkPlace e.kind e.parent = .ok ()) :
    m.Placed e := by
  rcases checkPlace_eq_ok.mp checked with ⟨top, free⟩ | ⟨id, p, inside, found, contains⟩
  · exact ⟨by simp [top], by simp [free], fun _ => top⟩
  · obtain ⟨member, rfl⟩ := element?_eq_some found
    refine ⟨fun id link => ?_, by simp [inside], fun alone => ?_⟩
    · obtain rfl := Option.some.inj (inside.symm.trans link)
      exact ⟨p, member, rfl, by simpa [fresh] using numbered.element_lt member, contains⟩
    · simp [ElementKind.isTopLevel_of_canContain contains] at alone

end Model

namespace Builder

variable {b b' : Builder}

/-- A draft passes if its place, its name among the top-level ones and its canonical name all
do. -/
theorem checkElement_eq_ok {draft : Element} :
    b.checkElement draft = .ok () ↔
      b.model.checkPlace draft.kind draft.parent = .ok () ∧
        ¬ (draft.kind.isTopLevel ∧ b.topLevelNames.contains draft.name) ∧
          ¬ b.model.canonicalNames.contains (b.model.canonicalName draft) := by
  simp [checkElement, Check.then_eq_ok]

/-- A step keeps the model nested. -/
theorem Grows.nested (step : Grows b b') (numbered : b.Numbered) (nested : b.model.Nested) :
    b'.model.Nested := by
  intro e' member
  have extends_ := step.extends_ numbered
  rcases step.mem_elements numbered member with ⟨e, member, same⟩ | ⟨draft, -, checked, rfl⟩
  · exact (nested e member).extends_ extends_ same
  · have placed : b.model.Placed (b.newElement draft) :=
      .of_checkPlace numbered rfl (checkElement_eq_ok.mp checked).1
    exact placed.extends_ extends_ rfl

theorem Grown.nested (grown : Grown b) : b.model.Nested :=
  grown.induction (fun _ _ => List.forall_mem_nil _) fun _ _ earlier step =>
    step.nested earlier.numbered

/-- **Containment is a forest in which parents are older than children.**  In every
reachable builder the elements and relationships share the numbers below the next one, each
in ascending order; every element lies in an older one that may contain it, or at the top
where its kind stands there.  Climbing from parent to parent therefore ends and passes no
element twice, and containment is a strict order. -/
theorem containment_of_reachable (reachable : Reachable b) :
    b.model.Numbered b.nextId ∧ b.model.Nested ∧
      (∀ id, b.model.Climb (b.model.parent? id) (b.model.ancestors id) ∧
        (b.model.ancestors id).Nodup) ∧
      (∀ x, b.model.isAncestor x x = false) ∧
      (∀ x y z, b.model.isAncestor x y → b.model.isAncestor y z → b.model.isAncestor x z) ∧
      ∀ x y, b.model.isAncestor x y → b.model.isAncestor y x = false := by
  have nested := reachable.grown.nested
  refine ⟨reachable.grown.numbered, nested, fun id => ?_, nested.not_isAncestor_self,
    fun x y z => nested.isAncestor_trans, fun x y => nested.isAncestor_asymm⟩
  exact ⟨nested.climb_ancestors id, nested.nodup_ancestors id⟩

/-- The shop contains its web application, and not the other way round. -/
theorem containment_of_shop :
    shop.Reachable ∧ shop.model.Numbered 12 ∧ shop.model.Nested ∧
      shop.model.isAncestor ⟨1⟩ ⟨2⟩ ∧ shop.model.isAncestor ⟨2⟩ ⟨1⟩ = false := by
  have next : shop.nextId = 12 := by decide +kernel
  have inside : shop.model.isAncestor ⟨1⟩ ⟨2⟩ := by decide +kernel
  obtain ⟨numbered, nested, -, -, -, asymm⟩ := containment_of_reachable reachable_shop
  exact ⟨reachable_shop, next ▸ numbered, nested, inside, asymm _ _ inside⟩

end Builder

end Edifice
