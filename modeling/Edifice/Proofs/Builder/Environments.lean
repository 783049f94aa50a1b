import Edifice.Proofs.Builder.Views

/-!
Deployment trees, their environments, and what the views of a workspace show.

Nothing checks that a deployment node is added in the environment of the node around it.
Where the calls of a run see to that themselves (`Call.Matches`), each deployment tree lies
in one environment, and all that the views show is accepted: each of them is well formed
(`View.WellFormed`), whatever was included, excluded and drawn in the run.
-/

open Edifice.Change

namespace Edifice

namespace Model

variable {m m' : Model}

/-- Where the trees of a larger model lie in one environment each, so do those of the
smaller one. -/
theorem OneEnvironment.of_extends (one : m'.OneEnvironment) (extends_ : m.Extends m') :
    m.OneEnvironment := by
  intro e member deployment p member_p inside
  obtain ⟨e', member', same⟩ := extends_.exists_element member
  obtain ⟨p', member_p', same_p⟩ := extends_.exists_element member_p
  obtain ⟨-, kind, -, -, parent, -, environment, -⟩ := Element.core_eq_iff.mp same
  obtain ⟨id, -, -, -, -, -, environment_p, -⟩ := Element.core_eq_iff.mp same_p
  rw [← environment, ← environment_p]
  refine one e' member' (kind ▸ deployment) p' member_p' ?_
  rw [parent, inside, id]

end Model

namespace Builder

variable {b b' : Builder}

/-! ### Runs that fit -/

/-- `LeadsBy fits b b'`: calls that fit the builder that they are performed on lead from `b`
to `b'`, refused or not. -/
inductive LeadsBy (fits : Builder → Call → Prop) (b : Builder) : Builder → Prop where
  | refl : LeadsBy fits b b
  | call {b' : Builder} (earlier : LeadsBy fits b b') (c : Call) (fit : fits b' c) :
      LeadsBy fits b (c.perform.after b')

theorem LeadsBy.leads {fits : Builder → Call → Prop} (run : LeadsBy fits b b') :
    Leads b b' := by
  induction run with
  | refl => exact .refl
  | call _ c _ ih => exact .call ih c

theorem LeadsBy.trans {fits : Builder → Call → Prop} (first : LeadsBy fits b b')
    (second : LeadsBy fits b' b'') : LeadsBy fits b b'' := by
  induction second with
  | refl => exact first
  | call _ c fit ih => exact .call ih c fit

/-- A run that meets a condition meets every weaker one. -/
theorem LeadsBy.mono {fits fits' : Builder → Call → Prop} (run : LeadsBy fits b b')
    (grown : Grown b) (weaker : ∀ b c, Grown b → fits b c → fits' b c) :
    LeadsBy fits' b b' := by
  induction run with
  | refl => exact .refl
  | call earlier c fit ih =>
    exact .call ih c (weaker _ c (grown.evolves (earlier.leads.evolves grown.numbered)) fit)

/-- A deployment node that the call adds inside another one lies in its environment. -/
def Call.Matches (b : Builder) : Call → Prop
  | .addDeploymentNode environment (some parent) name =>
    ∀ id, (Builder.addDeploymentNode environment (some parent) name).answer b = .ok id →
      ∀ p ∈ b.model.elements, p.id = parent → p.environment = some environment
  | _ => True

/-- `LeadsMatching b b'`: calls lead from `b` to `b'` that add every deployment node inside
another one in its environment. -/
abbrev LeadsMatching : Builder → Builder → Prop :=
  LeadsBy fun b c => c.Matches b

/-! ### Elements -/

/-- Entering an element in the environment of the one around it keeps each tree in one
environment. -/
theorem oneEnvironment_enterElement (grown : Grown b) (one : b.model.OneEnvironment)
    {draft : Element} (drafted : b.Drafted draft) (checked : b.checkElement draft = .ok ())
    (home : draft.kind.isDeployment → ∀ p ∈ b.model.elements, draft.parent = some p.id →
      draft.environment = p.environment) :
    (b.enterElement draft).2.model.OneEnvironment := by
  have step : Grows b (b.enterElement draft).2 := .element drafted checked
  have nested := step.nested grown.numbered grown.nested
  have numbered := step.numbered grown.numbered
  have elements := elements_enterElement grown.numbered draft
  intro e member deployment p member_p inside
  -- What lies in something was declared after it, so nothing lies in the new element.
  have older : p.id.index < e.id.index := by
    obtain ⟨p', member', own, before, -⟩ := (nested e member).inside_older p.id inside
    exact before
  have bound : e.id.index < b.nextId + 1 := numbered.element_lt member
  rw [elements, List.mem_append, List.mem_singleton] at member member_p
  have member_p : p ∈ b.model.elements := by
    rcases member_p with member_p | rfl
    · exact member_p
    · simp only [newElement] at older
      omega
  rcases member with member | rfl
  · exact one e member deployment p member_p inside
  · exact home deployment p member_p inside

/-- What is declared, but for a deployment node inside another, is declared in the
environment of what is around it. -/
theorem Drafted.home {draft : Element} (drafted : b.Drafted draft) (numbered : b.Numbered)
    (other : draft.kind ≠ .deploymentNode) (deployment : draft.kind.isDeployment) {p : Element}
    (member : p ∈ b.model.elements) (inside : draft.parent = some p.id) :
    draft.environment = p.environment := by
  cases drafted with
  | person | softwareSystem | container | component | customElement => cases deployment
  | deploymentNode => exact absurd rfl other
  | @infrastructureNode parent around =>
    obtain rfl := numbered.element_eq_of_id member around (Option.some.inj inside).symm
    rfl
  | copy answer =>
    obtain ⟨deployed, kind, parent, -, -, found, -, rfl⟩ := instanceDraft_eq_ok answer
    obtain ⟨around, rfl⟩ := Model.element?_eq_some found
    obtain rfl := numbered.element_eq_of_id member around (Option.some.inj inside).symm
    rfl

/-- A relationship leaves the elements alone. -/
theorem joins_elements : Joins (Same fun b : Builder => b.model.elements) :=
  fun _ _ _ _ _ _ => rfl

theorem elements_replicate (b : Builder) (id : ElementId) :
    (b.replicate id).model.elements = b.model.elements :=
  joins_elements.replicate b id

theorem elements_implyIfEnabled (b : Builder) (id : RelationshipId) :
    (b.implyIfEnabled id).model.elements = b.model.elements :=
  joins_elements.implyIfEnabled b id

/-- Relationships have no part in where trees lie. -/
theorem oneEnvironment_of_elements {m m' : Model} (one : m.OneEnvironment)
    (same : m'.elements = m.elements) : m'.OneEnvironment := by
  unfold Model.OneEnvironment
  rw [same]
  exact one

/-- A call that matches keeps each tree in one environment. -/
theorem Call.oneEnvironment (c : Call) (grown : Grown b) (fit : c.Matches b)
    (one : b.model.OneEnvironment) {a : c.Answer} (done : c.perform b = .ok a b') :
    b'.model.OneEnvironment := by
  have entered : ∀ {draft : Element} {id : ElementId} {b₁ : Builder}, b.Drafted draft →
      draft.kind ≠ .deploymentNode → insertElement draft b = .ok id b₁ →
        b₁.model.OneEnvironment := by
    intro draft id b₁ drafted other inserted
    obtain ⟨checked, -, rfl⟩ := insertElement_eq_ok.mp inserted
    exact oneEnvironment_enterElement grown one drafted checked fun deployment p =>
      drafted.home grown.numbered other deployment
  cases c with
  | addPerson name group => exact entered (.person name group) (by simp [Element.draft]) done
  | addSoftwareSystem name group =>
    exact entered (.softwareSystem name group) (by simp [Element.draft]) done
  | addContainer system name group =>
    exact entered (.container system name group) (by simp [Element.draft]) done
  | addComponent container name group =>
    exact entered (.component container name group) (by simp [Element.draft]) done
  | addCustomElement name metadata group =>
    exact entered (.customElement name _ group) (by simp [Element.draft]) done
  | addDeploymentNode environment parent name =>
    obtain ⟨checked, rfl, rfl⟩ := insertElement_eq_ok.mp done
    refine oneEnvironment_enterElement grown one (.deploymentNode environment parent name)
      checked fun _ p member inside => ?_
    obtain rfl : parent = some p.id := inside
    have answer : (Builder.addDeploymentNode environment (some p.id) name).answer b = .ok _ :=
      answer_eq_ok.mpr (after_of_ok done ▸ done)
    exact (fit _ answer p member rfl).symm
  | addInfrastructureNode node name =>
    obtain ⟨parent, found, inserted⟩ := ask_bind_eq_ok.mp done
    obtain ⟨member, rfl⟩ := Model.element?_eq_some (element_eq_ok.mp found)
    exact entered (.infrastructureNode member name) (by simp [Element.draft]) inserted
  | addInstance node of =>
    obtain ⟨draft, b₁, answer, inserted, rfl⟩ := addInstance_eq_ok.mp done
    refine oneEnvironment_of_elements ?_ (elements_replicate b₁ a)
    refine entered (.copy answer) (fun node_kind => ?_) inserted
    obtain ⟨deployed, kind, parent, -, deploys, -, -, rfl⟩ := instanceDraft_eq_ok answer
    obtain rfl : kind = .deploymentNode := node_kind
    cases ElementKind.isInstance_of_instanceKind? deploys
  | addRelationship =>
    obtain ⟨-, rfl, rfl⟩ := addRelationship_eq_ok.mp done
    exact oneEnvironment_of_elements one (elements_implyIfEnabled _ _)
  | _ =>
    have same : b'.model.skeleton = b.model.skeleton :=
      congrArg Prod.fst (Call.keeps_stock _ rfl b a b' done)
    exact one.of_extends (.of_skeleton_eq same.symm)

/-- In a run whose calls match, each tree lies in one environment. -/
theorem LeadsMatching.oneEnvironment (run : LeadsMatching b b') (grown : Grown b)
    (one : b.model.OneEnvironment) : b'.model.OneEnvironment := by
  induction run with
  | refl => exact one
  | @call b₁ earlier c fit ih =>
    have grown₁ : Grown b₁ := grown.evolves (earlier.leads.evolves grown.numbered)
    exact c.holds_after ih fun _ _ => c.oneEnvironment grown₁ fit ih

/-! ### What the views show -/

/-- Steps keep accepted what the views show, if each tree lies in one environment at the
end, and so all along. -/
theorem Redrawn.accepted (run : Redrawn b b') (grown : Grown b) (drawn : b.Drawn)
    (one : b'.model.OneEnvironment) (accepted : b.Accepted) : b'.Accepted := by
  induction run with
  | refl => exact accepted
  | @tail b₁ b₂ earlier step ih =>
    have grown₁ : Grown b₁ := grown.evolves (Redrawn.evolves earlier)
    have one₁ : b₁.model.OneEnvironment :=
      one.of_extends (step.evolves.extends_ grown₁.numbered)
    exact step.accepted grown₁ (Redrawn.drawn earlier grown drawn) one₁ (ih one₁)

/-- A call that succeeds keeps accepted what the views show, if each tree lies in one
environment after it. -/
theorem Call.accepted (c : Call) (grown : Grown b) (drawn : b.Drawn)
    (one : b'.model.OneEnvironment) (accepted : b.Accepted) {a : c.Answer}
    (done : c.perform b = .ok a b') : b'.Accepted := by
  rcases c.redrawn grown done with run | ⟨key, v, -, found, rfl⟩
  · exact run.accepted grown drawn one accepted
  · intro w member
    rcases mem_views_putView member with rfl | member
    · exact accepted v (mem_of_view found)
    · exact accepted w member

/-- Calls keep accepted what the views show, if each tree lies in one environment at the
end, and so all along. -/
theorem Leads.accepted (run : Leads b b') (grown : Grown b) (drawn : b.Drawn)
    (one : b'.model.OneEnvironment) (accepted : b.Accepted) : b'.Accepted := by
  induction run with
  | refl => exact accepted
  | @call b₁ earlier c ih =>
    have grown₁ : Grown b₁ := grown.evolves (earlier.evolves grown.numbered)
    refine c.holds_after (P := fun b₂ => b₂.model.OneEnvironment → b₂.Accepted) ih
      (fun a b₂ ran one => ?_) one
    have one₁ := one.of_extends ((c.evolves grown₁.numbered ran).extends_ grown₁.numbered)
    exact c.accepted grown₁ (earlier.drawn grown drawn) one (ih one₁) ran

end Builder

/-! ### Well-formed views -/

open Builder

/-- What holds of a view of a workspace.  It is found under its key; it shows distinct
elements that it accepts and whose kinds it can show, never what its inside is about; and
its lines lead between them and show relationships of the model. -/
structure View.WellFormed (b : Builder) (v : View) : Prop where
  found : b.view v.key = .ok v
  distinct : v.elements.Nodup
  accepted : ∀ id ∈ v.elements, b.checkViewElement v.key id = .ok ()
  permitted : ∀ id ∈ v.elements, ∃ e, b.model.element? id = some e ∧ v.kind.permits e.kind
  not_scope : v.kind = .container ∨ v.kind = .component ∨ v.kind = .dynamic →
    ∀ id ∈ v.elements, v.scope ≠ some id
  not_deployment : v.kind = .dynamic → ∀ id ∈ v.elements, ∀ e, b.model.element? id = some e →
    e.kind.isDeployment = false
  ends : ∀ l ∈ v.lines, l.source ∈ v.elements ∧ l.destination ∈ v.elements
  shows : ∀ l ∈ v.lines, ∃ r, b.model.relationship? l.relationship = some r ∧
    (l.source, l.destination) =
      if l.response then (r.destination, r.source) else (r.source, r.destination)
  once : v.kind ≠ .dynamic → (v.lines.map (·.relationship)).Nodup
  plain : v.kind ≠ .dynamic → ∀ l ∈ v.lines, l.order = none ∧ l.response = false
  ordered : v.kind = .dynamic → ∀ l ∈ v.lines, l.order.isSome

namespace View

variable {b : Builder} {v : View}

theorem isStatic_of_not_dynamic {kind : ViewKind} (other : kind ≠ .dynamic) : kind.isStatic := by
  cases kind <;> first | rfl | exact absurd rfl other

/-- A sound view whose elements are accepted is well formed. -/
theorem Sound.wellFormed (sound : v.Sound b.model) (accepts : v.Accepts b.model)
    (found : b.view v.key = .ok v) (grown : Grown b) : v.WellFormed b where
  found := found
  distinct := sound.distinct
  accepted := by
    intro id member
    exact checkViewElement_eq_ok.mpr ⟨v, found, accepts id member⟩
  permitted := by
    intro id member
    obtain ⟨e, known, passed⟩ := check_eq_ok.mp (accepts id member)
    exact ⟨e, known, permits_of_checkElement passed⟩
  not_scope := by
    intro inner id member scope
    obtain ⟨e, known, fits⟩ := sound.scope id scope
    exact check_scope_ne_ok known scope inner fits (accepts id member)
  not_deployment := by
    intro dynamic id member e known
    obtain ⟨e', known', passed⟩ := check_eq_ok.mp (accepts id member)
    obtain rfl := Option.some.inj (known.symm.trans known')
    have permitted := permits_of_checkElement passed
    rw [dynamic] at permitted
    cases kind : e.kind <;> simp_all [ViewKind.permits, ElementKind.isStaticStructure,
      ElementKind.isCustom, ElementKind.isDeployment]
  ends := sound.ends
  shows := by
    intro l member
    obtain ⟨r, listed, own, ends⟩ := sound.shows l member
    exact ⟨r, own ▸ grown.numbered.relationship?_of_mem listed, ends⟩
  once := by
    intro other
    exact sound.once (isStatic_of_not_dynamic other)
  plain := by
    intro other
    exact sound.plain (isStatic_of_not_dynamic other)
  ordered := sound.ordered

end View

namespace Builder

variable {b : Builder}

/-- In a reachable builder whose deployment trees lie in one environment each, all views are
well formed. -/
theorem Reachable.wellFormed (reachable : Reachable b) (one : b.model.OneEnvironment)
    {v : View} (member : v ∈ b.views.views) : v.WellFormed b := by
  have drawn := reachable.drawn
  have found := drawn.view_of_mem member
  obtain ⟨name, description, run⟩ := reachable
  have start : Grown (new name description) := ⟨name, description, .refl⟩
  have grown : Grown b := ⟨name, description, run.evolves start.numbered⟩
  have accepted : b.Accepted :=
    run.accepted start ⟨.nil, List.forall_mem_nil _, List.forall_mem_nil _⟩ one (List.forall_mem_nil _)
  exact (drawn.sound v member).wellFormed (accepted v member) found grown

end Builder

end Edifice
