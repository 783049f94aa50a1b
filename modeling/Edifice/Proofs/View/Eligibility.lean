import Edifice.Proofs.Model.Extension
import Edifice.View.Eligibility

/-!
What a view accepts.

Whether a view accepts an element depends on what is declared about the element and about
the scope of the view, and on nothing else.  So what is accepted stays accepted while the
model grows (`check_extends`), and it is of a kind that the view can show
(`permits_of_checkElement`).  A deployment view that accepts an element also accepts the
nodes around it, provided that they lie in one environment with it (`check_ancestor`).
-/

namespace Edifice

namespace Model

variable {m : Model}

/-- Every deployment element that lies in another one lies in its environment. -/
def OneEnvironment (m : Model) : Prop :=
  ∀ e ∈ m.elements, e.kind.isDeployment → ∀ p ∈ m.elements, e.parent = some p.id →
    e.environment = p.environment

/-- What an instance deploys is an element. -/
def DeploysDeclared (m : Model) : Prop :=
  ∀ e ∈ m.elements, ∀ of, e.instanceOf = some of → m.Declares of

end Model

/-- A deployment element lies in a deployment node. -/
theorem ElementKind.deploymentNode_of_canContain {parent child : ElementKind}
    (contains : parent.canContain child) (deployment : child.isDeployment) :
    parent = .deploymentNode := by
  cases parent <;> cases child <;> simp_all [canContain, isDeployment]

/-- The kinds of element that a rule accepts elements of. -/
def Eligibility.admits : Eligibility → ElementKind → Bool
  | .landscape, k => k.isTopLevel
  | .containers _ _, k => k.isTopLevel || k == .container
  | .components _ _, k => k.isStaticStructure || k.isCustom
  | .deployment, k => k.isDeployment
  | .custom, k => k.isCustom

namespace View

variable {m m' : Model} {v : View} {id : ElementId}

/-! ### What the checks say -/

/-- A view accepts an id exactly if it is that of an element it accepts. -/
theorem check_eq_ok :
    v.check m id = .ok () ↔ ∃ e, m.element? id = some e ∧ v.checkElement m e = .ok () := by
  unfold check
  cases m.element? id with
  | none => simp
  | some e => simp

/-- What a view accepts is an element. -/
theorem declares_of_check (accepted : v.check m id = .ok ()) : m.Declares id := by
  obtain ⟨e, found, -⟩ := check_eq_ok.mp accepted
  exact ⟨e, Model.element?_eq_some found⟩

/-- A deployment view accepts the deployment elements of its environment that belong to its
scope, if it has one. -/
theorem checkElement_deployment {e : Element} (deployment : v.kind = .deployment) :
    v.checkElement m e = .ok () ↔
      e.kind.isDeployment ∧ e.environment = v.environment ∧
        ∀ system, v.scope = some system → deploys m system e := by
  have rule : v.eligibility m = .deployment := by simp [eligibility, deployment]
  cases scope : v.scope with
  | none => simp [checkElement, rule, scope]
  | some system => simp [checkElement, rule, scope, and_assoc]

/-- What a view accepts is of a kind that its rule admits. -/
theorem admits_of_checkElement {e : Element} (accepted : v.checkElement m e = .ok ()) :
    (v.eligibility m).admits e.kind := by
  unfold checkElement at accepted
  cases rule : v.eligibility m <;> cases kind : e.kind <;>
    simp_all [Eligibility.admits, ElementKind.isTopLevel, ElementKind.isStaticStructure,
      ElementKind.isCustom, ElementKind.isDeployment]

/-- The rule that a view follows admits only kinds that the view can show. -/
theorem permits_of_admits {k : ElementKind} (admitted : (v.eligibility m).admits k) :
    v.kind.permits k := by
  unfold eligibility at admitted
  split at admitted
  case h_1 kind _ => rw [kind]; exact admitted
  case h_2 kind _ => rw [kind]; exact admitted
  case h_3 s kind _ =>
    rw [kind]
    split at admitted
    · cases k <;> first | rfl | cases admitted
    · exact admitted
  case h_4 kind => rw [kind]; exact admitted
  case h_5 kind => rw [kind]; exact admitted
  case h_6 not_deployment not_custom _ _ _ =>
    -- People, software systems and custom elements can be shown everywhere else.
    cases kind : v.kind <;> cases k <;> first | rfl | contradiction

/-- A view accepts only elements of a kind that it can show. -/
theorem permits_of_checkElement {e : Element} (accepted : v.checkElement m e = .ok ()) :
    v.kind.permits e.kind :=
  permits_of_admits (admits_of_checkElement accepted)

/-! ### Growing models -/

/-- The rule is a matter of what is declared about the scope. -/
theorem eligibility_extends (extends_ : m.Extends m')
    (declared : ∀ id, v.scope = some id → m.Declares id) :
    v.eligibility m' = v.eligibility m := by
  cases scope : v.scope with
  | none => simp [eligibility, scope]
  | some id =>
    obtain ⟨s, found⟩ := Option.isSome_iff_exists.mp (Model.declares_iff.mp (declared id scope))
    have cores := extends_.element?_core (declared id scope)
    rw [found] at cores
    obtain ⟨s', found', same⟩ := Option.map_eq_some_iff.mp cores
    obtain ⟨own, kind, -⟩ := Element.core_eq_iff.mp same
    cases of : v.kind <;> simp [eligibility, of, scope, found, found', own, kind]

/-- The scope in the rule of a view is the scope of the view. -/
theorem declares_of_eligibility {container : ElementId} {ownOnly : Bool}
    (rule : v.eligibility m = .components container ownOnly) : m.Declares container := by
  unfold eligibility at rule
  split at rule <;> try split at rule
  all_goals cases rule
  all_goals
    obtain ⟨id, -, found⟩ := Option.bind_eq_some_iff.mp ‹v.scope.bind m.element? = some _›
    exact ⟨_, (Model.element?_eq_some found).1, rfl⟩

/-- Whether an element deploys something of a system does not change while the model grows. -/
theorem deploys_extends (extends_ : m.Extends m') {system : ElementId} {e : Element}
    (declared : ∀ of, e.instanceOf = some of → m.Declares of) :
    deploys m' system e = deploys m system e := by
  cases of : e.instanceOf with
  | none => simp [deploys, of]
  | some id => simp [deploys, of, extends_.parent?_eq (declared id of)]

/-- What is declared about an element decides whether it is accepted, also in a model that
extends its own. -/
theorem checkElement_extends (extends_ : m.Extends m') {e e' : Element}
    (same : e'.core = e.core) (scope : ∀ id, v.scope = some id → m.Declares id)
    (declared : ∀ of, e.instanceOf = some of → m.Declares of) :
    v.checkElement m' e' = v.checkElement m e := by
  have cores : ∀ x : Element, v.checkElement m' x = v.checkElement m' x.core := fun _ => rfl
  rw [cores e', same, ← cores e]
  unfold checkElement
  rw [eligibility_extends extends_ scope]
  cases rule : v.eligibility m with
  | components container ownOnly =>
    simp only [extends_.parent?_eq (declares_of_eligibility rule)]
  | deployment => simp only [deploys_extends extends_ declared]
  | landscape => rfl
  | containers system ownOnly => rfl
  | custom => rfl

/-- What is accepted stays accepted while the model grows. -/
theorem check_extends (extends_ : m.Extends m') (deployed : m.DeploysDeclared)
    (scope : ∀ id, v.scope = some id → m.Declares id) (accepted : v.check m id = .ok ()) :
    v.check m' id = .ok () := by
  obtain ⟨e, found, passed⟩ := check_eq_ok.mp accepted
  have cores := extends_.element?_core (declares_of_check accepted)
  rw [found] at cores
  obtain ⟨e', found', same⟩ := Option.map_eq_some_iff.mp cores
  have declared := deployed e (Model.element?_eq_some found).1
  exact check_eq_ok.mpr
    ⟨e', found', (checkElement_extends extends_ same scope declared).trans passed⟩

/-! ### Deployment views -/

/-- A deployment view that accepts an element accepts what it lies in. -/
theorem check_parent {next : Nat} {parent : ElementId} (numbered : m.Numbered next)
    (nested : m.Nested) (one : m.OneEnvironment) (deployment : v.kind = .deployment)
    (accepted : v.check m id = .ok ()) (inside : m.parent? id = some parent) :
    v.check m parent = .ok () := by
  obtain ⟨e, found, passed⟩ := check_eq_ok.mp accepted
  obtain ⟨deployed, environment, -⟩ := (checkElement_deployment deployment).mp passed
  obtain ⟨member, rfl⟩ := Model.element?_eq_some found
  obtain ⟨e', member', own, p, parent_member, rfl, -, contains⟩ := nested.parent?_spec inside
  obtain rfl := numbered.element_eq_of_id member' member own
  have link : e'.parent = some p.id := by simpa [Model.parent?, found] using inside
  have node : p.kind = .deploymentNode :=
    ElementKind.deploymentNode_of_canContain contains deployed
  refine check_eq_ok.mpr ⟨p, numbered.element?_of_mem parent_member, ?_⟩
  refine (checkElement_deployment deployment).mpr ⟨by simp [node, ElementKind.isDeployment], ?_, ?_⟩
  · rw [← environment]
    exact (one e' member deployed p parent_member link).symm
  · intro system _
    simp [deploys, node]

/-- A deployment view that accepts an element accepts everything around it. -/
theorem check_ancestor {next : Nat} {ancestor : ElementId} (numbered : m.Numbered next)
    (nested : m.Nested) (one : m.OneEnvironment) (deployment : v.kind = .deployment)
    (accepted : v.check m id = .ok ()) (above : ancestor ∈ m.ancestors id) :
    v.check m ancestor = .ok () := by
  induction id using ElementId.induction_older with
  | older id ih =>
    rw [nested.ancestors_eq] at above
    cases inside : m.parent? id with
    | none => simp [inside] at above
    | some parent =>
      have around := check_parent numbered nested one deployment accepted inside
      simp only [inside] at above
      rcases List.mem_cons.mp above with rfl | further
      · exact around
      · exact ih parent (nested.parent?_older inside) around further

/-! ### The scope of a view -/

/-- A view about the inside of an element does not accept that element. -/
theorem check_scope_ne_ok {e : Element} (found : m.element? id = some e)
    (scope : v.scope = some id)
    (inner : v.kind = .container ∨ v.kind = .component ∨ v.kind = .dynamic)
    (fits : v.kind.acceptsScope e.kind) : v.check m id ≠ .ok () := by
  intro accepted
  obtain ⟨e', found', passed⟩ := check_eq_ok.mp accepted
  obtain rfl : e = e' := Option.some.inj (found.symm.trans found')
  obtain rfl := (Model.element?_eq_some found).2
  rcases inner with kind | kind | kind
  · have system : e.kind = .softwareSystem := by simpa [kind, ViewKind.acceptsScope] using fits
    simp [checkElement, eligibility, kind, scope, found, system] at passed
  · have container : e.kind = .container := by simpa [kind, ViewKind.acceptsScope] using fits
    simp [checkElement, eligibility, kind, scope, found, container] at passed
  · have either : e.kind = .softwareSystem ∨ e.kind = .container := by
      simpa [kind, ViewKind.acceptsScope] using fits
    rcases either with system | container
    · simp [checkElement, eligibility, kind, scope, found, system] at passed
    · simp [checkElement, eligibility, kind, scope, found, container] at passed

end View

end Edifice
