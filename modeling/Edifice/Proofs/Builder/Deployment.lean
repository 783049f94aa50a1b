import Edifice.Proofs.Builder.Environments
import Mathlib.Data.List.Induction

/-!
Deployment in reachable builders.

What is deployed stands on a deployment node and takes over the environment of the node.
An instance is of a software system or a container that is there, the only one of it on its
node, and the next one of it in the environment: the count that its number is taken from is
the length of the list that it joins, so the numbers of the list have no gap
(`Model.Counted`).

A nested deployment node is declared in whatever environment the call names.  A deployment
tree therefore lies in one environment exactly as long as the calls see to it
(`environments_of_run`), and `environments_apart` is a run in which they do not.
-/

open Edifice.Change

namespace Edifice

namespace Model

variable {m m' : Model}

/-- The element stands on a deployment node, in the environment of the node. -/
def OnNode (m : Model) (e : Element) : Prop :=
  ∃ node ∈ m.elements, e.parent = some node.id ∧ node.kind = .deploymentNode ∧
    e.environment = node.environment

def DeployedOnNodes (m : Model) : Prop :=
  ∀ e ∈ m.elements, e.kind.isDeployment → e.kind ≠ .deploymentNode → m.OnNode e

/-- Every instance is of an element of the kind that instances of its own kind are for. -/
def InstancesMatch (m : Model) : Prop :=
  ∀ e ∈ m.elements, e.kind.isInstance →
    ∃ x ∈ m.elements, e.instanceOf = some x.id ∧ x.kind.instanceKind? = some e.kind

/-- No two instances of one element stand on the same node. -/
def DeployedOnce (m : Model) : Prop :=
  ∀ e ∈ m.elements, ∀ e' ∈ m.elements, e.instanceOf.isSome → e'.instanceOf = e.instanceOf →
    e'.parent = e.parent → e' = e

def instancesOf (m : Model) (of : ElementId) (environment : Option String) : List Element :=
  m.elements.filter fun e => e.instanceOf == some of && e.environment == environment

/-- The instances of an element in an environment are numbered from one on. -/
def Counted (m : Model) : Prop :=
  ∀ of environment, (m.instancesOf of environment).map (·.instanceIndex) =
    (List.range' 1 (m.instanceCount of environment)).map some

/-! ### Larger models -/

/-- What an element is placed on stays there while the model grows. -/
theorem OnNode.extends_ {e e' : Element} (on_node : m.OnNode e) (extends_ : m.Extends m')
    (same : e'.core = e.core) : m'.OnNode e' := by
  obtain ⟨node, member, inside, kind, near⟩ := on_node
  obtain ⟨node', member', core⟩ := extends_.exists_element member
  obtain ⟨-, -, -, -, parent, -, environment, -⟩ := Element.core_eq_iff.mp same
  obtain ⟨id, kind', -, -, -, -, environment', -⟩ := Element.core_eq_iff.mp core
  refine ⟨node', member', ?_, kind'.trans kind, ?_⟩
  · rw [parent, inside, id]
  · rw [environment, near, environment']

/-- The numbers of the instances are a matter of the cores of the elements. -/
theorem Counted.of_cores (counted : m.Counted)
    (cores : m'.elements.map Element.core = m.elements.map Element.core) : m'.Counted := by
  intro of environment
  let p (e : Element) : Bool := e.instanceOf == some of && e.environment == environment
  have listed : ∀ l : List Element, (l.filter p).map (·.instanceIndex) =
      ((l.map Element.core).filter p).map (·.instanceIndex) := by
    intro l
    rw [List.filter_map, List.map_map]
    rfl
  have number : ∀ l : List Element, l.countP p = (l.map Element.core).countP p := by
    intro l
    rw [List.countP_map]
    rfl
  have before := counted of environment
  unfold instancesOf instanceCount at before ⊢
  rw [listed, number, cores, ← listed, ← number]
  exact before

/-- The next instance of an element gets the next number. -/
theorem Counted.snoc (counted : m.Counted) {e : Element}
    (elements : m'.elements = m.elements ++ [e])
    (next : ∀ of, e.instanceOf = some of →
      e.instanceIndex = some (m.instanceCount of e.environment + 1)) : m'.Counted := by
  intro of environment
  have before := counted of environment
  unfold instancesOf instanceCount at before ⊢
  rw [elements, List.filter_append, List.countP_append, List.map_append, before]
  by_cases own : e.instanceOf = some of ∧ e.environment = environment
  · obtain ⟨deploys, rfl⟩ := own
    have index := next of deploys
    have one : [e].countP (fun e' => e'.instanceOf == some of && e'.environment == e.environment) =
        1 := by simp [deploys]
    rw [one, List.range'_concat, List.map_append]
    simp [deploys, index, instanceCount, Nat.add_comm]
  · have other : (e.instanceOf == some of && e.environment == environment) = false := by
      simpa using own
    simp [other]

/-! ### Environments of trees -/

/-- Where each tree lies in one environment, an element and all that is around it do. -/
theorem OneEnvironment.ancestors (one : m.OneEnvironment) (nested : m.Nested) {next : Nat}
    (numbered : m.Numbered next) {e : Element} (member : e ∈ m.elements)
    (deployment : e.kind.isDeployment) {x : ElementId} (above : x ∈ m.ancestors e.id) :
    ∃ p ∈ m.elements, p.id = x ∧ e.environment = p.environment := by
  -- By induction on the id, from older elements to younger ones.
  obtain ⟨id, own⟩ : ∃ id, id = e.id := ⟨_, rfl⟩
  induction id using ElementId.induction_older generalizing e with
  | older id ih =>
    subst own
    rw [nested.ancestors_eq] at above
    cases inside : m.parent? e.id with
    | none => simp [inside] at above
    | some parent =>
      have link : e.parent = some parent := by
        simpa [parent?, numbered.element?_of_mem member] using inside
      obtain ⟨p, around, rfl, older, contains⟩ := (nested e member).inside_older parent link
      have near := one e member deployment p around link
      simp only [inside] at above
      rcases List.mem_cons.mp above with rfl | further
      · exact ⟨p, around, rfl, near⟩
      · have node := ElementKind.deploymentNode_of_canContain contains deployment
        obtain ⟨q, member', same, near'⟩ :=
          ih p.id older around (by simp [node, ElementKind.isDeployment]) further rfl
        exact ⟨q, member', same, near.trans near'⟩

/-- Each tree lies in one environment as soon as every element lies in that of all that is
around it. -/
theorem OneEnvironment.of_ancestors (nested : m.Nested) {next : Nat}
    (numbered : m.Numbered next)
    (near : ∀ e ∈ m.elements, e.kind.isDeployment → ∀ x ∈ m.ancestors e.id,
      ∃ p ∈ m.elements, p.id = x ∧ e.environment = p.environment) : m.OneEnvironment := by
  intro e member deployment p around inside
  have above : p.id ∈ m.ancestors e.id := by
    have link : m.parent? e.id = some p.id := by
      simpa [parent?, numbered.element?_of_mem member] using inside
    rw [nested.ancestors_eq, link]
    exact List.mem_cons_self ..
  obtain ⟨q, member', same, near⟩ := near e member deployment p.id above
  rwa [numbered.element_eq_of_id member' around same] at near

end Model

namespace Builder

variable {b b' : Builder}

/-! ### Single steps -/

/-- What may be declared inside an element lies inside one that is there. -/
theorem exists_parent_of_checkElement {draft : Element} (required : draft.kind.requiresParent)
    (checked : b.checkElement draft = .ok ()) :
    ∃ p ∈ b.model.elements, draft.parent = some p.id ∧ p.kind.canContain draft.kind := by
  obtain ⟨placed, -⟩ := checkElement_eq_ok.mp checked
  rcases Model.checkPlace_eq_ok.mp placed with ⟨-, free⟩ | ⟨id, p, inside, found, contains⟩
  · simp [free] at required
  · obtain ⟨member, rfl⟩ := Model.element?_eq_some found
    exact ⟨p, member, inside, contains⟩

/-- A step puts what it deploys on a deployment node. -/
theorem Grows.deployedOnNodes (step : Grows b b') (numbered : b.Numbered)
    (deployed : b.model.DeployedOnNodes) : b'.model.DeployedOnNodes := by
  intro e' member deployment other
  have extends_ := step.extends_ numbered
  rcases step.mem_elements numbered member with ⟨e, member, same⟩ | ⟨draft, drafted, checked, rfl⟩
  · obtain ⟨-, kind, -⟩ := Element.core_eq_iff.mp same
    rw [kind] at deployment other
    exact (deployed e member deployment other).extends_ extends_ same
  · have required : draft.kind.requiresParent := by
      cases kind : draft.kind <;>
        simp_all [newElement, ElementKind.isDeployment, ElementKind.requiresParent]
    obtain ⟨p, around, inside, contains⟩ := exists_parent_of_checkElement required checked
    have near := drafted.home numbered other deployment around inside
    have node := ElementKind.deploymentNode_of_canContain contains deployment
    have on_node : b.model.OnNode (b.newElement draft) := ⟨p, around, inside, node, near⟩
    exact on_node.extends_ extends_ rfl

/-- A step declares instances of elements that can be deployed. -/
theorem Grows.instancesMatch (step : Grows b b') (numbered : b.Numbered)
    (matched : b.model.InstancesMatch) : b'.model.InstancesMatch := by
  intro e' member placed
  have extends_ := step.extends_ numbered
  -- What is deployed is there after the step, with its kind.
  have kept : ∀ of kind, (∃ x ∈ b.model.elements, of = some x.id ∧
      x.kind.instanceKind? = some kind) →
        ∃ x' ∈ b'.model.elements, of = some x'.id ∧ x'.kind.instanceKind? = some kind := by
    rintro of kind ⟨x, known, deploys, fits⟩
    obtain ⟨x', known', core⟩ := extends_.exists_element known
    obtain ⟨id, kind_eq, -⟩ := Element.core_eq_iff.mp core
    exact ⟨x', known', id ▸ deploys, kind_eq ▸ fits⟩
  rcases step.mem_elements numbered member with ⟨e, member, same⟩ | ⟨draft, drafted, -, rfl⟩
  · obtain ⟨-, kind, -, -, -, -, -, instanceOf, -⟩ := Element.core_eq_iff.mp same
    rw [kind, instanceOf]
    exact kept _ _ (matched e member (kind ▸ placed))
  · cases drafted with
    | copy answer =>
      obtain ⟨deployed, kind, parent, found, fits, -, -, rfl⟩ := instanceDraft_eq_ok answer
      obtain ⟨known, rfl⟩ := Model.element?_eq_some found
      exact kept _ _ ⟨deployed, known, rfl, fits⟩
    | _ => cases placed

/-- The node of a new instance has no instance of the same element yet. -/
theorem Drafted.parent_ne {draft e : Element} (drafted : b.Drafted draft)
    (deploys : draft.instanceOf.isSome) (member : e ∈ b.model.elements)
    (same : e.instanceOf = draft.instanceOf) : e.parent ≠ draft.parent := by
  intro beside
  cases drafted with
  | @copy node _ _ answer =>
    obtain ⟨_, _, _, -, -, -, free, rfl⟩ := instanceDraft_eq_ok answer
    have child : e ∈ b.model.childrenOf node := by
      simpa [Model.childrenOf, member] using beside
    exact free e child same
  | _ => cases deploys

/-- A step declares no second instance of an element on its node. -/
theorem Grows.deployedOnce (step : Grows b b') (numbered : b.Numbered)
    (once : b.model.DeployedOnce) : b'.model.DeployedOnce := by
  intro e member e' member' deploys same beside
  refine (step.numbered numbered).element_eq_of_id member' member ?_
  rcases step.mem_elements numbered member with ⟨x, old, core⟩ | ⟨draft, drafted, -, rfl⟩
  · obtain ⟨id, -, -, -, parent, -, -, instanceOf, -⟩ := Element.core_eq_iff.mp core
    rw [instanceOf] at deploys same
    rw [parent] at beside
    rcases step.mem_elements numbered member' with ⟨x', old', core'⟩ | ⟨draft', drafted', -, rfl⟩
    · obtain ⟨id', -, -, -, parent', -, -, instanceOf', -⟩ := Element.core_eq_iff.mp core'
      rw [instanceOf'] at same
      rw [parent'] at beside
      rw [id, id', once x old x' old' deploys same beside]
    · rw [← same] at deploys
      exact absurd beside.symm (drafted'.parent_ne deploys old same.symm)
  · rcases step.mem_elements numbered member' with ⟨x', old', core'⟩ | ⟨draft', drafted', -, rfl⟩
    · obtain ⟨-, -, -, -, parent', -, -, instanceOf', -⟩ := Element.core_eq_iff.mp core'
      rw [instanceOf'] at same
      rw [parent'] at beside
      exact absurd beside (drafted.parent_ne deploys old' same)
    · rfl

/-- A step gives a new instance the next number. -/
theorem Grows.counted (step : Grows b b') (numbered : b.Numbered) (counted : b.model.Counted) :
    b'.model.Counted := by
  cases step with
  | same stock => exact counted.of_cores (congrArg (·.1.elements) stock)
  | @element draft drafted =>
    refine counted.snoc (elements_enterElement numbered draft) fun of deploys => ?_
    cases drafted with
    | copy answer =>
      obtain ⟨_, _, _, -, -, -, -, rfl⟩ := instanceDraft_eq_ok answer
      obtain rfl := Option.some.inj deploys
      rfl
    | _ => cases deploys
  | relationship => exact counted

/-! ### All builders -/

theorem Grown.deployedOnNodes (grown : Grown b) : b.model.DeployedOnNodes :=
  grown.induction (fun _ _ => List.forall_mem_nil _) fun _ _ earlier step =>
    step.deployedOnNodes earlier.numbered

theorem Grown.instancesMatch (grown : Grown b) : b.model.InstancesMatch :=
  grown.induction (fun _ _ => List.forall_mem_nil _) fun _ _ earlier step =>
    step.instancesMatch earlier.numbered

theorem Grown.deployedOnce (grown : Grown b) : b.model.DeployedOnce :=
  grown.induction (fun _ _ => List.forall_mem_nil _) fun _ _ earlier step =>
    step.deployedOnce earlier.numbered

theorem Grown.counted (grown : Grown b) : b.model.Counted :=
  grown.induction (fun _ _ _ _ => rfl) fun _ _ earlier step => step.counted earlier.numbered

/-- Instances are what deploys something. -/
theorem Grown.isInstance_eq (grown : Grown b) {e : Element} (member : e ∈ b.model.elements) :
    e.kind.isInstance = e.instanceOf.isSome := by
  rw [Bool.eq_iff_iff]
  constructor
  · intro placed
    obtain ⟨x, -, deploys, -⟩ := grown.instancesMatch e member placed
    simp [deploys]
  · exact grown.instancesDeploy e member

/-! ### Instances -/

/-- **Instances are placed and numbered consistently.**  In every reachable builder the
instances are the elements that deploy something; each stands on a deployment node, in the
environment of the node; an instance of a software system or of a container is of one that
is there; no node has two instances of one element; and the instances of an element in an
environment have the numbers from one on, in the order of their declaration. -/
theorem instances_of_reachable (reachable : Reachable b) :
    (∀ e ∈ b.model.elements, e.kind.isInstance = e.instanceOf.isSome) ∧
      (∀ e ∈ b.model.elements, e.kind.isInstance →
        ∃ node ∈ b.model.elements, e.parent = some node.id ∧ node.kind = .deploymentNode ∧
          e.environment = node.environment) ∧
      (∀ e ∈ b.model.elements, e.kind = .softwareSystemInstance →
        ∃ x ∈ b.model.elements, e.instanceOf = some x.id ∧ x.kind = .softwareSystem) ∧
      (∀ e ∈ b.model.elements, e.kind = .containerInstance →
        ∃ x ∈ b.model.elements, e.instanceOf = some x.id ∧ x.kind = .container) ∧
      (∀ node of, ∀ e ∈ b.model.childrenOf node, ∀ e' ∈ b.model.childrenOf node,
        e.instanceOf = some of → e'.instanceOf = some of → e = e') ∧
      ∀ of environment, (b.model.instancesOf of environment).map (·.instanceIndex) =
        (List.range' 1 (b.model.instancesOf of environment).length).map some := by
  have grown := reachable.grown
  refine ⟨fun e => grown.isInstance_eq, fun e member placed => ?_, fun e member kind => ?_,
    fun e member kind => ?_, fun node of e child e' child' deploys deploys' => ?_,
    fun of environment => ?_⟩
  · apply grown.deployedOnNodes e member
    · cases kind : e.kind <;> simp_all [ElementKind.isInstance, ElementKind.isDeployment]
    · rintro node
      simp [node, ElementKind.isInstance] at placed
  · obtain ⟨x, known, deploys, fits⟩ :=
      grown.instancesMatch e member (by simp [kind, ElementKind.isInstance])
    refine ⟨x, known, deploys, ?_⟩
    cases deployed : x.kind <;> simp_all [ElementKind.instanceKind?]
  · obtain ⟨x, known, deploys, fits⟩ :=
      grown.instancesMatch e member (by simp [kind, ElementKind.isInstance])
    refine ⟨x, known, deploys, ?_⟩
    cases deployed : x.kind <;> simp_all [ElementKind.instanceKind?]
  · obtain ⟨member, inside⟩ := List.mem_filter.mp child
    obtain ⟨member', inside'⟩ := List.mem_filter.mp child'
    rw [beq_iff_eq] at inside inside'
    exact grown.deployedOnce e' member' e member (by simp [deploys']) (deploys.trans deploys'.symm)
      (inside.trans inside'.symm)
  · rw [grown.counted of environment, Model.instanceCount, List.countP_eq_length_filter]
    rfl

/-- The shop with a second server, after a second instance on the first one is refused. -/
def farm : Builder :=
  shop.run [.addInstance ⟨8⟩ ⟨2⟩, .addDeploymentNode "Live" none "Spare", .addInstance ⟨12⟩ ⟨2⟩]

theorem reachable_farm : farm.Reachable :=
  reachable_shop.leads (leads_iff.mpr ⟨_, rfl⟩)

/-- The instances of the web application are the first and the second. -/
theorem instances_of_farm :
    farm.Reachable ∧ (farm.model.instancesOf ⟨2⟩ (some "Live")).map (·.id) = [⟨9⟩, ⟨13⟩] ∧
      (farm.model.instancesOf ⟨2⟩ (some "Live")).map (·.instanceIndex) = [some 1, some 2] := by
  have two : (farm.model.instancesOf ⟨2⟩ (some "Live")).map (·.id) = [⟨9⟩, ⟨13⟩] := by
    decide +kernel
  have length : (farm.model.instancesOf ⟨2⟩ (some "Live")).length = 2 := by
    simpa using congrArg List.length two
  obtain ⟨-, -, -, -, -, numbered⟩ := instances_of_reachable reachable_farm
  refine ⟨reachable_farm, two, ?_⟩
  rw [numbered, length]
  rfl

/-! ### Environments -/

/-- A call after which each tree lies in one environment matches: the deployment node that
it adds lies in the environment of the node around it. -/
theorem Call.matches_of_oneEnvironment (c : Call) (grown : Grown b)
    (one : (c.perform.after b).model.OneEnvironment) : c.Matches b := by
  cases c with
  | addDeploymentNode environment parent name =>
    cases parent with
    | none => trivial
    | some parent =>
      rintro id answer p member rfl
      have done := answer_eq_ok.mp answer
      obtain ⟨-, -, entered⟩ := insertElement_eq_ok.mp done
      let draft : Element := { Element.draft .deploymentNode name with
        parent := some p.id
        environment := some environment }
      have elements := elements_enterElement grown.numbered draft
      rw [entered] at elements
      refine (one (b.newElement draft) ?_ rfl p ?_ rfl).symm
      · rw [perform, elements]
        exact List.mem_append_right _ (List.mem_singleton_self _)
      · rw [perform, elements]
        exact List.mem_append_left _ member
  | _ => trivial

theorem run_snoc (b : Builder) (calls : List Call) (c : Call) :
    b.run (calls ++ [c]) = c.perform.after (b.run calls) := by
  simp [run]

/-- Each tree lies in one environment at the end of a run exactly if all its calls match. -/
theorem oneEnvironment_run_iff (grown : Grown b) (one : b.model.OneEnvironment)
    (calls : List Call) :
    (b.run calls).model.OneEnvironment ↔
      ∀ earlier c later, calls = earlier ++ c :: later → c.Matches (b.run earlier) := by
  induction calls using List.reverseRec with
  | nil => simpa [run] using one
  | append_singleton calls c ih =>
    have leads : Leads b (b.run calls) := leads_iff.mpr ⟨calls, rfl⟩
    have grown₁ : Grown (b.run calls) := grown.evolves (leads.evolves grown.numbered)
    rw [run_snoc]
    constructor
    · intro after earlier c' later split
      have extends_ := (c.evolves_after grown₁.numbered).extends_ grown₁.numbered
      have before := ih.mp (after.of_extends extends_)
      rcases List.eq_nil_or_concat later with rfl | ⟨later', last, rfl⟩
      · obtain ⟨rfl, rfl⟩ : calls = earlier ∧ c = c' := by simpa using split
        exact c.matches_of_oneEnvironment grown₁ after
      · obtain ⟨rfl, -⟩ : calls = earlier ++ c' :: later' ∧ c = last := by
          rw [List.concat_eq_append, ← List.cons_append, ← List.append_assoc] at split
          simpa using List.append_inj' split rfl
        exact before earlier c' later' rfl
    · intro matching
      have before := ih.mpr fun earlier c' later split =>
        matching earlier c' (later ++ [c]) (by simp [split])
      have fit := matching calls c [] rfl
      exact c.holds_after before fun _ _ => c.oneEnvironment grown₁ fit before

/-- **A deployment tree lies in one environment as long as the calls see to it.**  After
every run of calls what is deployed on a node lies in its environment.  And every deployment
element lies in the environment of all that is around it exactly if each call of the run that
adds a deployment node inside another one names the environment of that one. -/
theorem environments_of_run (name description : String) (calls : List Call) :
    (∀ e ∈ ((new name description).run calls).model.elements,
      e.kind = .infrastructureNode ∨ e.kind.isInstance →
        ∃ node ∈ ((new name description).run calls).model.elements,
          e.parent = some node.id ∧ node.kind = .deploymentNode ∧
            e.environment = node.environment) ∧
      ((∀ earlier c later, calls = earlier ++ c :: later →
          c.Matches ((new name description).run earlier)) ↔
        ∀ e ∈ ((new name description).run calls).model.elements, e.kind.isDeployment →
          ∀ x ∈ ((new name description).run calls).model.ancestors e.id,
            ∃ p ∈ ((new name description).run calls).model.elements,
              p.id = x ∧ e.environment = p.environment) := by
  have start : Grown (new name description) := ⟨name, description, .refl⟩
  have leads : Leads (new name description) ((new name description).run calls) :=
    leads_iff.mpr ⟨calls, rfl⟩
  have grown := start.evolves (leads.evolves start.numbered)
  constructor
  · intro e member placed
    have deployment : e.kind.isDeployment ∧ e.kind ≠ .deploymentNode := by
      cases kind : e.kind <;> simp_all [ElementKind.isInstance, ElementKind.isDeployment]
    exact grown.deployedOnNodes e member deployment.1 deployment.2
  · rw [← oneEnvironment_run_iff start (List.forall_mem_nil _) calls]
    constructor
    · intro one e member deployment x above
      exact one.ancestors grown.nested grown.numbered member deployment above
    · exact Model.OneEnvironment.of_ancestors grown.nested grown.numbered

def rack : List Call :=
  [.addDeploymentNode "Live" none "Server", .addDeploymentNode "Live" (some ⟨1⟩) "Rack",
    .addInfrastructureNode ⟨2⟩ "Switch"]

/-- The switch lies in the environment of the rack, and in that of the server. -/
theorem environments_of_rack :
    (∀ earlier c later, rack = earlier ++ c :: later → c.Matches ((new "Shop" "").run earlier)) ∧
      ∃ e ∈ ((new "Shop" "").run rack).model.elements, e.kind = .infrastructureNode ∧
        (∃ node ∈ ((new "Shop" "").run rack).model.elements,
          e.parent = some node.id ∧ node.kind = .deploymentNode ∧
            e.environment = node.environment) ∧
        ∃ p ∈ ((new "Shop" "").run rack).model.elements,
          p.id = ⟨1⟩ ∧ e.environment = p.environment := by
  obtain ⟨placed, near⟩ := environments_of_run "Shop" "" rack
  have matching : ∀ earlier c later, rack = earlier ++ c :: later →
      c.Matches ((new "Shop" "").run earlier) := by
    rintro (_ | ⟨_, _ | ⟨_, _ | ⟨_, earlier⟩⟩⟩) c later split <;>
      simp only [rack, List.nil_append, List.cons_append, List.cons.injEq] at split
    · obtain ⟨rfl, -⟩ := split
      trivial
    · obtain ⟨rfl, rfl, -⟩ := split
      exact fun _ _ => by decide +kernel
    · obtain ⟨-, -, rfl, -⟩ := split
      trivial
    · obtain ⟨-, -, -, split⟩ := split
      cases earlier <;> cases split
  have switch : ∃ e ∈ ((new "Shop" "").run rack).model.elements,
      e.kind = .infrastructureNode ∧ ⟨1⟩ ∈ ((new "Shop" "").run rack).model.ancestors e.id := by
    decide +kernel
  obtain ⟨e, member, kind, above⟩ := switch
  refine ⟨matching, e, member, kind, placed e member (.inl kind), ?_⟩
  exact near.mp matching e member (by rw [kind]; rfl) ⟨1⟩ above

/-- A rack that is declared in another environment than the server that it is in: nothing
refuses it. -/
theorem environments_apart :
    ∃ b, Reachable b ∧ ∃ e ∈ b.model.elements, ∃ p ∈ b.model.elements,
      e.kind = .deploymentNode ∧ e.parent = some p.id ∧ p.environment = some "Live" ∧
        e.environment = some "Test" := by
  let calls : List Call :=
    [.addDeploymentNode "Live" none "Server", .addDeploymentNode "Test" (some ⟨1⟩) "Rack"]
  refine ⟨(new "Shop" "").run calls, ⟨"Shop", "", leads_iff.mpr ⟨calls, rfl⟩⟩, ?_⟩
  decide +kernel

end Builder

end Edifice
