import Edifice.Proofs.Builder.CanonicalNames
import Edifice.Proofs.Builder.Deployment

/-!
Which elements count as duplicates.

A container, a component or a node is refused exactly if an element has the canonical name
that it would get, which joins its name to the names of what is around it.  Two elements of
one kind and name in one place have the same canonical name.  The converse holds where a
canonical name can be taken apart again (`Builder.Legible`): the names do not contain the
mark that stands between them, and the nodes around a deployment node lie in its environment.
-/

open Edifice.Change

namespace Edifice

/-! ### Taking names apart -/

/-- What stands before the first mark and what stands after it are told apart. -/
theorem append_cons_inj_left {α : Type} {mark : α} {s s' n n' : List α} (free : mark ∉ s)
    (free' : mark ∉ s') (same : s ++ mark :: n = s' ++ mark :: n') : s = s' ∧ n = n' := by
  rcases List.append_eq_append_iff.mp same with ⟨between, longer, rest⟩ | ⟨between, longer, rest⟩
  all_goals
    cases between with
    | nil => simp_all
    | cons first between =>
      obtain ⟨rfl, -⟩ := List.cons.inj rest
      simp [longer] at free free'

/-- What stands before the last mark and what stands after it are told apart. -/
theorem append_cons_inj_right {α : Type} {mark : α} {s s' n n' : List α} (free : mark ∉ n)
    (free' : mark ∉ n') (same : s ++ mark :: n = s' ++ mark :: n') : s = s' ∧ n = n' := by
  have reversed := congrArg List.reverse same
  simp only [List.reverse_append, List.reverse_cons, List.append_assoc, List.singleton_append]
    at reversed
  obtain ⟨name, path⟩ := append_cons_inj_left (by simpa using free) (by simpa using free') reversed
  exact ⟨List.reverse_inj.mp path, List.reverse_inj.mp name⟩

/-- A name without the mark is told apart from the path before it. -/
theorem path_append_inj {separator path path' name name' : String} {mark : Char}
    (single : separator.toList = [mark]) (free : mark ∉ name.toList)
    (free' : mark ∉ name'.toList) (same : path ++ separator ++ name = path' ++ separator ++ name') :
    path = path' ∧ name = name' := by
  have texts := congrArg String.toList same
  simp only [String.toList_append, single, List.append_assoc, List.singleton_append] at texts
  obtain ⟨before, after⟩ := append_cons_inj_right free free' texts
  exact ⟨String.toList_inj.mp before, String.toList_inj.mp after⟩

/-- The kind of an element is told apart from what follows it in a canonical name. -/
theorem ElementKind.name_append_inj {kind kind' : ElementKind} {rest rest' : String}
    (same : kind.name ++ "://" ++ rest = kind'.name ++ "://" ++ rest') :
    kind = kind' ∧ rest = rest' := by
  have letters : ∀ kind : ElementKind, ':' ∉ kind.name.toList := by
    intro kind
    cases kind <;> decide
  have names : ∀ kind kind' : ElementKind, kind.name = kind'.name → kind = kind' := by
    intro kind kind'
    cases kind <;> cases kind' <;> simp [ElementKind.name]
  have texts := congrArg String.toList same
  simp only [String.toList_append, List.append_assoc] at texts
  obtain ⟨before, after⟩ := append_cons_inj_left (letters kind) (letters kind') texts
  exact ⟨names _ _ (String.toList_inj.mp before), String.toList_inj.mp (by simpa using after)⟩

namespace Model

variable {m : Model} {e p : Element}

/-! ### Paths and what they are joined to -/

/-- The path of an element at the top is its name. -/
theorem Nested.path_of_top (nested : m.Nested) (found : m.element? e.id = some e)
    (top : e.parent = none) (separator : String) : m.path separator e.id = e.name := by
  have around : m.parent? e.id = none := by simp [parent?, found, top]
  simp [path, lineage, nested.ancestors_eq, around, found]

/-- The path of an element inside of another one goes on from the path of that. -/
theorem Nested.path_of_inside (nested : m.Nested) (found : m.element? e.id = some e)
    {id : ElementId} (inside : e.parent = some id) (separator : String) :
    m.path separator e.id = m.path separator id ++ separator ++ e.name := by
  obtain ⟨p, member, own, -⟩ := (nested e (element?_eq_some found).1).inside_older id inside
  obtain ⟨p, known⟩ := Option.isSome_iff_exists.mp (declares_iff.mp ⟨p, member, own⟩)
  have around : m.parent? e.id = some id := by simp [parent?, found, inside]
  have above : m.lineage e.id = e.id :: m.lineage id := by
    rw [lineage, nested.ancestors_eq, around]
  simp only [path, above, List.reverse_cons, List.filterMap_append, List.filterMap_cons, found,
    Option.map_some, List.filterMap_nil]
  rw [String.intercalate_append_of_ne_nil ?_ (List.cons_ne_nil _ _), String.intercalate_singleton]
  simp [lineage, List.filterMap_append, known]

theorem kind_of_canonicalName (same : m.canonicalName e = m.canonicalName p) : e.kind = p.kind :=
  (ElementKind.name_append_inj same).1

theorem canonicalName_container (kind : e.kind = .container ∨ e.kind = .component)
    {id : ElementId} (inside : e.parent = some id) :
    m.canonicalName e = e.kind.name ++ "://" ++ (m.path "." id ++ "." ++ e.name) := by
  rcases kind with kind | kind <;> simp only [canonicalName, kind, inside, path?]

theorem canonicalName_node (kind : e.kind = .deploymentNode ∨ e.kind = .infrastructureNode)
    {id : ElementId} (inside : e.parent = some id) :
    m.canonicalName e = e.kind.name ++ "://" ++
      (e.environment.getD "" ++ "/" ++ m.path "/" id ++ "/" ++ e.name) := by
  rcases kind with kind | kind <;> simp only [canonicalName, kind, inside]

theorem canonicalName_topNode (kind : e.kind = .deploymentNode) (top : e.parent = none) :
    m.canonicalName e = e.kind.name ++ "://" ++ (e.environment.getD "" ++ "/" ++ e.name) := by
  simp only [canonicalName, kind, top]

/-- The canonical name of what containers and components stand in ends in its path. -/
theorem Nested.canonicalName_eq_path (nested : m.Nested) (found : m.element? e.id = some e)
    (kind : e.kind = .softwareSystem ∨ e.kind = .container) :
    m.canonicalName e = e.kind.name ++ "://" ++ m.path "." e.id := by
  have placed := nested e (element?_eq_some found).1
  rcases kind with kind | kind
  · rw [nested.path_of_top found (placed.stands_alone (by rw [kind]; rfl))]
    simp only [canonicalName, kind]
  · obtain ⟨id, inside⟩ := Option.isSome_iff_exists.mp (placed.needs_parent (by rw [kind]; rfl))
    rw [canonicalName_container (.inl kind) inside, nested.path_of_inside found inside]

/-- The canonical name of a deployment node ends in its environment with its path. -/
theorem Nested.canonicalName_eq_node_path (nested : m.Nested) (found : m.element? e.id = some e)
    (kind : e.kind = .deploymentNode) :
    m.canonicalName e =
      e.kind.name ++ "://" ++ (e.environment.getD "" ++ "/" ++ m.path "/" e.id) := by
  cases inside : e.parent with
  | none => rw [canonicalName_topNode kind inside, nested.path_of_top found inside]
  | some id =>
    rw [canonicalName_node (.inl kind) inside, nested.path_of_inside found inside]
    simp only [String.append_assoc]

end Model

/-- The kind of what contains elements of a kind. -/
def ElementKind.holder : ElementKind → ElementKind
  | .container => .softwareSystem
  | .component => .container
  | _ => .deploymentNode

theorem ElementKind.eq_holder {kind child : ElementKind} (contains : kind.canContain child) :
    kind = child.holder := by
  cases kind <;> cases child <;> first | rfl | cases contains

/-- The mark between the names in the canonical names of containers and components, and in
those of nodes. -/
def ElementKind.mark : ElementKind → Char
  | .container | .component => '.'
  | _ => '/'

namespace Model

/-- Where containers, components and nodes stand in a model: in an element that may contain
them, in a deployment node, which tells the environment of an infrastructure node, or at the
top. -/
inductive Stands (m : Model) (e : Element) : Prop where
  | contained {p : Element} (kind : e.kind = .container ∨ e.kind = .component)
      (around : p ∈ m.elements) (inside : e.parent = some p.id)
      (contains : p.kind.canContain e.kind)
  | onNode {p : Element} (kind : e.kind = .deploymentNode ∨ e.kind = .infrastructureNode)
      (around : p ∈ m.elements) (inside : e.parent = some p.id) (node : p.kind = .deploymentNode)
      (near : e.kind = .infrastructureNode → e.environment = p.environment)
  | topNode (kind : e.kind = .deploymentNode) (top : e.parent = none)
      (named : e.environment.isSome)

end Model

namespace Builder

variable {b b' : Builder} {c : Call} {draft e : Element}

/-- An element of the kind and name of the draft is in its place, a deployment node also in
its environment. -/
def HasTwin (b : Builder) (draft : Element) : Prop :=
  ∃ e ∈ b.model.elements, e.kind = draft.kind ∧ e.name = draft.name ∧ e.parent = draft.parent ∧
    (draft.kind = .deploymentNode → e.environment = draft.environment)

/-- The canonical names of the draft and of the elements of its kind can be taken apart:
there is no mark in their names, nor in the environments of deployment nodes, and these lie
in the environment of the node around them. -/
structure Legible (b : Builder) (draft : Element) : Prop where
  names : ∀ e ∈ draft :: b.model.elements, e.kind = draft.kind → draft.kind.mark ∉ e.name.toList
  environments : draft.kind = .deploymentNode → ∀ e ∈ draft :: b.model.elements,
    e.kind = .deploymentNode → '/' ∉ (e.environment.getD "").toList
  home : draft.kind = .deploymentNode → ∀ e ∈ draft :: b.model.elements,
    e.kind = .deploymentNode → ∀ p ∈ b.model.elements, e.parent = some p.id →
      e.environment = p.environment

/-- `c.Drafts b draft`: the call declares the container, component or node `draft`, and what
it is to be inside of is there and may contain it. -/
inductive Call.Drafts (b : Builder) : Call → Element → Prop where
  | container {id : ElementId} {p : Element} (known : b.element id = .ok p)
      (contains : p.kind.canContain .container) (name : String) (group : Option String) :
      Drafts b (.addContainer id name group)
        { Element.draft .container name with parent := some id, group }
  | component {id : ElementId} {p : Element} (known : b.element id = .ok p)
      (contains : p.kind.canContain .component) (name : String) (group : Option String) :
      Drafts b (.addComponent id name group)
        { Element.draft .component name with parent := some id, group }
  | topNode (environment name : String) :
      Drafts b (.addDeploymentNode environment none name)
        { Element.draft .deploymentNode name with
          parent := none, environment := some environment }
  | deploymentNode {id : ElementId} {p : Element} (known : b.element id = .ok p)
      (contains : p.kind.canContain .deploymentNode) (environment name : String) :
      Drafts b (.addDeploymentNode environment (some id) name)
        { Element.draft .deploymentNode name with
          parent := some id, environment := some environment }
  | infrastructureNode {id : ElementId} {p : Element} (known : b.element id = .ok p)
      (contains : p.kind.canContain .infrastructureNode) (name : String) :
      Drafts b (.addInfrastructureNode id name)
        { Element.draft .infrastructureNode name with
          parent := some id, environment := p.environment }

/-! ### Where elements stand -/

/-- What a call drafts stands where its kind may stand. -/
theorem Call.Drafts.stands (drafts : c.Drafts b draft) : b.model.Stands draft := by
  cases drafts with
  | container known contains | component known contains =>
    obtain ⟨around, rfl⟩ := Model.element?_eq_some (element_eq_ok.mp known)
    exact .contained (by simp [Element.draft]) around rfl contains
  | topNode => exact .topNode rfl rfl rfl
  | deploymentNode known contains =>
    obtain ⟨around, rfl⟩ := Model.element?_eq_some (element_eq_ok.mp known)
    exact .onNode (.inl rfl) around rfl (ElementKind.deploymentNode_of_canContain contains rfl)
      fun node => by cases node
  | infrastructureNode known contains =>
    obtain ⟨around, rfl⟩ := Model.element?_eq_some (element_eq_ok.mp known)
    exact .onNode (.inr rfl) around rfl (ElementKind.deploymentNode_of_canContain contains rfl)
      fun _ => rfl

/-- What is drafted may be declared in its place. -/
theorem Call.Drafts.placed (drafts : c.Drafts b draft) :
    b.model.checkPlace draft.kind draft.parent = .ok () := by
  refine Model.checkPlace_eq_ok.mpr ?_
  cases drafts with
  | topNode => exact .inl ⟨rfl, rfl⟩
  | container known contains | component known contains | deploymentNode known contains
  | infrastructureNode known contains =>
    exact .inr ⟨_, _, rfl, element_eq_ok.mp known, contains⟩

def Call.draftKinds : List ElementKind :=
  [.container, .component, .deploymentNode, .infrastructureNode]

theorem kind_of_stands (stands : b.model.Stands e) : e.kind ∈ Call.draftKinds := by
  cases stands with
  | contained kind | onNode kind => rcases kind with kind | kind <;> rw [kind] <;> decide
  | topNode kind => rw [kind]; decide

/-- A step declares deployment nodes in an environment. -/
theorem Grows.environment_of_node (step : Grows b b') (numbered : b.Numbered)
    (named : ∀ e ∈ b.model.elements, e.kind = .deploymentNode → e.environment.isSome) :
    ∀ e ∈ b'.model.elements, e.kind = .deploymentNode → e.environment.isSome := by
  intro e' member node
  rcases step.mem_elements numbered member with ⟨e, member, same⟩ | ⟨draft, drafted, -, rfl⟩
  · obtain ⟨-, kind, -, -, -, -, environment, -⟩ := Element.core_eq_iff.mp same
    rw [environment]
    exact named e member (kind ▸ node)
  · cases drafted with
    | deploymentNode => rfl
    | copy answer =>
      obtain ⟨deployed, kind, parent, -, deploys, -, -, rfl⟩ := instanceDraft_eq_ok answer
      obtain rfl : kind = .deploymentNode := node
      cases ElementKind.isInstance_of_instanceKind? deploys
    | _ => cases node

theorem Grown.environment_of_node (grown : Grown b) :
    ∀ e ∈ b.model.elements, e.kind = .deploymentNode → e.environment.isSome :=
  grown.induction (fun _ _ => List.forall_mem_nil _) fun _ _ earlier step =>
    step.environment_of_node earlier.numbered

/-- An element of such a kind stands in the model as drafts do. -/
theorem Grown.stands (grown : Grown b) (member : e ∈ b.model.elements)
    (kind : e.kind ∈ Call.draftKinds) : b.model.Stands e := by
  have placed := grown.nested e member
  cases inside : e.parent with
  | none =>
    have free : e.kind.requiresParent = false := by
      simpa [inside] using placed.needs_parent
    have node : e.kind = .deploymentNode := by
      cases own : e.kind <;> simp_all [Call.draftKinds, ElementKind.requiresParent]
    exact .topNode node inside (grown.environment_of_node e member node)
  | some id =>
    obtain ⟨p, around, rfl, -, contains⟩ := placed.inside_older id inside
    by_cases static : e.kind = .container ∨ e.kind = .component
    · exact .contained static around inside contains
    · have deployed : e.kind = .deploymentNode ∨ e.kind = .infrastructureNode := by
        simp only [Call.draftKinds, List.mem_cons, List.not_mem_nil, or_false] at kind
        tauto
      have deployment : e.kind.isDeployment := by
        rcases deployed with own | own <;> rw [own] <;> rfl
      refine .onNode deployed around inside
        (ElementKind.deploymentNode_of_canContain contains deployment) fun infrastructure => ?_
      obtain ⟨node, around', inside', -, near⟩ :=
        grown.deployedOnNodes e member deployment (by simp [infrastructure])
      have same : node.id = p.id := Option.some.inj (inside'.symm.trans inside)
      rw [near, grown.numbered.element_eq_of_id around' around same]

/-! ### Elements with one canonical name -/

/-- The element with a canonical name is the only one with it. -/
theorem Grown.eq_of_canonicalName (grown : Grown b) {p p' : Element}
    (member : p ∈ b.model.elements) (member' : p' ∈ b.model.elements)
    (same : b.model.canonicalName p = b.model.canonicalName p') : p = p' := by
  have distinct := grown.indexed.canonical.nodup grown.numbered.nodup_elements
  refine List.inj_on_of_nodup_map distinct member member' ?_
  rw [grown.indexed.stored p member, grown.indexed.stored p' member', same]

/-- An element that holds static structure is told by its path. -/
theorem Grown.eq_of_path (grown : Grown b) {p p' : Element} (around : p ∈ b.model.elements)
    (around' : p' ∈ b.model.elements) (kind : p.kind = p'.kind)
    (static : p.kind = .softwareSystem ∨ p.kind = .container)
    (path : b.model.path "." p.id = b.model.path "." p'.id) : p = p' := by
  refine grown.eq_of_canonicalName around around' ?_
  have found := grown.numbered.element?_of_mem around
  have found' := grown.numbered.element?_of_mem around'
  rw [grown.nested.canonicalName_eq_path found static,
    grown.nested.canonicalName_eq_path found' (kind ▸ static), kind, path]

/-- A deployment node is told by its environment with its path. -/
theorem Grown.eq_of_node_path (grown : Grown b) {p p' : Element} (around : p ∈ b.model.elements)
    (around' : p' ∈ b.model.elements) (node : p.kind = .deploymentNode)
    (node' : p'.kind = .deploymentNode)
    (path : p.environment.getD "" ++ "/" ++ b.model.path "/" p.id =
      p'.environment.getD "" ++ "/" ++ b.model.path "/" p'.id) : p = p' := by
  refine grown.eq_of_canonicalName around around' ?_
  have found := grown.numbered.element?_of_mem around
  have found' := grown.numbered.element?_of_mem around'
  rw [grown.nested.canonicalName_eq_node_path found node,
    grown.nested.canonicalName_eq_node_path found' node', node, node', path]

/-- Elements of one kind and name in one place have the same canonical name. -/
theorem Grown.canonicalName_of_twin (grown : Grown b) (stands : b.model.Stands draft)
    (member : e ∈ b.model.elements) (kind : e.kind = draft.kind) (name : e.name = draft.name)
    (place : e.parent = draft.parent)
    (near : draft.kind = .deploymentNode → e.environment = draft.environment) :
    b.model.canonicalName e = b.model.canonicalName draft := by
  have stands' := grown.stands member (kind ▸ kind_of_stands stands)
  cases stands with
  | contained static around inside =>
    rw [Model.canonicalName_container (kind ▸ static) (place.trans inside),
      Model.canonicalName_container static inside, kind, name]
  | @onNode p deployed around inside node ofNode =>
    have environment : e.environment = draft.environment := by
      rcases deployed with own | own
      · exact near own
      -- Infrastructure nodes lie in the environment of the node that both stand on.
      · cases stands' with
        | @onNode p' _ around' inside' _ ofNode' =>
          have same : p'.id = p.id := Option.some.inj (inside'.symm.trans (place.trans inside))
          rw [ofNode' (kind.trans own), ofNode own,
            grown.numbered.element_eq_of_id around' around same]
        | contained static => simp [kind, own] at static
        | topNode node' => simp [kind, own] at node'
    rw [Model.canonicalName_node (kind ▸ deployed) (place.trans inside),
      Model.canonicalName_node deployed inside, kind, name, environment]
  | topNode own top =>
    rw [Model.canonicalName_topNode (kind.trans own) (place.trans top),
      Model.canonicalName_topNode own top, kind, name, near own]

/-- What stands in something static is told by its canonical name if no name has a dot. -/
theorem Grown.place_of_contained (grown : Grown b) {e e' p p' : Element}
    (same_kind : e.kind = e'.kind) (static : e.kind = .container ∨ e.kind = .component)
    (around : p ∈ b.model.elements) (inside : e.parent = some p.id)
    (contains : p.kind.canContain e.kind) (around' : p' ∈ b.model.elements)
    (inside' : e'.parent = some p'.id) (contains' : p'.kind.canContain e'.kind)
    (free : '.' ∉ e.name.toList) (free' : '.' ∉ e'.name.toList)
    (same : b.model.canonicalName e = b.model.canonicalName e') :
    e.name = e'.name ∧ e.parent = e'.parent := by
  rw [Model.canonicalName_container static inside,
    Model.canonicalName_container (same_kind ▸ static) inside'] at same
  obtain ⟨path, name⟩ := path_append_inj rfl free free' (ElementKind.name_append_inj same).2
  have holder : p.kind = e.kind.holder := ElementKind.eq_holder contains
  have holder' : p'.kind = e.kind.holder := same_kind ▸ ElementKind.eq_holder contains'
  have holds : p.kind = .softwareSystem ∨ p.kind = .container := by
    rcases static with own | own <;> simp [holder, own, ElementKind.holder]
  obtain rfl := grown.eq_of_path around around' (holder.trans holder'.symm) holds path
  exact ⟨name, inside.trans inside'.symm⟩

/-- What stands on a node in its environment is told by its canonical name if no name has a
slash. -/
theorem Grown.place_of_onNode (grown : Grown b) {e e' p p' : Element}
    (same_kind : e.kind = e'.kind)
    (deployed : e.kind = .deploymentNode ∨ e.kind = .infrastructureNode)
    (around : p ∈ b.model.elements) (inside : e.parent = some p.id)
    (node : p.kind = .deploymentNode) (near : e.environment = p.environment)
    (around' : p' ∈ b.model.elements) (inside' : e'.parent = some p'.id)
    (node' : p'.kind = .deploymentNode) (near' : e'.environment = p'.environment)
    (free : '/' ∉ e.name.toList) (free' : '/' ∉ e'.name.toList)
    (same : b.model.canonicalName e = b.model.canonicalName e') :
    e.name = e'.name ∧ e.parent = e'.parent ∧ e.environment = e'.environment := by
  rw [Model.canonicalName_node deployed inside,
    Model.canonicalName_node (same_kind ▸ deployed) inside'] at same
  obtain ⟨path, name⟩ := path_append_inj rfl free free' (ElementKind.name_append_inj same).2
  rw [near, near'] at path
  obtain rfl := grown.eq_of_node_path around around' node node' path
  exact ⟨name, inside.trans inside'.symm, near.trans near'.symm⟩

/-- Nodes at the top are told by their canonical names if these have no slash. -/
theorem eq_of_topNodes {m : Model} {e e' : Element} (node : e.kind = .deploymentNode)
    (top : e.parent = none) (named : e.environment.isSome) (node' : e'.kind = .deploymentNode)
    (top' : e'.parent = none) (named' : e'.environment.isSome) (free : '/' ∉ e.name.toList)
    (free' : '/' ∉ e'.name.toList) (same : m.canonicalName e = m.canonicalName e') :
    e.name = e'.name ∧ e.environment = e'.environment := by
  rw [Model.canonicalName_topNode node top, Model.canonicalName_topNode node' top'] at same
  obtain ⟨environment, name⟩ := path_append_inj rfl free free' (ElementKind.name_append_inj same).2
  obtain ⟨x, known⟩ := Option.isSome_iff_exists.mp named
  obtain ⟨x', known'⟩ := Option.isSome_iff_exists.mp named'
  rw [known, known', Option.getD_some, Option.getD_some] at environment
  exact ⟨name, by rw [known, known', environment]⟩

/-- A node at the top has the canonical name of no node inside of another, if its environment
has no slash either. -/
theorem canonicalName_ne_of_topNode {m : Model} {e e' : Element} (node : e.kind = .deploymentNode)
    (top : e.parent = none) (node' : e'.kind = .deploymentNode) {id : ElementId}
    (inside : e'.parent = some id) (free : '/' ∉ e.name.toList) (free' : '/' ∉ e'.name.toList)
    (plain : '/' ∉ (e.environment.getD "").toList) : m.canonicalName e ≠ m.canonicalName e' := by
  intro same
  rw [Model.canonicalName_topNode node top, Model.canonicalName_node (.inl node') inside] at same
  obtain ⟨path, -⟩ := path_append_inj rfl free free' (ElementKind.name_append_inj same).2
  simp [path] at plain

/-- Where names are legible, what has the canonical name of the draft is its twin. -/
theorem Grown.twin_of_canonicalName (grown : Grown b) (stands : b.model.Stands draft)
    (legible : b.Legible draft) (member : e ∈ b.model.elements)
    (same : b.model.canonicalName e = b.model.canonicalName draft) : b.HasTwin draft := by
  have kind := Model.kind_of_canonicalName same
  have free := legible.names draft List.mem_cons_self rfl
  have free' := legible.names e (List.mem_cons_of_mem _ member) kind
  have home := fun node => legible.home node draft List.mem_cons_self node
  have home' := fun node => legible.home node e (List.mem_cons_of_mem _ member) (kind.trans node)
  have plain := fun node => legible.environments node draft List.mem_cons_self node
  have plain' := fun node => legible.environments node e (List.mem_cons_of_mem _ member)
    (kind.trans node)
  refine ⟨e, member, kind, ?_⟩
  have stands' := grown.stands member (kind ▸ kind_of_stands stands)
  cases stands with
  | contained static around inside contains =>
    cases stands' with
    | contained static' around' inside' contains' =>
      have dot : draft.kind.mark = '.' := by rcases static with own | own <;> rw [own] <;> rfl
      rw [dot] at free free'
      obtain ⟨name, place⟩ := grown.place_of_contained kind static' around' inside' contains' around
        inside contains free' free same
      exact ⟨name, place, fun node => by simp [node] at static⟩
    | onNode deployed | topNode deployed => grind
  | onNode deployed around inside node ofNode =>
    have slash : draft.kind.mark = '/' := by rcases deployed with own | own <;> rw [own] <;> rfl
    rw [slash] at free free'
    cases stands' with
    | contained static => grind
    | onNode deployed' around' inside' node' ofNode' =>
      have near : draft.environment = _ := deployed.elim (home · _ around inside) ofNode
      have near' : e.environment = _ :=
        deployed.elim (home' · _ around' inside') (ofNode' <| kind.trans ·)
      obtain ⟨name, place, environment⟩ := grown.place_of_onNode kind deployed' around' inside'
        node' near' around inside node near free' free same
      exact ⟨name, place, fun _ => environment⟩
    | topNode own top =>
      have node : draft.kind = .deploymentNode := kind.symm.trans own
      exact absurd same (canonicalName_ne_of_topNode own top node inside free' free (plain' node))
  | topNode own top named =>
    have slash : draft.kind.mark = '/' := by rw [own]; rfl
    rw [slash] at free free'
    cases stands' with
    | contained static => grind
    | onNode deployed _ inside =>
      have node : e.kind = .deploymentNode := kind.trans own
      have plain := plain own
      exact absurd same.symm (canonicalName_ne_of_topNode own top node inside free free' plain)
    | topNode own' top' named' =>
      obtain ⟨name, environment⟩ :=
        eq_of_topNodes own' top' named' own top named free' free same
      exact ⟨name, top'.trans top.symm, fun _ => environment⟩

/-! ### Calls -/

theorem insertElement_of_ok (checked : b.checkElement draft = .ok ()) :
    ∃ id, (insertElement draft).answer b = .ok id := by
  have inserted := insertElement_eq_ok.mpr ⟨checked, rfl, rfl⟩
  exact ⟨_, by rw [Change.answer, inserted]⟩

theorem insertElement_of_error {e : ModelError} (refused : b.checkElement draft = .error e) :
    (insertElement draft).answer b = .error e := by
  have failed : insertElement draft b = .error e b :=
    bind_eq_error.mpr (.inl (ask_eq_error.mpr ⟨refused, rfl⟩))
  rw [Change.answer, failed]

/-- To add an infrastructure node is to insert one in the environment of the node it stands on.
-/
theorem answer_addInfrastructureNode {id : ElementId} {p : Element}
    (known : b.element id = .ok p) (name : String) :
    (addInfrastructureNode id name).answer b = (insertElement
      { Element.draft .infrastructureNode name with
        parent := some id, environment := p.environment }).answer b := by
  simp only [Change.answer, addInfrastructureNode, bind, EStateM.bind, Change.ask, known]

/-- The call answers as the check of what it drafts. -/
theorem Call.Drafts.answer (drafts : c.Drafts b draft) :
    (b.checkElement draft = .ok () → ∃ a, c.perform.answer b = .ok a) ∧
      ∀ e, b.checkElement draft = .error e → c.perform.answer b = .error e := by
  cases drafts with
  | container | component | topNode | deploymentNode =>
    exact ⟨insertElement_of_ok, fun _ => insertElement_of_error⟩
  | infrastructureNode known _ name =>
    have same := answer_addInfrastructureNode known name
    refine ⟨fun checked => ?_, fun e refused => same.trans (insertElement_of_error refused)⟩
    obtain ⟨id, done⟩ := insertElement_of_ok checked
    exact ⟨id, same.trans done⟩

/-- A name is in the table of canonical names if an element has it. -/
theorem Grown.canonicalNames_contains (grown : Grown b) (name : String) :
    b.model.canonicalNames.contains name ↔ ∃ e ∈ b.model.elements, e.canonicalName = name := by
  rw [Dictionary.contains, Option.isSome_iff_exists]
  constructor
  · rintro ⟨id, listed⟩
    obtain ⟨e, member, -, own⟩ := (grown.indexed.canonical name id).mp listed
    exact ⟨e, member, own⟩
  · rintro ⟨e, member, own⟩
    exact ⟨e.id, (grown.indexed.canonical name e.id).mpr ⟨e, member, rfl, own⟩⟩

/-- What may be declared in its place is refused for its canonical name alone. -/
theorem Call.Drafts.checkElement (drafts : c.Drafts b draft) :
    b.checkElement draft =
      if b.model.canonicalNames.contains (b.model.canonicalName draft) then
        .error (.duplicateElement draft.kind draft.name)
      else .ok () := by
  have below : draft.kind.isTopLevel = false := by cases drafts <;> rfl
  simp [Builder.checkElement, drafts.placed, below]

/-- A call that drafts succeeds unless an element has the canonical name of the draft, and is
then refused as a duplicate. -/
theorem Call.Drafts.answer_cases (drafts : c.Drafts b draft) (grown : Grown b) :
    ((∃ e ∈ b.model.elements, e.canonicalName = b.model.canonicalName draft) →
      c.perform.answer b = .error (.duplicateElement draft.kind draft.name)) ∧
    ((¬ ∃ e ∈ b.model.elements, e.canonicalName = b.model.canonicalName draft) →
      ∃ a, c.perform.answer b = .ok a) := by
  have checked := drafts.checkElement
  rw [← grown.canonicalNames_contains]
  exact ⟨fun taken => drafts.answer.2 _ (checked.trans (if_pos taken)),
    fun free => drafts.answer.1 (checked.trans (if_neg free))⟩

/-- **A container, a component or a node is a duplicate if its canonical name is taken.**  In
a reachable builder a call that declares one in a place where it may stand is refused as a
duplicate exactly if an element has the canonical name of what it drafts, and succeeds
otherwise.  It is refused wherever an element of the same kind and name is in the same place;
and where the names are legible, only there. -/
theorem duplicates_by_canonical_name (reachable : b.Reachable) (drafts : c.Drafts b draft) :
    (c.perform.answer b = .error (.duplicateElement draft.kind draft.name) ↔
      ∃ e ∈ b.model.elements, e.canonicalName = b.model.canonicalName draft) ∧
    (c.perform.answer b ≠ .error (.duplicateElement draft.kind draft.name) →
      ∃ a, c.perform.answer b = .ok a) ∧
    (b.HasTwin draft → c.perform.answer b = .error (.duplicateElement draft.kind draft.name)) ∧
    (b.Legible draft →
      (c.perform.answer b = .error (.duplicateElement draft.kind draft.name) ↔
        b.HasTwin draft)) := by
  have grown := reachable.grown
  obtain ⟨refused, entered⟩ := drafts.answer_cases grown
  have taken_iff : c.perform.answer b = .error (.duplicateElement draft.kind draft.name) ↔
      ∃ e ∈ b.model.elements, e.canonicalName = b.model.canonicalName draft := by
    refine ⟨fun failed => ?_, refused⟩
    by_contra free
    obtain ⟨a, done⟩ := entered free
    rw [done] at failed
    cases failed
  have twin : b.HasTwin draft →
      c.perform.answer b = .error (.duplicateElement draft.kind draft.name) := by
    rintro ⟨e, member, kind, name, place, near⟩
    refine refused ⟨e, member, ?_⟩
    rw [grown.indexed.stored e member]
    exact grown.canonicalName_of_twin drafts.stands member kind name place near
  refine ⟨taken_iff, fun other => entered (mt taken_iff.mpr other), twin, fun legible => ?_⟩
  refine ⟨fun failed => ?_, twin⟩
  obtain ⟨e, member, own⟩ := taken_iff.mp failed
  rw [grown.indexed.stored e member] at own
  exact grown.twin_of_canonicalName drafts.stands legible member own

def serverIn (environment : String) : Element :=
  { Element.draft .deploymentNode "Server" with
    parent := none, environment := some environment }

/-- The shop has a server in its environment, where a second one is refused; in another
environment there is none yet, and a server is accepted. -/
theorem duplicates_of_shop :
    shop.Reachable ∧ shop.HasTwin (serverIn "Live") ∧
      (addDeploymentNode "Live" none "Server").answer shop =
        .error (.duplicateElement .deploymentNode "Server") ∧
      shop.Legible (serverIn "Test") ∧ ¬ shop.HasTwin (serverIn "Test") ∧
        ∃ id, (addDeploymentNode "Test" none "Server").answer shop = .ok id := by
  have drafts := fun environment => Call.Drafts.topNode (b := shop) environment "Server"
  have twin : shop.HasTwin (serverIn "Live") := by
    unfold HasTwin
    decide +kernel
  have none_yet : ¬ shop.HasTwin (serverIn "Test") := by
    unfold HasTwin
    decide +kernel
  have legible : shop.Legible (serverIn "Test") := by
    constructor <;> decide +kernel
  obtain ⟨-, -, refused, -⟩ := duplicates_by_canonical_name reachable_shop (drafts "Live")
  obtain ⟨-, accepted, -, duplicate⟩ := duplicates_by_canonical_name reachable_shop (drafts "Test")
  exact ⟨reachable_shop, twin, refused twin, legible, none_yet,
    accepted fun failed => none_yet ((duplicate legible).mp failed)⟩

/-- Two software systems, of which the second has a container, with dots in the names. -/
def dotted : Builder :=
  (new "Shop" "").run
    [.addSoftwareSystem "A" none, .addSoftwareSystem "A.B" none, .addContainer ⟨2⟩ "C" none]

/-- A container may be refused as a duplicate where there is none: `B.C` in `A` would have the
canonical name of `C` in `A.B`. -/
theorem duplicate_without_twin :
    ¬ ∀ b c draft, Reachable b → Call.Drafts b c draft →
      (c.perform.answer b = .error (.duplicateElement draft.kind draft.name) ↔
        b.HasTwin draft) := by
  intro always
  have reachable : dotted.Reachable := ⟨"Shop", "", leads_iff.mpr ⟨_, rfl⟩⟩
  have refused : (addContainer ⟨1⟩ "B.C" none).answer dotted =
      .error (.duplicateElement .container "B.C") := by decide +kernel
  have system : (dotted.element ⟨1⟩).map (·.kind) = .ok .softwareSystem := by decide +kernel
  cases known : dotted.element ⟨1⟩ with
  | error e => simp [known, Except.map] at system
  | ok p =>
    have kind : p.kind = .softwareSystem := by simpa [known, Except.map] using system
    have drafts := Call.Drafts.container known (by rw [kind]; rfl) "B.C" none
    have twin := (always dotted _ _ reachable drafts).mp refused
    have none_such : ¬ dotted.HasTwin
        { Element.draft .container "B.C" with parent := some ⟨1⟩, group := none } := by
      unfold HasTwin
      decide +kernel
    exact none_such twin

end Builder

end Edifice
