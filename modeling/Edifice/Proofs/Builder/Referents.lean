import Edifice.Builder.Selections
import Edifice.Proofs.Builder.Environments

/-!
What calls refer to.

A call names elements, relationships and views (`Call.referents`).  Where all of them are
there, the call is refused, if at all, for another reason than that something is missing
(`Call.grounded`), and a deployment node that it adds lies in the environment of the one
around it (`Call.Known.matches_`).  What a call answers with is there
(`Call.has_answered`), and nothing that is there is ever taken away again (`Leads.has`), so
what has been found or declared can be referred to ever after.
-/

namespace Edifice

/-- Whether an operation was refused because something it refers to is not there. -/
def ModelError.isDangling : ModelError → Bool
  | .unknownElement _ | .unknownRelationship _ | .unknownView _ => true
  | _ => false

namespace Check

variable {α β : Type} {e : ModelError} {x : Except ModelError α}

/-- What stands in the way, if anything, is not that something is missing. -/
def Grounded (x : Except ModelError α) : Prop :=
  ∀ e, x = .error e → e.isDangling = false

theorem Grounded.ok {a : α} : Grounded (.ok a : Except ModelError α) := by
  rintro e ⟨⟩

theorem Grounded.error (other : e.isDangling = false) :
    Grounded (.error e : Except ModelError α) := by
  rintro _ ⟨⟩
  exact other

theorem Grounded.bind {f : α → Except ModelError β} (first : Grounded x)
    (then_ : ∀ a, x = .ok a → Grounded (f a)) : Grounded (x >>= f) := by
  cases x with
  | ok a => exact then_ a rfl
  | error e => exact .error (first e rfl)

theorem Grounded.ite {p : Prop} [Decidable p] {y : Except ModelError α} (yes : Grounded x)
    (no : Grounded y) : Grounded (if p then x else y) := by
  split
  · exact yes
  · exact no

theorem Grounded.unless {p : Prop} [Decidable p] {f : Unit → Except ModelError β}
    (other : e.isDangling = false) (rest : Grounded (f ())) :
    Grounded (if p then throw e >>= f else f ()) :=
  .ite (.error other) rest

end Check

namespace Change

variable {σ τ α β : Type} {s : σ}

/-- What refuses the change, if anything, is not that something is missing. -/
def Grounded (c : Change σ α) (s : σ) : Prop :=
  ∀ e s', c s = .error e s' → e.isDangling = false

theorem Total.grounded {c : Change σ α} (total : c.Total s) : c.Grounded s :=
  fun e s' refused => absurd refused (total e s')

/-- Changes that fail in ordinary ways, each where the ones before it lead, do so together. -/
theorem Grounded.bind {x : Change σ α} {f : α → Change σ β} (first : x.Grounded s)
    (then_ : ∀ a s', x s = .ok a s' → (f a).Grounded s') : (x >>= f).Grounded s := by
  intro e s' refused
  rcases bind_eq_error.mp refused with refused | ⟨a, t, done, refused⟩
  · exact first e s' refused
  · exact then_ a t done e s' refused

theorem Grounded.ask {question : σ → Except ModelError α} (asked : Check.Grounded (question s)) :
    (Change.ask question).Grounded s :=
  fun e _ refused => asked e (ask_eq_error.mp refused).1

/-- What is answered by a question is known in what follows it. -/
theorem Grounded.ask_bind {question : σ → Except ModelError α} {f : α → Change σ β}
    (asked : Check.Grounded (question s))
    (then_ : ∀ a, question s = .ok a → (f a).Grounded s) :
    (Change.ask question >>= f).Grounded s := by
  refine .bind (.ask asked) fun a s' done => ?_
  obtain ⟨answer, rfl⟩ := ask_eq_ok.mp done
  exact then_ a answer

theorem Grounded.within {part : σ → τ} {put : τ → σ → σ} {c : Change τ α}
    (inside : c.Grounded (part s)) : (within part put c).Grounded s := by
  intro e s' refused
  obtain ⟨t, refused, -⟩ := within_eq_error.mp refused
  exact inside e t refused

end Change

open Check (Grounded)

/-! ### Referents -/

/-- What can be referred to. -/
inductive Referent where
  | element (id : ElementId)
  /-- An element in a deployment environment. -/
  | node (id : ElementId) (environment : String)
  | relationship (id : RelationshipId)
  | view (key : String)

def ItemRef.referent : ItemRef → Referent
  | .element id => .element id
  | .relationship id => .relationship id

namespace Builder

def Has (b : Builder) : Referent → Prop
  | .element id => b.model.Declares id
  | .node id environment =>
    ∃ e ∈ b.model.elements, e.id = id ∧ e.environment = some environment
  | .relationship id => ∃ r ∈ b.model.relationships, r.id = id
  | .view key => b.HasView key

/-- What the call refers to. -/
def Call.referents : Call → List Referent
  | .addContainer parent _ _ | .addComponent parent _ _ => [.element parent]
  | .addDeploymentNode environment (some parent) _ => [.node parent environment]
  | .addInfrastructureNode node _ => [.element node]
  | .addInstance node of => [.element node, .element of]
  | .setElementDescription id _ | .setElementTechnology id _ | .setInstances id _ =>
    [.element id]
  | .addTags ref _ | .setUrl ref _ | .addProperty ref _ _ | .addPerspective ref _ =>
    [ref.referent]
  | .addRelationship source destination _ _ => [.element source, .element destination]
  | .addDecisions element _ _ => element.toList.map .element
  | .addView _ _ scope _ => scope.toList.map .element
  | .setViewTitle key _ | .setViewDescription key _ | .setAutoLayout key _
  | .addViewProperty key _ _ | .includeDefault key | .startParallel key | .endParallel key =>
    [.view key]
  | .includeElement key id | .excludeElement key id => [.view key, .element id]
  | .includeRelationship key id | .excludeRelationship key id
  | .addRelationshipLine key id _ _ => [.view key, .relationship id]
  | .addInteraction key source destination _ _ _ =>
    [.view key, .element source.id, .element destination.id]
  | _ => []

def Call.Known (b : Builder) (c : Call) : Prop :=
  ∀ x ∈ c.referents, b.Has x

/-- `LeadsKnown b b'`: calls that refer only to what is there lead from `b` to `b'`. -/
abbrev LeadsKnown : Builder → Builder → Prop :=
  LeadsBy fun b c => c.Known b

variable {b b' : Builder} {key : String} {x : Referent}

/-! ### What is there stays -/

/-- What a name can refer to is still there in a model that has grown. -/
theorem has_extends (extends_ : b.model.Extends b'.model)
    (views : ∀ key, b.HasView key → b'.HasView key) (has : b.Has x) : b'.Has x := by
  cases x with
  | element id => exact extends_.declares has
  | node id environment =>
    obtain ⟨e, member, own, lies⟩ := has
    obtain ⟨e', member', same⟩ := extends_.exists_element member
    obtain ⟨id_eq, -, -, -, -, -, environment_eq, -⟩ := Element.core_eq_iff.mp same
    exact ⟨e', member', id_eq.trans own, environment_eq.trans lies⟩
  | relationship id =>
    obtain ⟨r, member, own⟩ := has
    obtain ⟨r', member', same⟩ := extends_.exists_relationship member
    obtain ⟨id_eq, -⟩ := Relationship.core_eq_iff.mp same
    exact ⟨r', member', id_eq.trans own⟩
  | view key => exact views key has

/-- No call takes away what a name refers to. -/
theorem Call.has (c : Call) (grown : Grown b) {a : c.Answer} (done : c.perform b = .ok a b')
    (has : b.Has x) : b'.Has x := by
  refine has_extends ((c.evolves grown.numbered done).extends_ grown.numbered) ?_ has
  intro key has
  rcases c.redrawn grown done with run | ⟨key', v, -, found, rfl⟩
  · obtain ⟨v, found⟩ := has
    obtain ⟨v', found', -⟩ := run.stays found
    exact ⟨v', found'⟩
  · exact has.putView key' _

/-- Nothing that is there is taken away. -/
theorem Leads.has (run : Leads b b') (grown : Grown b) (has : b.Has x) : b'.Has x := by
  induction run with
  | refl => exact has
  | @call b₁ earlier c ih =>
    have grown₁ : Grown b₁ := grown.evolves (earlier.evolves grown.numbered)
    exact c.holds_after ih fun _ _ ran => c.has grown₁ ran ih

/-- Where the node around a deployment node is known with its environment, the node is
added in that environment. -/
theorem Call.Known.matches_ {c : Call} (known : c.Known b) (numbered : b.Numbered) :
    c.Matches b := by
  unfold Call.Matches
  split
  case h_1 environment parent name =>
    obtain ⟨e, member, own, lies⟩ := known (.node parent environment) (List.mem_singleton_self _)
    intro id _ p member_p own_p
    obtain rfl := numbered.element_eq_of_id member_p member (own_p.trans own.symm)
    exact lies
  case h_2 => trivial

theorem LeadsKnown.matching (run : LeadsKnown b b') (grown : Grown b) : LeadsMatching b b' :=
  run.mono grown fun _ _ grown known => known.matches_ grown.numbered

/-! ### Questions -/

theorem grounded_element {id : ElementId} (has : b.Has (.element id)) :
    Grounded (b.element id) := by
  obtain ⟨e, found⟩ := Option.isSome_iff_exists.mp (Model.declares_iff.mp has)
  rw [element_eq_ok.mpr found]
  exact .ok

theorem grounded_relationship {id : RelationshipId} (has : b.Has (.relationship id)) :
    Grounded (b.relationship id) := by
  obtain ⟨r, member, own⟩ := has
  intro e refused
  unfold Builder.relationship at refused
  split at refused
  case h_1 => cases refused
  case h_2 missing =>
    simp only [Model.relationship?, List.find?_eq_none] at missing
    exact absurd (beq_iff_eq.mpr own) (missing r member)

theorem grounded_view (has : b.Has (.view key)) : Grounded (b.view key) := by
  obtain ⟨v, found⟩ := has
  rw [found]
  exact .ok

theorem grounded_checkProperty (name value : String) : Grounded (checkProperty name value) :=
  .ite (.error rfl) (.ite (.error rfl) .ok)

theorem grounded_requireKind (e : Element) (supports : ElementKind → Bool) (property : String) :
    Grounded (e.requireKind supports property) :=
  .ite .ok (.error rfl)

/-- A view refuses an element that is there only because it may not show it. -/
theorem grounded_check {m : Model} {v : View} {id : ElementId} (declared : m.Declares id) :
    Grounded (v.check m id) := by
  obtain ⟨e, found⟩ := Option.isSome_iff_exists.mp (Model.declares_iff.mp declared)
  intro err refused
  simp only [View.check, found] at refused
  unfold View.checkElement at refused
  dsimp only at refused
  (repeat' split at refused) <;> cases refused <;> rfl

theorem grounded_checkPlace {kind : ElementKind} {parent : Option ElementId}
    (known : ∀ id, parent = some id → b.Has (.element id)) :
    Grounded (b.model.checkPlace kind parent) := by
  unfold Model.checkPlace
  cases parent with
  | none => exact .ite (.error rfl) .ok
  | some id =>
    obtain ⟨e, found⟩ := Option.isSome_iff_exists.mp (Model.declares_iff.mp (known id rfl))
    simp only [found]
    exact .ite .ok (.error rfl)

/-- The place of a draft whose parent is there is checked without an internal error. -/
theorem grounded_insertElement {draft : Element}
    (known : ∀ id, draft.parent = some id → b.Has (.element id)) :
    (insertElement draft).Grounded b := by
  refine .ask_bind ?_ fun _ _ => (Change.Total.modifyGet).grounded
  refine .bind (grounded_checkPlace known) fun _ _ => ?_
  exact .unless rfl (.ite (.error rfl) .ok)

theorem grounded_addInfrastructureNode {node : ElementId} (has : b.Has (.element node))
    (name : String) : (addInfrastructureNode node name).Grounded b := by
  refine .ask_bind (grounded_element has) fun parent _ => grounded_insertElement ?_
  rintro id ⟨⟩
  exact has

/-- An instance of what is there, on a node that is there, fails in ordinary ways only. -/
theorem grounded_addInstance {node of : ElementId} (has : b.Has (.element node))
    (deployed : b.Has (.element of)) : (addInstance node of).Grounded b := by
  refine .ask_bind ?_ fun draft answer => ?_
  · refine .bind (grounded_element deployed) fun e _ => ?_
    split
    · exact .error rfl
    · exact .bind (grounded_element has) fun parent _ => .unless rfl .ok
  · obtain ⟨-, -, -, -, -, -, -, rfl⟩ := instanceDraft_eq_ok answer
    refine .bind (grounded_insertElement ?_) fun _ _ _ =>
      (Change.Total.modify.bind fun _ _ _ => Change.Total.pure).grounded
    rintro id ⟨⟩
    exact has

theorem grounded_onElement {id : ElementId} (has : b.Has (.element id))
    {c : Change Element Unit} (grounded : ∀ e, c.Grounded e) : (onElement id c).Grounded b :=
  .ask_bind (grounded_element has) fun e _ => .within (grounded e)

/-- What is changed about an element or a relationship that is there is found for it. -/
theorem grounded_onItem {ref : ItemRef} (has : b.Has ref.referent) {c : Change Item Unit}
    (grounded : ∀ item, c.Grounded item) : (onItem ref c).Grounded b := by
  cases ref with
  | element id => exact grounded_onElement has fun e => .within (grounded e.item)
  | relationship id =>
    exact .ask_bind (grounded_relationship has) fun r _ => .within (.within (grounded r.item))

theorem grounded_addRelationship {source destination : ElementId}
    (has : b.Has (.element source)) (has' : b.Has (.element destination))
    (description technology : String) :
    (addRelationship source destination description technology).Grounded b := by
  refine .ask_bind ?_ fun _ _ => ?_
  · refine .bind (grounded_element has) fun s _ => .bind (grounded_element has') fun d _ => ?_
    unfold Model.checkRelationship
    exact .unless rfl (.unless rfl (.unless rfl (.ite (.error rfl) .ok)))
  · exact (Change.Total.modifyGet.bind fun _ _ _ =>
      Change.Total.modify.bind fun _ _ _ => Change.Total.pure).grounded

theorem grounded_checkDecisionIds (recorded : Documentation) (element : Option ElementId)
    (earlier : List String) (batch : List Decision) :
    Grounded (checkDecisionIds recorded element earlier batch) := by
  induction batch generalizing earlier with
  | nil => exact .ok
  | cons d rest ih => exact .ite (.error rfl) (.ite (.error rfl) (ih _))

theorem grounded_addDecisions {element : Option ElementId} {batch : List Decision}
    (known : ∀ id, element = some id → b.Has (.element id)) :
    (addDecisions element batch).Grounded b := by
  refine .ask_bind ?_ fun _ _ => .ask_bind ?_ fun _ _ => .ask_bind ?_ fun _ _ =>
    Change.Total.modify.grounded
  · cases element with
    | none => exact .ok
    | some id => exact .bind (grounded_element (known id rfl)) fun e _ => .ite (.error rfl) .ok
  · exact grounded_checkDecisionIds _ _ _ _
  · unfold checkDecisionLinks
    dsimp only
    split
    · exact .error rfl
    · exact .ok

theorem grounded_addView {kind : ViewKind} {key : Option String} {scope : Option ElementId}
    {environment : Option String} (known : ∀ id, scope = some id → b.Has (.element id)) :
    (addView kind key scope environment).Grounded b := by
  refine .ask_bind ?_ fun _ _ => .bind ?_ fun key b' _ => ?_
  · refine .bind ?_ fun _ _ => .ite (.error rfl) .ok
    unfold Model.checkViewScope
    cases scope with
    | none => exact .ite (.error rfl) .ok
    | some id =>
      obtain ⟨e, found⟩ := Option.isSome_iff_exists.mp (Model.declares_iff.mp (known id rfl))
      simp only [found]
      exact .ite .ok (.error rfl)
  · cases key with
    | none => exact Change.Total.modifyGet.grounded
    | some key =>
      refine .ask_bind ?_ fun _ _ => Change.Total.pure.grounded
      exact .ite (.error rfl) (.ite (.error rfl) .ok)
  · exact (Change.Total.modify.bind fun _ _ _ => Change.Total.pure).grounded

theorem grounded_editView {α : Type} (has : b.Has (.view key)) (f : View → α × View) :
    (editView key f).Grounded b :=
  .ask_bind (grounded_view has) fun _ _ =>
    (Change.Total.modify.bind fun _ _ _ => Change.Total.pure).grounded

theorem grounded_dynamicView (has : b.Has (.view key)) : Grounded (b.dynamicView key) :=
  .bind (grounded_view has) fun _ _ => .unless rfl .ok

theorem grounded_includeElement {id : ElementId} (has : b.Has (.view key))
    (declared : b.Has (.element id)) : (includeElement key id).Grounded b := by
  refine .ask_bind ?_ fun _ _ => (insertViewElement_keeps id true has).1.grounded
  exact .bind (grounded_view has) fun v _ => grounded_check declared

/-- The ends of a relationship are there with it. -/
theorem has_ends (related : b.model.Related) {r : Relationship}
    (member : r ∈ b.model.relationships) :
    b.Has (.element r.source) ∧ b.Has (.element r.destination) :=
  ⟨(related r member).source_declared, (related r member).destination_declared⟩

/-- The ends of a relationship that is found are found too, so none of the lookups fails. -/
theorem grounded_includeRelationship {id : RelationshipId} (related : b.model.Related)
    (has : b.Has (.view key)) (listed : b.Has (.relationship id)) :
    (includeRelationship key id).Grounded b := by
  refine .ask_bind ?_ fun r _ => ?_
  · refine .bind (grounded_view has) fun v _ => .unless rfl ?_
    refine .bind (grounded_relationship listed) fun r found => ?_
    obtain ⟨source, destination⟩ :=
      has_ends related (Model.relationship?_eq_some (relationship_eq_ok.mp found)).1
    exact .bind (grounded_check source) fun _ _ => .bind (grounded_check destination) fun _ _ =>
      .ok
  · refine Change.Total.grounded ?_
    refine (insertViewElement_keeps _ _ has).1.bind fun _ b₁ source => ?_
    have has₁ := (insertViewElement_keeps _ _ has).2 _ b₁ source
    refine (insertViewElement_keeps _ _ has₁).1.bind fun _ b₂ destination => ?_
    exact (editView_keeps _ ((insertViewElement_keeps _ _ has₁).2 _ b₂ destination)).1

theorem grounded_includeDefault (has : b.Has (.view key)) : (includeDefault key).Grounded b := by
  refine .ask_bind ?_ fun ids _ => Change.Total.grounded ?_
  · exact .bind (grounded_view has) fun v _ => .unless rfl .ok
  · refine Change.Total.forM (I := HasView key) (fun id b has => ?_) ids has
    exact ⟨(insertAccepted_keeps id has).1, fun b' => (insertAccepted_keeps id has).2 _ b'⟩

theorem grounded_participant {m : Model} {p : Participant} (declared : m.Declares p.id) :
    Grounded (p.check m) := by
  obtain ⟨e, found⟩ := Option.isSome_iff_exists.mp (Model.declares_iff.mp declared)
  unfold Participant.check
  simp only [found]
  exact .ite .ok (.error rfl)

theorem grounded_addInteraction {source destination : Participant} (has : b.Has (.view key))
    (declared : b.Has (.element source.id)) (declared' : b.Has (.element destination.id))
    (description technology : String) (order : Option String) :
    (addInteraction key source destination description technology order).Grounded b := by
  refine .ask_bind (grounded_dynamicView has) fun v _ => .ask_bind ?_ fun l _ =>
    grounded_editView has _
  refine .bind (grounded_participant declared) fun _ _ => .bind (grounded_check declared)
    fun _ _ => .bind (grounded_participant declared') fun _ _ =>
      .bind (grounded_check declared') fun _ _ => ?_
  unfold View.interactionLine
  split
  · exact .ok
  · split
    · exact .ok
    · exact .error rfl

/-- As for an inclusion, the ends of the relationship are found with it. -/
theorem grounded_addRelationshipLine {id : RelationshipId} (related : b.model.Related)
    (has : b.Has (.view key)) (listed : b.Has (.relationship id)) (description : String)
    (order : Option String) : (addRelationshipLine key id description order).Grounded b := by
  refine .ask_bind (grounded_dynamicView has) fun v _ => .ask_bind ?_ fun l _ =>
    grounded_editView has _
  refine .bind (grounded_relationship listed) fun r found => ?_
  obtain ⟨source, destination⟩ :=
    has_ends related (Model.relationship?_eq_some (relationship_eq_ok.mp found)).1
  exact .bind (grounded_check source) fun _ _ => .bind (grounded_check destination) fun _ _ =>
    .ok

/-! ### Calls -/

/-- A call whose referents are there is not refused because something is missing. -/
theorem Call.grounded (c : Call) (grown : Grown b) (known : c.Known b) :
    c.perform.Grounded b := by
  have related := grown.related
  have only : ∀ {x : Referent}, c.referents = [x] → b.Has x := fun all =>
    known _ (all ▸ List.mem_singleton_self _)
  have both : ∀ {x y : Referent}, c.referents = [x, y] → b.Has x ∧ b.Has y := fun all =>
    ⟨known _ (all ▸ List.mem_cons_self ..), known _ (all ▸ List.mem_cons_of_mem _
      (List.mem_singleton_self _))⟩
  have written : ∀ {f : Builder → Builder}, (modify f : Change Builder Unit).Grounded b :=
    Change.Total.modify.grounded
  cases c with
  | setName | setDescription | setImpliedRelationships | setScope | setVisibility | addUser
  | updateElementStyle | updateRelationshipStyle => exact written
  | addWorkspaceProperty name value | addModelProperty name value
  | addViewsProperty name value =>
    exact .ask_bind (grounded_checkProperty name value) fun _ _ => written
  | addTheme => exact .ask_bind (.ite .ok (.error rfl)) fun _ _ => written
  | addPerson | addSoftwareSystem | addCustomElement =>
    refine grounded_insertElement ?_
    rintro id ⟨⟩
  | addContainer parent | addComponent parent =>
    refine grounded_insertElement ?_
    rintro id ⟨⟩
    exact only rfl
  | addDeploymentNode environment parent =>
    refine grounded_insertElement ?_
    rintro id rfl
    obtain ⟨e, member, own, -⟩ : b.Has (.node id environment) := only rfl
    exact ⟨e, member, own⟩
  | addInfrastructureNode node name => exact grounded_addInfrastructureNode (only rfl) name
  | addInstance node of => exact grounded_addInstance (both rfl).1 (both rfl).2
  | setElementDescription =>
    exact grounded_onElement (only rfl) fun e => Change.Total.modify.grounded
  | setElementTechnology | setInstances =>
    exact grounded_onElement (only rfl) fun e =>
      .ask_bind (grounded_requireKind e _ _) fun _ _ => Change.Total.modify.grounded
  | addTags => exact grounded_onItem (only rfl) fun item => Change.Total.modify.grounded
  | setUrl =>
    refine grounded_onItem (only rfl) fun item => .ask_bind ?_ fun _ _ =>
      Change.Total.modify.grounded
    exact .ite .ok (.ite .ok (.error rfl))
  | addProperty ref name value =>
    exact grounded_onItem (only rfl) fun item =>
      .ask_bind (grounded_checkProperty name value) fun _ _ => Change.Total.modify.grounded
  | addPerspective =>
    refine grounded_onItem (only rfl) fun item => .ask_bind ?_ fun _ _ =>
      Change.Total.modify.grounded
    exact .ite (.error rfl) (.ite (.error rfl) (.ite (.error rfl) .ok))
  | addRelationship => exact grounded_addRelationship (both rfl).1 (both rfl).2 _ _
  | addDecisions element =>
    refine grounded_addDecisions ?_
    rintro id rfl
    exact only rfl
  | addView kind key scope =>
    refine grounded_addView ?_
    rintro id rfl
    exact only rfl
  | setViewTitle | setViewDescription | setAutoLayout => exact grounded_editView (only rfl) _
  | addViewProperty key name value =>
    exact .ask_bind (grounded_checkProperty name value) fun _ _ => grounded_editView (only rfl) _
  | includeElement => exact grounded_includeElement (both rfl).1 (both rfl).2
  | excludeElement =>
    exact .ask_bind (grounded_element (both rfl).2) fun _ _ => grounded_editView (both rfl).1 _
  | includeRelationship => exact grounded_includeRelationship related (both rfl).1 (both rfl).2
  | excludeRelationship =>
    exact .ask_bind (grounded_relationship (both rfl).2) fun _ _ =>
      grounded_editView (both rfl).1 _
  | includeDefault => exact grounded_includeDefault (only rfl)
  | addInteraction key source destination =>
    have declared : b.Has (.element source.id) := known _ (by simp [referents])
    have declared' : b.Has (.element destination.id) := known _ (by simp [referents])
    exact grounded_addInteraction (known (.view key) (by simp [referents])) declared declared' _ _ _
  | addRelationshipLine =>
    exact grounded_addRelationshipLine related (both rfl).1 (both rfl).2 _ _
  | startParallel | endParallel =>
    exact .ask_bind (grounded_dynamicView (only rfl)) fun _ _ => grounded_editView (only rfl) _

/-! ### Answers -/

def Call.answered : (c : Call) → c.Answer → List Referent
  | .addPerson .., id | .addSoftwareSystem .., id | .addContainer .., id | .addComponent .., id
  | .addCustomElement .., id | .addInfrastructureNode .., id | .addInstance .., id =>
    [.element id]
  | .addDeploymentNode environment _ _, id => [.element id, .node id environment]
  | .addRelationship .., id => [.relationship id]
  | .addView .., key => [.view key]
  | _, _ => []

/-- The element that is inserted can be referred to, as a node also in its environment. -/
theorem has_insertElement {draft : Element} {id : ElementId} (numbered : b.Numbered)
    (inserted : insertElement draft b = .ok id b') :
    b'.Has (.element id) ∧
      ∀ environment, draft.environment = some environment → b'.Has (.node id environment) := by
  obtain ⟨-, rfl, rfl⟩ := insertElement_eq_ok.mp inserted
  have member : b.newElement draft ∈ (b.enterElement draft).2.model.elements := by
    rw [elements_enterElement numbered]
    exact List.mem_append_right _ (List.mem_singleton_self _)
  exact ⟨⟨_, member, rfl⟩, fun environment lies => ⟨_, member, rfl, lies⟩⟩

/-- The id that is answered is that of a relationship, the implied ones after it do not matter.
-/
theorem has_addRelationship {source destination : ElementId} {description technology : String}
    {id : RelationshipId} (numbered : b.Numbered)
    (added : addRelationship source destination description technology b = .ok id b') :
    b'.Has (.relationship id) := by
  obtain ⟨checked, rfl, rfl⟩ := addRelationship_eq_ok.mp added
  have joined : b.Joined source destination description technology .explicit := .explicit checked
  have step := Grows.relationship joined
  have member := mem_insertRelationship numbered source destination description technology .explicit
  have implied := evolves_implyIfEnabled (step.numbered numbered) member rfl
  obtain ⟨r, listed, same⟩ :=
    (implied.extends_ (step.numbered numbered)).exists_relationship member
  obtain ⟨own, -⟩ := Relationship.core_eq_iff.mp same
  exact ⟨r, listed, own⟩

/-- What a call answers with is there. -/
theorem Call.has_answered (c : Call) (grown : Grown b) {a : c.Answer}
    (done : c.perform b = .ok a b') : ∀ x ∈ c.answered a, b'.Has x := by
  have numbered := grown.numbered
  have single : ∀ {y : Referent}, b'.Has y → ∀ x ∈ [y], b'.Has x := by
    intro y has x member
    obtain rfl := List.mem_singleton.mp member
    exact has
  cases c with
  | addPerson | addSoftwareSystem | addContainer | addComponent | addCustomElement =>
    exact single (has_insertElement numbered done).1
  | addDeploymentNode environment =>
    obtain ⟨has, lies⟩ := has_insertElement numbered done
    exact List.forall_mem_cons.mpr ⟨has, single (lies environment rfl)⟩
  | addInfrastructureNode =>
    obtain ⟨parent, -, inserted⟩ := Change.ask_bind_eq_ok.mp done
    exact single (has_insertElement numbered inserted).1
  | addInstance =>
    obtain ⟨draft, b₁, -, inserted, rfl⟩ := addInstance_eq_ok.mp done
    obtain ⟨e, member, own⟩ := (has_insertElement numbered inserted).1
    exact single ⟨e, (elements_replicate b₁ a).symm ▸ member, own⟩
  | addRelationship => exact single (has_addRelationship numbered done)
  | addView =>
    obtain ⟨-, b₁, -, rfl⟩ := addView_eq_ok.mp done
    exact single ⟨_, view_putView_self ..⟩
  | _ => exact List.forall_mem_nil _

end Builder

end Edifice
