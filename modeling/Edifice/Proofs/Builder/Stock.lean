import Edifice.Proofs.Builder.Refusal
import Edifice.Proofs.Model.Skeleton
import Mathlib.Order.Defs.Unbundled

/-!
The calls that change the stock of elements and relationships, and those that leave it alone.

What a call has done once it succeeds is said here for the calls that insert an element, add
an instance, declare a view, or change an element or relationship (`insertElement_eq_ok` and
its like); later proofs take runs apart with these.

A change `Moves` its state along a relation when every run to the end does; a reflexive and
transitive relation holds of a change as soon as it holds of its writes.  What calls that
declare something write are single elements and relationships (`Grafts`), and what a call on
a view writes are edits of that view (`EditsMove`).  The stock of a builder is the skeleton of
its model with the counter and the table of names, and the operations on views, texts, tags,
properties, perspectives, styles and decisions keep it.
-/

namespace Edifice

namespace Change

variable {σ τ α β κ ι : Type}

/-- Every run of the change to the end moves the state along `R`. -/
def Moves (R : σ → σ → Prop) (c : Change σ α) : Prop :=
  ∀ s a s', c s = .ok a s' → R s s'

section Moves

variable {R : σ → σ → Prop} [IsPreorder σ R]

theorem Moves.ask {question : σ → Except ModelError α} : (ask question).Moves R := by
  intro s a s' done
  obtain ⟨-, rfl⟩ := ask_eq_ok.mp done
  exact refl_of R s

theorem Moves.get : (get : Change σ σ).Moves R := by
  intro s a s' done
  obtain ⟨-, rfl⟩ := get_eq_ok.mp done
  exact refl_of R s

theorem Moves.pure {a : α} : (pure a : Change σ α).Moves R := by
  intro s a s' done
  obtain ⟨-, rfl⟩ := pure_eq_ok.mp done
  exact refl_of R s

/-- Changes that each move along a preorder do so one after the other. -/
theorem Moves.bind {x : Change σ α} {f : α → Change σ β} (first : x.Moves R)
    (then_ : ∀ a, (f a).Moves R) : (x >>= f).Moves R := by
  intro s b s'' done
  obtain ⟨a, s', ran, rest⟩ := bind_eq_ok.mp done
  exact trans_of R (first s a s' ran) (then_ a s' b s'' rest)

theorem Moves.forM {f : ι → Change σ PUnit} (step : ∀ i, (f i).Moves R) :
    ∀ l : List ι, (l.forM f).Moves R
  | [] => Moves.pure
  | i :: l => Moves.bind (step i) fun _ => Moves.forM step l

end Moves

theorem Moves.modify {R : σ → σ → Prop} {f : σ → σ} (moved : ∀ s, R s (f s)) :
    (modify f : Change σ Unit).Moves R := by
  intro s a s' done
  obtain rfl := modify_eq_ok.mp done
  exact moved s

theorem Moves.modifyGet {R : σ → σ → Prop} {f : σ → α × σ} (moved : ∀ s, R s (f s).2) :
    (modifyGet f : Change σ α).Moves R := by
  intro s a s' done
  have written := moved s
  rwa [modifyGet_eq_ok.mp done] at written

/-- A change of a part of the state moves the whole as it moves the part. -/
theorem Moves.within {R : σ → σ → Prop} {Q : τ → τ → Prop} {read : σ → τ}
    {put : τ → σ → σ} {c : Change τ α} (inside : c.Moves Q)
    (back : ∀ s t, Q (read s) t → R s (put t s)) : (within read put c).Moves R := by
  intro s a s' done
  obtain ⟨t, ran, rfl⟩ := within_eq_ok.mp done
  exact back s t (inside _ a t ran)

/-- `part` reads the same of both states. -/
def Same (part : σ → κ) (s s' : σ) : Prop :=
  part s' = part s

instance (part : σ → κ) : IsPreorder σ (Same part) where
  refl _ := rfl
  trans _ _ _ first second := second.trans first

/-- What `part` reads of the state is the same after the change. -/
abbrev Keeps (part : σ → κ) (c : Change σ α) : Prop :=
  c.Moves (Same part)

end Change

open Change

namespace Builder

variable {b b' : Builder}

/-- The elements and relationships as declared, with the counter and the table of names. -/
def stock (b : Builder) : Model × Nat × Dictionary ElementId :=
  (b.model.skeleton, b.nextId, b.topLevelNames)

/-! ### Calls that succeed -/

/-- An element is inserted exactly if its draft passes the checks. -/
theorem insertElement_eq_ok {draft : Element} {id : ElementId} :
    insertElement draft b = .ok id b' ↔
      b.checkElement draft = .ok () ∧ (b.enterElement draft).1 = id ∧
        (b.enterElement draft).2 = b' := by
  simp only [insertElement, ask_then_eq_ok, modifyGet_eq_ok, Prod.ext_iff]

/-- An instance is added exactly if it can be drafted and inserted; then what relates its
original is replicated. -/
theorem addInstance_eq_ok {node of id : ElementId} :
    addInstance node of b = .ok id b' ↔
      ∃ draft b₁, b.instanceDraft node of = .ok draft ∧ insertElement draft b = .ok id b₁ ∧
        b' = b₁.replicate id := by
  rw [addInstance, ask_bind_eq_ok]
  simp only [bind_eq_ok, modify_eq_ok, pure_eq_ok]
  constructor
  · rintro ⟨draft, answer, id, b₁, inserted, _, _, rfl, rfl, rfl⟩
    exact ⟨draft, b₁, answer, inserted, rfl⟩
  · rintro ⟨draft, b₁, answer, inserted, rfl⟩
    exact ⟨draft, answer, id, b₁, inserted, (), _, rfl, rfl, rfl⟩

/-- A view is added exactly if it has what it needs, under the key chosen for it. -/
theorem addView_eq_ok {kind : ViewKind} {chosen : Option String} {scope : Option ElementId}
    {environment : Option String} {key : String} :
    addView kind chosen scope environment b = .ok key b' ↔
      b.checkViewSubject kind scope environment = .ok () ∧
        ∃ b₁, chooseKey kind chosen b = .ok key b₁ ∧
          b' = b₁.putView key { key, kind, scope, environment } := by
  rw [addView, ask_then_eq_ok]
  simp only [bind_eq_ok, modify_eq_ok, pure_eq_ok]
  constructor
  · rintro ⟨subject, key, b₁, chose, _, _, rfl, rfl, rfl⟩
    exact ⟨subject, b₁, chose, rfl⟩
  · rintro ⟨subject, b₁, chose, rfl⟩
    exact ⟨subject, key, b₁, chose, (), _, rfl, rfl, rfl⟩

/-- A key that is asked for is chosen exactly if it passes the checks. -/
theorem chooseKey_some_eq_ok {kind : ViewKind} {key answer : String} :
    chooseKey kind (some key) b = .ok answer b' ↔
      b.checkKey key = .ok () ∧ key = answer ∧ b = b' := by
  simp only [chooseKey, ask_then_eq_ok, pure_eq_ok]

/-- An element that is changed is known, and put back as the change leaves it. -/
theorem onElement_eq_ok {id : ElementId} {c : Change Element Unit} {u : Unit} :
    onElement id c b = .ok u b' ↔
      ∃ e e', b.model.element? id = some e ∧ c e = .ok u e' ∧
        { b with model := b.model.putElement e' } = b' := by
  simp only [onElement, ask_bind_eq_ok, within_eq_ok, element_eq_ok, exists_and_left]

theorem onRelationship_eq_ok {id : RelationshipId} {c : Change Relationship Unit} {u : Unit} :
    onRelationship id c b = .ok u b' ↔
      ∃ r r', b.model.relationship? id = some r ∧ c r = .ok u r' ∧
        { b with model := b.model.putRelationship r' } = b' := by
  simp only [onRelationship, ask_bind_eq_ok, within_eq_ok, relationship_eq_ok, exists_and_left]

/-! ### Elements, relationships and decisions -/

/-- A change that keeps the core of an element keeps the stock. -/
theorem keeps_onElement (id : ElementId) {c : Change Element Unit}
    (core : c.Keeps Element.core) : (onElement id c).Keeps stock := by
  intro b u b' done
  obtain ⟨e, e', found, inside, rfl⟩ := onElement_eq_ok.mp done
  have same : e'.core = e.core := core e u e' inside
  have cores : (b.model.putElement e').elements.map Element.core =
      b.model.elements.map Element.core := by
    refine map_putKeyed_of_found (y := e) ?_ same
    have own : e'.id = id := (congrArg Element.id same).trans (Model.element?_eq_some found).2
    rw [own]
    exact found
  simp only [Same, stock, Model.skeleton, cores]
  rfl

/-- A change that keeps the core of a relationship keeps the stock. -/
theorem keeps_onRelationship (id : RelationshipId) {c : Change Relationship Unit}
    (core : c.Keeps Relationship.core) : (onRelationship id c).Keeps stock := by
  intro b u b' done
  obtain ⟨r, r', found, inside, rfl⟩ := onRelationship_eq_ok.mp done
  have same : r'.core = r.core := core r u r' inside
  have cores : (b.model.putRelationship r').relationships.map Relationship.core =
      b.model.relationships.map Relationship.core := by
    refine map_putKeyed_of_found (y := r) ?_ same
    have own : r'.id = id :=
      (congrArg Relationship.id same).trans (Model.relationship?_eq_some found).2
    rw [own]
    exact found
  simp only [Same, stock, Model.skeleton, cores]
  rfl

/-- What an item carries is no part of the stock. -/
theorem keeps_onItem (ref : ItemRef) (c : Change Item Unit) : (onItem ref c).Keeps stock := by
  have nothing : c.Moves fun _ _ => True := fun _ _ _ _ => trivial
  cases ref with
  | element id => exact keeps_onElement id (nothing.within fun _ _ _ => rfl)
  | relationship id => exact keeps_onRelationship id (nothing.within fun _ _ _ => rfl)

theorem keeps_setElementTechnology (id : ElementId) (text : String) :
    (setElementTechnology id text).Keeps stock :=
  keeps_onElement id (.bind .ask fun _ => .modify fun _ => rfl)

theorem keeps_setInstances (id : ElementId) (text : String) :
    (setInstances id text).Keeps stock :=
  keeps_onElement id (.bind .ask fun _ => .modify fun _ => rfl)

/-- Decisions are recorded beside the model. -/
theorem keeps_addDecisions (element : Option ElementId) (batch : List Decision) :
    (addDecisions element batch).Keeps stock := by
  refine .bind .ask fun _ => .bind .ask fun _ => .bind .ask fun _ => .modify fun b => ?_
  induction batch generalizing b with
  | nil => rfl
  | cons d rest ih => exact ih (recordDecision element b d)

/-! ### Views -/

/-- The relation leads to a builder when the view with the key is edited in a way that is
permitted, and it is permitted to change which elements and lines the view shows. -/
structure EditsMove (key : String) (permitted : View → View → Prop)
    (R : Builder → Builder → Prop) : Prop where
  edit {α : Type} {f : View → α × View} (own : ∀ v, permitted v (f v).2) :
    (editView key f).Moves R
  contents (v : View) (elements : List ElementId) (lines : List ViewLine) :
    permitted v { v with elements, lines }

namespace EditsMove

variable {key : String} {permitted : View → View → Prop} {R : Builder → Builder → Prop}
  [IsPreorder Builder R]

/-- To insert an element into a view is one edit of it. -/
theorem insertViewElement (edits : EditsMove key permitted R) (id : ElementId)
    (withLines : Bool) : (insertViewElement key id withLines).Moves R := by
  refine .bind .ask fun v => .bind .get fun b => ?_
  split
  · exact .pure
  · exact edits.edit fun v => edits.contents v _ _

/-- To include a relationship is to insert its ends and then its line, each an edit of the
view. -/
theorem includeRelationship (edits : EditsMove key permitted R) (id : RelationshipId) :
    (includeRelationship key id).Moves R := by
  refine .bind .ask fun r => .bind (edits.insertViewElement _ false) fun _ =>
    .bind (edits.insertViewElement _ false) fun _ => edits.edit fun v => ?_
  show permitted v (v.withRelationship r)
  unfold View.withRelationship
  split
  · exact edits.contents v v.elements v.lines
  · exact edits.contents v _ _

theorem includeDefault (edits : EditsMove key permitted R) : (includeDefault key).Moves R := by
  refine .bind .ask fun ids => .forM (fun id => .bind .get fun b => ?_) ids
  split
  · exact edits.insertViewElement id true
  · exact .pure

end EditsMove

theorem moves_chooseKey {R : Builder → Builder → Prop} [IsPreorder Builder R] {kind : ViewKind}
    (generated : ∀ b : Builder, R b (b.generateKey kind).2) :
    (chosen : Option String) → (chooseKey kind chosen).Moves R
  | none => .modifyGet generated
  | some _ => .bind .ask fun _ => .pure

theorem editsMove_stock (key : String) : EditsMove key (fun _ _ => True) (Same stock) where
  edit _ := .bind .ask fun _ => .bind (.modify fun _ => rfl) fun _ => .pure
  contents _ _ _ := trivial

theorem keeps_editView {α : Type} (key : String) (f : View → α × View) :
    (editView key f).Keeps stock :=
  (editsMove_stock key).edit fun _ => trivial

theorem keeps_addView (kind : ViewKind) (key : Option String) (scope : Option ElementId)
    (environment : Option String) : (addView kind key scope environment).Keeps stock :=
  .bind .ask fun _ => .bind (moves_chooseKey (R := Same stock) (fun _ => rfl) key) fun _ =>
    .bind (.modify fun _ => rfl) fun _ => .pure

/-! ### Calls -/

/-- A relation that every call moves a builder along holds of a run of calls. -/
theorem Leads.moved {R : Builder → Builder → Prop} [IsPreorder Builder R] {b' : Builder}
    (moves : ∀ c : Call, c.perform.Moves R) (run : Leads b b') : R b b' := by
  induction run with
  | refl => exact refl_of R b
  | @call b₁ _ c ih =>
    exact c.holds_after ih fun a b₂ ran => trans_of R ih (moves c b₁ a b₂ ran)

/-- The calls that declare elements or relationships. -/
def Call.declares : Call → Bool
  | .addPerson .. | .addSoftwareSystem .. | .addContainer .. | .addComponent ..
  | .addCustomElement .. | .addDeploymentNode .. | .addInfrastructureNode ..
  | .addInstance .. | .addRelationship .. => true
  | _ => false

/-- The relation leads to a builder when a relationship is added. -/
def Joins (R : Builder → Builder → Prop) : Prop :=
  ∀ (b : Builder) (source destination : ElementId) (description technology : String)
    (origin : Origin), R b (b.insertRelationship source destination description technology origin).2

/-- The relation leads to a builder when an element is entered that carries no more than its
kind starts with, and when a relationship is added. -/
structure Grafts (R : Builder → Builder → Prop) : Prop where
  element (b : Builder) (draft : Element)
    (bare : draft.item = { tags := draft.kind.defaultTags }) : R b (b.enterElement draft).2
  relationship : Joins R

section Grafts

variable {R : Builder → Builder → Prop} [IsPreorder Builder R]

theorem related_foldl {ι : Type} {f : Builder → ι → Builder} (turn : ∀ b i, R b (f b i))
    (l : List ι) (b : Builder) : R b (l.foldl f b) := by
  induction l generalizing b with
  | nil => exact refl_of R b
  | cons i rest ih => exact trans_of R (turn b i) (ih (f b i))

/-- Implied relationships are joined one by one. -/
theorem Joins.implyIfEnabled (joins : Joins R) (b : Builder) (id : RelationshipId) :
    R b (b.implyIfEnabled id) := by
  unfold Builder.implyIfEnabled imply
  split
  · split
    · exact refl_of R b
    · refine related_foldl (fun b pair => ?_) _ b
      unfold addImplied
      split
      · exact joins b _ _ _ _ _
      · exact refl_of R b
  · exact refl_of R b

/-- Replicated relationships are joined one by one. -/
theorem Joins.replicate (joins : Joins R) (b : Builder) (id : ElementId) :
    R b (b.replicate id) := by
  unfold Builder.replicate
  split
  · exact refl_of R b
  · split
    · exact refl_of R b
    · refine related_foldl (fun b c => ?_) _ b
      unfold addReplica
      split
      · exact refl_of R b
      · exact joins b _ _ _ _ _

theorem Grafts.insertElement (grafts : Grafts R) {draft : Element}
    (bare : draft.item = { tags := draft.kind.defaultTags }) : (insertElement draft).Moves R :=
  .bind .ask fun _ => .modifyGet fun b => grafts.element b draft bare

/-- An instance is drafted with the tags of its kind and nothing else. -/
theorem instanceDraft_bare {node of : ElementId} {draft : Element}
    (answer : b.instanceDraft node of = .ok draft) :
    draft.item = { tags := draft.kind.defaultTags } := by
  have bare : Check.Gives (b.instanceDraft node of)
      fun draft => draft.item = { tags := draft.kind.defaultTags } := by
    refine .after fun deployed => ?_
    split
    · exact .error
    · exact .after fun parent => .unless (.ok rfl)
  exact bare draft answer

/-- An instance is grafted first, and relationships are joined to it. -/
theorem Grafts.addInstance (grafts : Grafts R) (node of : ElementId) :
    (addInstance node of).Moves R := by
  intro b a b' done
  obtain ⟨draft, drafted, ran⟩ := ask_bind_eq_ok.mp done
  refine Moves.bind (grafts.insertElement (instanceDraft_bare drafted)) (fun id => ?_) b a b' ran
  exact .bind (.modify fun b => grafts.relationship.replicate b id) fun _ => .pure

/-- Calls that declare elements or relationships come down to entering elements and adding
relationships. -/
theorem Call.moves_of_grafts (grafts : Grafts R) (c : Call) (declares : c.declares) :
    c.perform.Moves R := by
  cases c with
  | addPerson | addSoftwareSystem | addContainer | addComponent | addCustomElement
  | addDeploymentNode => exact grafts.insertElement rfl
  | addInfrastructureNode => exact .bind .ask fun _ => grafts.insertElement rfl
  | addInstance node of => exact grafts.addInstance node of
  | addRelationship =>
    refine .bind .ask fun _ => .bind (.modifyGet fun b => ?_) fun r => ?_
    · exact grafts.relationship b _ _ _ _ _
    · exact .bind (.modify fun b => grafts.relationship.implyIfEnabled b r) fun _ => .pure
  | _ => cases declares

end Grafts

/-- A call that declares nothing leaves the stock alone. -/
theorem Call.keeps_stock (c : Call) (silent : c.declares = false) : c.perform.Keeps stock := by
  cases c with
  | addPerson | addSoftwareSystem | addContainer | addComponent | addCustomElement
  | addDeploymentNode | addInfrastructureNode | addInstance | addRelationship => cases silent
  | setName | setDescription | setImpliedRelationships | setScope | setVisibility | addUser
  | updateElementStyle | updateRelationshipStyle => exact .modify fun _ => rfl
  | addWorkspaceProperty | addModelProperty | addViewsProperty | addTheme =>
    exact .bind .ask fun _ => .modify fun _ => rfl
  | setElementDescription id => exact keeps_onElement id (.modify fun _ => rfl)
  | setElementTechnology id text => exact keeps_setElementTechnology id text
  | setInstances id text => exact keeps_setInstances id text
  | addTags ref | setUrl ref | addProperty ref | addPerspective ref => exact keeps_onItem ref _
  | addDecisions element batch => exact keeps_addDecisions element batch
  | addView kind key scope environment => exact keeps_addView kind key scope environment
  | setViewTitle key | setViewDescription key | setAutoLayout key => exact keeps_editView key _
  | addViewProperty key => exact .bind .ask fun _ => keeps_editView key _
  | includeElement key id =>
    exact .bind .ask fun _ => (editsMove_stock key).insertViewElement id true
  | includeRelationship key id => exact (editsMove_stock key).includeRelationship id
  | includeDefault key => exact (editsMove_stock key).includeDefault
  | excludeElement key | excludeRelationship key | startParallel key | endParallel key =>
    exact .bind .ask fun _ => keeps_editView key _
  | addInteraction key | addRelationshipLine key =>
    exact .bind .ask fun _ => .bind .ask fun _ => keeps_editView key _

end Builder

end Edifice
