import Edifice.Proofs.Builder.Drawing

/-!
Views in reachable builders.

Every operation on a view is a run of the steps of `Redraws`, and every other operation
leaves the views alone (`Call.redrawn`).  So the views of a reachable builder have keys of
their own and are sound (`Reachable.drawn`): they show distinct elements of the model, and
between these relationships of the model.
-/

open Edifice.Change

namespace Edifice

/-- A loop whose turns keep what is read keeps it. -/
theorem foldl_same {σ α κ : Type} {g : σ → κ} {f : σ → α → σ}
    (turn : ∀ s a, g (f s a) = g s) (l : List α) (s : σ) : g (l.foldl f s) = g s := by
  induction l generalizing s with
  | nil => rfl
  | cons a rest ih => exact (ih (f s a)).trans (turn s a)

/-- An element that comes in is shown. -/
theorem View.mem_withElement {m : Model} (nested : m.Nested) (v : View) (id : ElementId)
    (withLines : Bool) : id ∈ (v.withElement m id withLines).elements := by
  rw [elements_withElement nested, List.mem_append, mem_newElements]
  by_cases shown : id ∈ v.elements
  · exact .inl shown
  · exact .inr ⟨.inl rfl, shown⟩

namespace Builder

variable {b b' : Builder} {key : String} {v v' : View}

/-! ### Operations on the model -/

/-- All that a builder has besides the elements and relationships and their numbering. -/
def aside (b : Builder) : Builder :=
  { b with model := { properties := b.model.properties }, nextId := 0, topLevelNames := {} }

theorem grafts_aside : Grafts (Same aside) where
  element _ _ _ := rfl
  relationship _ _ _ _ _ _ := rfl

theorem aside_onElement (id : ElementId) (c : Change Element Unit) :
    (onElement id c).Keeps aside := by
  have nothing : c.Moves fun _ _ => True := fun _ _ _ _ => trivial
  exact .bind .ask fun _ => nothing.within fun _ _ _ => rfl

theorem aside_onRelationship (id : RelationshipId) (c : Change Relationship Unit) :
    (onRelationship id c).Keeps aside := by
  have nothing : c.Moves fun _ _ => True := fun _ _ _ _ => trivial
  exact .bind .ask fun _ => nothing.within fun _ _ _ => rfl

theorem aside_onItem (ref : ItemRef) (c : Change Item Unit) : (onItem ref c).Keeps aside := by
  cases ref with
  | element id => exact aside_onElement id _
  | relationship id => exact aside_onRelationship id _

/-- The calls that declare elements and relationships or are on what these carry. -/
def Call.onModel : Call → Bool
  | .addPerson .. | .addSoftwareSystem .. | .addContainer .. | .addComponent ..
  | .addCustomElement .. | .addDeploymentNode .. | .addInfrastructureNode .. | .addInstance ..
  | .setElementDescription .. | .setElementTechnology .. | .setInstances .. | .addTags ..
  | .setUrl .. | .addProperty .. | .addPerspective .. | .addRelationship .. => true
  | _ => false

/-- A call on elements and relationships changes nothing besides. -/
theorem Call.keeps_aside (c : Call) (onModel : c.onModel) : c.perform.Keeps aside := by
  by_cases declares : c.declares = true
  · exact c.moves_of_grafts grafts_aside declares
  cases c with
  | setElementDescription id | setElementTechnology id | setInstances id =>
    exact aside_onElement id _
  | addTags ref | setUrl ref | addProperty ref | addPerspective ref =>
    exact aside_onItem ref _
  | _ => first | exact absurd rfl declares | cases onModel

/-! ### Operations that leave the views alone -/

def Call.draws : Call → Bool
  | .addView .. | .setViewTitle .. | .setViewDescription .. | .setAutoLayout ..
  | .addViewProperty .. | .includeElement .. | .excludeElement .. | .includeRelationship ..
  | .excludeRelationship .. | .includeDefault .. | .addInteraction ..
  | .addRelationshipLine .. | .startParallel .. | .endParallel .. => true
  | _ => false

/-- A call that is on no single view leaves the views as they are. -/
theorem Call.keepsViews (c : Call) (silent : c.draws = false) :
    c.perform.Keeps fun b : Builder => b.views.entries := by
  cases c with
  | addView | setViewTitle | setViewDescription | setAutoLayout | addViewProperty
  | includeElement | excludeElement | includeRelationship | excludeRelationship
  | includeDefault | addInteraction | addRelationshipLine | startParallel | endParallel =>
    cases silent
  | setName | setDescription | setImpliedRelationships | setScope | setVisibility | addUser
  | updateElementStyle | updateRelationshipStyle => exact .modify fun _ => rfl
  | addWorkspaceProperty | addModelProperty | addViewsProperty | addTheme =>
    exact .bind .ask fun _ => .modify fun _ => rfl
  | addDecisions element batch =>
    refine .bind .ask fun _ => .bind .ask fun _ => .bind .ask fun _ => .modify fun b => ?_
    exact foldl_same (g := fun b : Builder => b.views.entries) (f := recordDecision element)
      (fun _ _ => rfl) batch b
  | _ =>
    intro b a b' done
    exact congrArg (·.views.entries) (Call.keeps_aside _ rfl b a b' done)

/-! ### Operations on views -/

/-- An edit succeeds exactly if there is a view with the key, and puts the edited one back. -/
theorem editView_eq_ok {α : Type} {f : View → α × View} {a : α} :
    editView key f b = .ok a b' ↔
      ∃ v, b.view key = .ok v ∧ (f v).1 = a ∧ b.putView key (f v).2 = b' := by
  rw [editView, ask_bind_eq_ok]
  simp only [bind_eq_ok, modify_eq_ok, pure_eq_ok]
  constructor
  · rintro ⟨v, found, _, _, rfl, rfl, rfl⟩
    exact ⟨v, found, rfl, rfl⟩
  · rintro ⟨v, found, rfl, rfl⟩
    exact ⟨v, found, (), _, rfl, rfl, rfl⟩

/-- A call that edits a view redraws it, if what it does to the view is an edit. -/
theorem redraws_editView {α : Type} {f : View → α × View} {a : α}
    (done : editView key f b = .ok a b')
    (edit : ∀ v, b.view key = .ok v → v.Edit b.model (f v).2) : Redraws b b' := by
  obtain ⟨v, found, -, rfl⟩ := editView_eq_ok.mp done
  exact .edited found (edit v found)

/-- Showing an element where it is shown already changes nothing, so that either way the
view is put back with the element. -/
theorem insertViewElement_eq (found : b.view key = .ok v) (id : ElementId)
    (withLines : Bool) :
    insertViewElement key id withLines b =
      .ok () (b.putView key (v.withElement b.model id withLines)) := by
  refine ask_bind_eq_ok.mpr ⟨v, found, ?_⟩
  refine bind_eq_ok.mpr ⟨b, b, get_eq_ok.mpr ⟨rfl, rfl⟩, ?_⟩
  split
  case isTrue shown =>
    rw [View.withElement_of_shown (List.isEmpty_iff.mp shown), putView_found found]
    rfl
  case isFalse => exact editView_eq found

theorem checkViewElement_eq_ok {id : ElementId} :
    b.checkViewElement key id = .ok () ↔
      ∃ v, b.view key = .ok v ∧ v.check b.model id = .ok () := by
  simp only [checkViewElement, Check.bind_eq_ok]

theorem canInclude_iff {id : ElementId} :
    b.canInclude key id ↔ b.checkViewElement key id = .ok () := by
  rw [canInclude, Check.isOk_iff]
  exact ⟨fun ⟨(), accepted⟩ => accepted, fun accepted => ⟨(), accepted⟩⟩

/-- An element that the view accepts is shown by an edit. -/
theorem redraws_insertViewElement {id : ElementId} {withLines : Bool} {u : Unit}
    (accepted : b.checkViewElement key id = .ok ())
    (done : insertViewElement key id withLines b = .ok u b') : Redraws b b' := by
  obtain ⟨v, found, passed⟩ := checkViewElement_eq_ok.mp accepted
  have drawn := insertViewElement_eq found id withLines
  obtain ⟨-, rfl⟩ := EStateM.Result.ok.inj (drawn.symm.trans done)
  exact .edited found (.element passed withLines)

/-- Including an element is refused, or inserts it with what comes along. -/
theorem redraws_includeElement {id : ElementId} {u : Unit}
    (done : includeElement key id b = .ok u b') : Redraws b b' := by
  obtain ⟨accepted, inserted⟩ := ask_then_eq_ok.mp done
  exact redraws_insertViewElement accepted inserted

/-- A relationship may be included where the view is static and accepts both of its ends. -/
theorem checkViewRelationship_eq_ok {id : RelationshipId} {r : Relationship} :
    b.checkViewRelationship key id = .ok r ↔
      ∃ v, b.view key = .ok v ∧ v.kind.isStatic ∧ b.model.relationship? id = some r ∧
        v.check b.model r.source = .ok () ∧ v.check b.model r.destination = .ok () := by
  simp only [checkViewRelationship, Check.bind_eq_ok]
  constructor
  · rintro ⟨v, found, answer⟩
    simp [Check.bind_eq_ok, relationship_eq_ok] at answer
    obtain ⟨static, known, ⟨_, accepted⟩, _, accepted'⟩ := answer
    exact ⟨v, found, static, known, accepted, accepted'⟩
  · rintro ⟨v, found, static, known, accepted, accepted'⟩
    refine ⟨v, found, ?_⟩
    simp [static, relationship_eq_ok.mpr known, accepted, accepted']

/-- Both ends come in before the line between them does. -/
theorem redrawn_includeRelationship (nested : b.model.Nested) {id : RelationshipId} {u : Unit}
    (done : includeRelationship key id b = .ok u b') : Redrawn b b' := by
  obtain ⟨r, checked, ran⟩ := ask_bind_eq_ok.mp done
  simp only [bind_eq_ok] at ran
  obtain ⟨_, b₁, inserted, _, b₂, inserted', drawn⟩ := ran
  obtain ⟨v, found, static, known, accepted, accepted'⟩ := checkViewRelationship_eq_ok.mp checked
  let v₁ := v.withElement b.model r.source false
  let v₂ := v₁.withElement b.model r.destination false
  have edit₁ : v.Edit b.model v₁ := .element accepted false
  have edit₂ : v₁.Edit b.model v₂ := .element (by rw [edit₁.check_eq]; exact accepted') false
  obtain ⟨-, rfl⟩ := EStateM.Result.ok.inj
    ((insertViewElement_eq found r.source false).symm.trans inserted)
  have found₁ : (b.putView key v₁).view key = .ok v₁ := view_putView_self ..
  obtain ⟨-, rfl⟩ := EStateM.Result.ok.inj
    ((insertViewElement_eq found₁ r.destination false).symm.trans inserted')
  refine .tail (.tail (.single (.edited found edit₁)) (.edited found₁ edit₂)) ?_
  refine redraws_editView drawn fun w found_w => ?_
  have found₂ : ((b.putView key v₁).putView key v₂).view key = .ok v₂ := view_putView_self ..
  obtain rfl := Except.ok.inj (found_w.symm.trans found₂)
  have source : r.source ∈ v₂.elements := by
    rw [View.elements_withElement nested]
    exact List.mem_append_left _ (View.mem_withElement nested v r.source false)
  have kind : v₂.kind = v.kind := edit₂.subject.2.1.trans edit₁.subject.2.1
  exact .relationship (kind ▸ static) (Model.relationship?_eq_some known).1 source
    (View.mem_withElement nested v₁ r.destination false)

/-- To insert an accepted element with its surroundings redraws the view step by step. -/
theorem moves_insertAccepted (key : String) (id : ElementId) :
    (insertAccepted key id).Moves Redrawn := by
  intro b u b' done
  simp only [insertAccepted, bind_eq_ok, get_eq_ok] at done
  obtain ⟨_, _, ⟨rfl, rfl⟩, inserted⟩ := done
  split at inserted
  case isTrue accepted =>
    exact .single (redraws_insertViewElement (canInclude_iff.mp accepted) inserted)
  case isFalse =>
    obtain ⟨-, rfl⟩ := pure_eq_ok.mp inserted
    exact .refl

theorem moves_includeDefault (key : String) : (includeDefault key).Moves Redrawn :=
  .bind .ask fun ids => .forM (moves_insertAccepted key) ids

/-- A dynamic view is asked for and found exactly if the view with the key is one. -/
theorem dynamicView_eq_ok :
    b.dynamicView key = .ok v ↔ b.view key = .ok v ∧ v.kind = .dynamic := by
  simp only [dynamicView, Check.bind_eq_ok]
  constructor
  · rintro ⟨w, found, answer⟩
    by_cases dynamic : w.kind = .dynamic
    · obtain rfl : w = v := by simpa [dynamic] using answer
      exact ⟨found, dynamic⟩
    · simp [dynamic] at answer
  · rintro ⟨found, dynamic⟩
    exact ⟨v, found, by simp [dynamic]⟩

/-- An edit that asks for a dynamic view is done exactly where the view with the key is one. -/
theorem editDynamic_eq_ok {α : Type} {f : View → α × View} {a : α} :
    (do let _ ← Change.ask (·.dynamicView key)
        editView key f : Change Builder α) b = .ok a b' ↔
      ∃ v, b.view key = .ok v ∧ v.kind = .dynamic ∧ (f v).1 = a ∧ b.putView key (f v).2 = b' := by
  simp only [ask_bind_eq_ok, editView_eq_ok, dynamicView_eq_ok]
  constructor
  · rintro ⟨v, ⟨found, dynamic⟩, w, found', rfl, rfl⟩
    obtain rfl := Except.ok.inj (found.symm.trans found')
    exact ⟨v, found, dynamic, rfl, rfl⟩
  · rintro ⟨v, found, dynamic, rfl, rfl⟩
    exact ⟨v, ⟨found, dynamic⟩, v, found, rfl, rfl⟩

/-- A line is appended to a dynamic view exactly if it is found. -/
theorem append_eq_ok {find : View → Builder → Except ModelError ViewLine}
    {order : Option String} :
    (do let v ← Change.ask (·.dynamicView key)
        let l ← Change.ask (find v)
        updateView key (·.appendLine l order) : Change Builder Unit) b = .ok () b' ↔
      ∃ v l, b.dynamicView key = .ok v ∧ find v b = .ok l ∧
        b' = b.putView key (v.appendLine l order) := by
  simp only [ask_bind_eq_ok, updateView, editView_eq_ok]
  constructor
  · rintro ⟨v, asked, l, answer, w, found, -, rfl⟩
    obtain rfl := Except.ok.inj ((dynamicView_eq_ok.mp asked).1.symm.trans found)
    exact ⟨v, l, asked, answer, rfl⟩
  · rintro ⟨v, l, asked, answer, rfl⟩
    have found := (dynamicView_eq_ok.mp asked).1
    exact ⟨v, asked, l, answer, v, found, trivial, rfl⟩

/-- A relationship is shown with its own ends. -/
theorem checkRelationshipLine_eq_ok {id : RelationshipId} {description : String}
    {l : ViewLine} :
    b.checkRelationshipLine v id description = .ok l ↔
      ∃ r, b.model.relationship? id = some r ∧ v.check b.model r.source = .ok () ∧
        v.check b.model r.destination = .ok () ∧
        l = { ViewLine.ofRelationship r with description } := by
  simp only [checkRelationshipLine, Check.bind_eq_ok, relationship_eq_ok]
  constructor
  · rintro ⟨r, known, _, accepted, _, accepted', answer⟩
    exact ⟨r, known, accepted, accepted', (Except.ok.inj answer).symm⟩
  · rintro ⟨r, known, accepted, accepted', rfl⟩
    exact ⟨r, known, (), accepted, (), accepted', rfl⟩

/-- An interaction is appended between participants that the view has accepted. -/
theorem redraws_addInteraction {source destination : Participant}
    {description technology : String} {order : Option String} {u : Unit}
    (done : addInteraction key source destination description technology order b = .ok u b') :
    Redraws b b' := by
  obtain ⟨v, l, asked, checked, rfl⟩ := append_eq_ok.mp done
  obtain ⟨found, dynamic⟩ := dynamicView_eq_ok.mp asked
  obtain ⟨shows, accepted, accepted'⟩ := View.checkInteraction_eq_ok checked
  exact .edited found (.interaction dynamic shows accepted accepted' order)

/-- A relationship is appended between ends that the view has accepted. -/
theorem redraws_addRelationshipLine {id : RelationshipId} {description : String}
    {order : Option String} {u : Unit}
    (done : addRelationshipLine key id description order b = .ok u b') : Redraws b b' := by
  obtain ⟨v, l, asked, checked, rfl⟩ := append_eq_ok.mp done
  obtain ⟨found, dynamic⟩ := dynamicView_eq_ok.mp asked
  obtain ⟨r, known, accepted, accepted', rfl⟩ := checkRelationshipLine_eq_ok.mp checked
  have shows : ViewLine.Shows b.model { ViewLine.ofRelationship r with description } :=
    ⟨r, (Model.relationship?_eq_some known).1, rfl, rfl⟩
  exact .edited found (.interaction dynamic shows accepted accepted' order)

/-- A view that is added is new, whichever way its key was chosen. -/
theorem redraws_addView {kind : ViewKind} {key : Option String} {scope : Option ElementId}
    {environment : Option String} {answer : String}
    (done : addView kind key scope environment b = .ok answer b') : Redraws b b' := by
  obtain ⟨subject, b₁, chose, rfl⟩ := addView_eq_ok.mp done
  cases key with
  | none =>
    obtain ⟨rfl, rfl⟩ := Prod.ext_iff.mp (modifyGet_eq_ok.mp chose)
    exact .declared subject (generateKey_not_mem b kind) _
  | some key =>
    obtain ⟨free, rfl, rfl⟩ := chooseKey_some_eq_ok.mp chose
    refine .declared subject (fun taken => ?_) b.generatedKeys
    obtain ⟨v, found⟩ := hasView_iff.mpr taken
    simp [checkKey, view_eq_ok.mp found] at free

/-- The view after a change of its texts, layout or properties. -/
theorem redraws_updateView {f : View → View} {u : Unit} (done : updateView key f b = .ok u b')
    (same : ∀ v, (f v).picture = v.picture ∧ v.depth ≤ (f v).depth) : Redraws b b' :=
  redraws_editView done fun v _ => .retouched (same v).1 (same v).2

/-! ### Calls -/

/-- A call that succeeds is a run of steps, unless it closes a parallel block. -/
theorem Call.redrawn (c : Call) (grown : Grown b) {a : c.Answer}
    (done : c.perform b = .ok a b') :
    Redrawn b b' ∨
      ∃ key v, c = .endParallel key ∧ b.view key = .ok v ∧
        b' = b.putView key v.endParallel.2 := by
  have step : ∀ {b₁}, Redraws b b₁ → Redrawn b b₁ := .single
  cases c with
  | endParallel key =>
    obtain ⟨v, found, -, -, rfl⟩ := editDynamic_eq_ok.mp done
    exact .inr ⟨key, v, rfl, found, rfl⟩
  | addView => exact .inl (step (redraws_addView done))
  | setViewTitle | setViewDescription | setAutoLayout =>
    exact .inl (step (redraws_updateView done fun v => ⟨rfl, Nat.le_refl _⟩))
  | addViewProperty =>
    obtain ⟨-, updated⟩ := ask_then_eq_ok.mp done
    exact .inl (step (redraws_updateView updated fun v => ⟨rfl, Nat.le_refl _⟩))
  | includeElement => exact .inl (step (redraws_includeElement done))
  | excludeElement key id =>
    obtain ⟨-, -, updated⟩ := ask_bind_eq_ok.mp done
    exact .inl (step (redraws_editView updated fun v _ => .elementOut id))
  | includeRelationship => exact .inl (redrawn_includeRelationship grown.nested done)
  | excludeRelationship key id =>
    obtain ⟨-, -, updated⟩ := ask_bind_eq_ok.mp done
    exact .inl (step (redraws_editView updated fun v _ => .relationshipOut id))
  | includeDefault key => exact .inl (moves_includeDefault key b a b' done)
  | addInteraction => exact .inl (step (redraws_addInteraction done))
  | addRelationshipLine => exact .inl (step (redraws_addRelationshipLine done))
  | startParallel =>
    obtain ⟨-, -, updated⟩ := ask_bind_eq_ok.mp done
    exact .inl (step (redraws_updateView updated fun v => ⟨rfl, Nat.le_succ _⟩))
  | _ =>
    have views := Call.keepsViews _ rfl b a b' done
    exact .inl (step (.kept views (Call.evolves _ grown.numbered done)))

/-! ### Runs -/

/-- A call that succeeds keeps the views sound: the one that closes a parallel block changes
nothing but step numbers. -/
theorem Call.drawn (c : Call) (grown : Grown b) (drawn : b.Drawn) {a : c.Answer}
    (done : c.perform b = .ok a b') : b'.Drawn := by
  rcases c.redrawn grown done with run | ⟨key, v, -, found, rfl⟩
  · exact run.drawn grown drawn
  · exact drawn.putView found rfl ((drawn.sound v (mem_of_view found)).of_picture rfl)

/-- A run of calls keeps the views sound. -/
theorem Leads.drawn (run : Leads b b') (grown : Grown b) (drawn : b.Drawn) : b'.Drawn := by
  induction run with
  | refl => exact drawn
  | @call b₁ earlier c ih =>
    have grown₁ : Grown b₁ := grown.evolves (earlier.evolves grown.numbered)
    exact c.holds_after ih fun _ _ => c.drawn grown₁ ih

/-- The views of a reachable builder are sound. -/
theorem Reachable.drawn (reachable : Reachable b) : b.Drawn := by
  obtain ⟨name, description, run⟩ := reachable
  have grown : Grown (new name description) := ⟨name, description, .refl⟩
  exact run.drawn grown ⟨.nil, List.forall_mem_nil _, List.forall_mem_nil _⟩

end Builder

end Edifice
