import Edifice.Proofs.Builder.Items

/-!
Properties in reachable builders.

A property that is added to the workspace, to its model, to its views as a whole or to one of
its views, elements and relationships needs a name and a value.  Nothing else is ever entered
into these maps, so all that they hold has both (`Reachable.filled`): what elements and
relationships carry is in normal form, and the other maps are followed here.  Styles are not
among them: their properties are entered as they are given.
-/

open Edifice.Change

namespace Edifice

/-- Every entry has a name and a value. -/
def Dictionary.Filled (d : Dictionary String) : Prop :=
  ∀ entry ∈ d.entries, entry.1 ≠ "" ∧ entry.2 ≠ ""

/-- Every property has a name and a value, but for the properties of styles. -/
structure Workspace.Filled (w : Workspace) : Prop where
  workspace : w.properties.Filled
  model : w.model.properties.Filled
  views : w.views.properties.Filled
  view : ∀ v ∈ w.views.views, v.properties.Filled
  element : ∀ e ∈ w.model.elements, e.item.properties.Filled
  relationship : ∀ r ∈ w.model.relationships, r.item.properties.Filled

/-! ### Entering properties -/

section Entering

variable {name value : String} {d : Dictionary String}

theorem Dictionary.filled_empty : Dictionary.Filled {} :=
  List.forall_mem_nil _

/-- A property that has been checked can be entered. -/
theorem Dictionary.Filled.insert (filled : d.Filled) (checked : checkProperty name value = .ok ()) :
    (d.insert name value).Filled := by
  intro entry member
  rcases mem_of_mem_insertEntry member with rfl | earlier
  · exact checkProperty_eq_ok.mp checked
  · exact filled entry earlier

end Entering

namespace Builder

variable {b b' : Builder} {key : String}

/-- The properties besides those of elements, relationships and styles have names and values. -/
structure FilledAside (b : Builder) : Prop where
  workspace : b.properties.Filled
  model : b.model.properties.Filled
  views : b.views.properties.Filled
  view : ∀ v ∈ b.views.views, v.properties.Filled

/-- These properties have names and values after the change if they had before. -/
def Fills (b b' : Builder) : Prop :=
  b.FilledAside → b'.FilledAside

instance : IsPreorder Builder Fills where
  refl _ := id
  trans _ _ _ first second := second ∘ first

def propertyMaps (b : Builder) : List (Dictionary String) × List (Dictionary String) :=
  ([b.properties, b.model.properties, b.views.properties], b.views.views.map (·.properties))

/-- Whether these properties are filled is a matter of the maps. -/
theorem fills_of_same (same : b'.propertyMaps = b.propertyMaps) : Fills b b' := by
  intro filled
  simp only [propertyMaps, Prod.mk.injEq, List.cons.injEq] at same
  obtain ⟨⟨workspace, model, views, -⟩, view⟩ := same
  refine ⟨workspace ▸ filled.workspace, model ▸ filled.model, views ▸ filled.views, ?_⟩
  have maps := List.forall_mem_map.mpr filled.view
  exact List.forall_mem_map.mp (view ▸ maps)

theorem fills_of_keeps {α : Type} {c : Change Builder α} (keeps : c.Keeps propertyMaps) :
    c.Moves Fills :=
  fun b a b' done => fills_of_same (keeps b a b' done)

/-- A change that checks a property first. -/
theorem fills_of_checked {name value : String} {f : Builder → Builder}
    (written : checkProperty name value = .ok () → ∀ b, Fills b (f b)) :
    Moves Fills (do
      Change.ask fun _ => checkProperty name value
      modify f) := by
  intro b a b' done
  obtain ⟨checked, rfl⟩ := ask_modify_eq_ok.mp done
  exact written checked b

/-! ### Views -/

/-- A view whose properties are filled may be put in its place. -/
theorem fills_putView {v : View} (own : v.properties.Filled) : Fills b (b.putView key v) := by
  intro filled
  refine ⟨filled.workspace, filled.model, filled.views, fun v' member => ?_⟩
  rcases mem_views_putView member with rfl | earlier
  · exact own
  · exact filled.view v' earlier

/-- An edit that keeps the properties of its view filled keeps those of all. -/
theorem fills_editView {α : Type} {f : View → α × View}
    (own : ∀ v, v.properties.Filled → (f v).2.properties.Filled) :
    (editView key f).Moves Fills := by
  intro b a b' done filled
  obtain ⟨v, found, -, rfl⟩ := editView_eq_ok.mp done
  exact fills_putView (own v (filled.view v (mem_of_view found))) filled

theorem editsMove_fills (key : String) :
    EditsMove key (fun v v' => v.properties.Filled → v'.properties.Filled) Fills where
  edit := fills_editView
  contents _ _ _ := id

/-- A new view has no properties yet. -/
theorem fills_addView (kind : ViewKind) (chosen : Option String) (scope : Option ElementId)
    (environment : Option String) : (addView kind chosen scope environment).Moves Fills := by
  have generated : ∀ b : Builder, Fills b (b.generateKey kind).2 := fun _ => fills_of_same rfl
  refine .bind .ask fun _ => .bind (moves_chooseKey generated chosen) fun _ => ?_
  exact .bind (.modify fun b => fills_putView Dictionary.filled_empty) fun _ => .pure

/-! ### Calls -/

/-- A call that succeeds enters no property without a name or a value. -/
theorem Call.fills (c : Call) : c.perform.Moves Fills := by
  by_cases onModel : c.onModel = true
  · refine fills_of_keeps fun b a b' done => ?_
    have same : b'.aside = b.aside := c.keeps_aside onModel b a b' done
    show b'.aside.propertyMaps = b.aside.propertyMaps
    rw [same]
  cases c with
  | setName | setDescription | setImpliedRelationships | setScope | setVisibility | addUser
  | updateElementStyle | updateRelationshipStyle =>
    exact fills_of_keeps (.modify fun _ => rfl)
  | addTheme => exact fills_of_keeps (.bind .ask fun _ => .modify fun _ => rfl)
  | addWorkspaceProperty name value =>
    exact fills_of_checked fun checked b filled =>
      { filled with workspace := filled.workspace.insert checked }
  | addModelProperty name value =>
    exact fills_of_checked fun checked b filled =>
      { filled with model := filled.model.insert checked }
  | addViewsProperty name value =>
    exact fills_of_checked fun checked b filled =>
      { filled with views := filled.views.insert checked }
  | addDecisions element batch =>
    refine fills_of_keeps (.bind .ask fun _ => .bind .ask fun _ => .bind .ask fun _ =>
      .modify fun b => ?_)
    exact foldl_same (g := propertyMaps) (f := recordDecision element) (fun _ _ => rfl) batch b
  | addView => exact fills_addView _ _ _ _
  | setViewTitle | setViewDescription | setAutoLayout =>
    exact fills_editView fun _ filled => filled
  | addViewProperty key name value =>
    intro b a b' done
    obtain ⟨_, checked, ran⟩ := ask_bind_eq_ok.mp done
    exact fills_editView (fun _ filled => filled.insert checked) b a b' ran
  | includeElement key id =>
    exact .bind .ask fun _ => (editsMove_fills key).insertViewElement id true
  | includeRelationship key id => exact (editsMove_fills key).includeRelationship id
  | includeDefault key => exact (editsMove_fills key).includeDefault
  | excludeElement | excludeRelationship | startParallel | endParallel =>
    exact .bind .ask fun _ => fills_editView fun _ filled => filled
  | addInteraction | addRelationshipLine =>
    exact .bind .ask fun _ => .bind .ask fun _ => fills_editView fun _ filled => filled
  | _ => exact absurd rfl onModel

/-- Every property in a reachable builder has a name and a value, but for the properties of
styles. -/
theorem Reachable.filled (reachable : b.Reachable) : b.toWorkspace.Filled := by
  have crafted := reachable.crafted
  obtain ⟨name, description, run⟩ := reachable
  have aside := run.moved Call.fills ⟨Dictionary.filled_empty, Dictionary.filled_empty,
    Dictionary.filled_empty, List.forall_mem_nil _⟩
  exact
    { workspace := aside.workspace
      model := aside.model
      views := aside.views
      view := aside.view
      element := fun _ member => (crafted.normal_element member).properties_filled
      relationship := fun _ member => (crafted.normal_relationship member).properties_filled }

end Builder

end Edifice
