import Edifice.Builder.Selections
import Edifice.Proofs.Builder.Environments
import Edifice.Proofs.Builder.Frames

/-!
What calls declare.

A call that declares an element answers with its id, and the elements after a call are
those before it and the one that it answers with, if any (`Call.ids_eq`).  Most
operations come down to calls that declare neither elements nor relationships and do not set
properties of the model (`LeadsSilent`), showing a selection among them, and leave the stock
of a builder and these properties alone.
-/

open Edifice.Change

namespace Edifice.Builder

variable {b b' : Builder}

/-! ### Silent calls -/

/-- A call that neither declares something nor sets a property of the model. -/
def Call.isSilent (c : Call) : Bool :=
  !c.declares && !c.setsModel

theorem Call.isSilent_iff {c : Call} :
    c.isSilent = true ↔ c.declares = false ∧ c.setsModel = false := by
  simp [isSilent]

abbrev LeadsSilent : Builder → Builder → Prop :=
  LeadsBy fun _ c => c.isSilent = true

instance : IsPreorder Builder LeadsSilent where
  refl _ := .refl
  trans _ _ _ := LeadsBy.trans

theorem Call.moves_silent (c : Call) (silent : c.isSilent = true) :
    c.perform.Moves LeadsSilent := by
  intro b a b' done
  rw [← after_of_ok done]
  exact .call .refl c silent

/-- What every silent call keeps is the same after silent calls. -/
theorem LeadsSilent.same {κ : Type} (run : LeadsSilent b b') (part : Builder → κ)
    (keeps : ∀ c : Call, c.isSilent = true → c.perform.Keeps part) : part b' = part b := by
  induction run with
  | refl => rfl
  | @call b₁ _ c silent ih =>
    exact c.holds_after ih fun a b₂ ran => (keeps c silent b₁ a b₂ ran).trans ih

/-- Silent calls leave the stock alone. -/
theorem LeadsSilent.stock_eq (run : LeadsSilent b b') : b'.stock = b.stock :=
  run.same stock fun c silent => c.keeps_stock (Call.isSilent_iff.mp silent).1

/-- Silent calls leave the properties of the model alone. -/
theorem LeadsSilent.modelProperties_eq (run : LeadsSilent b b') :
    b'.model.properties = b.model.properties :=
  run.same (fun b => b.model.properties) fun c silent =>
    c.keeps_modelProperties (Call.isSilent_iff.mp silent).2

def ids (b : Builder) : List ElementId :=
  b.model.elements.map (·.id)

theorem mem_ids {id : ElementId} : id ∈ b.ids ↔ b.model.Declares id := by
  simp [ids, Model.Declares]

/-- The ids of the elements are part of the stock. -/
theorem ids_of_stock_eq (same : b'.stock = b.stock) : b'.ids = b.ids := by
  have cores := congrArg (fun s => s.1.elements.map (·.id)) same
  simpa only [ids, stock, Model.skeleton_elements, List.map_map, Function.comp_def,
    Element.core_id] using cores

/-! ### Selections -/

theorem moves_includeIfAccepted (key : String) (id : ElementId) :
    (includeIfAccepted key id).Moves LeadsSilent := by
  refine .bind .get fun b => ?_
  split
  · exact Call.moves_silent (.includeElement key id) rfl
  · exact .pure

/-- Showing a selection comes down to calls that declare nothing. -/
theorem moves_includeSelection (key : String) (s : Selection) :
    (includeSelection key s).Moves LeadsSilent := by
  have relationship : ∀ id, (includeRelationship key id).Moves LeadsSilent := fun id =>
    Call.moves_silent (.includeRelationship key id) rfl
  refine .bind .get fun b => ?_
  cases s with
  | all => exact Call.moves_silent (.includeDefault key) rfl
  | elementTags | elementType => exact .forM (moves_includeIfAccepted key) _
  | relationshipTags | allRelationships =>
    exact .bind .ask fun ids => .forM relationship ids
  | coupled element =>
    refine .bind (Call.moves_silent (.includeElement key element) rfl) fun _ => ?_
    exact .forM (moves_includeIfAccepted key) _
  | element id => exact Call.moves_silent (.includeElement key id) rfl
  | relationship id => exact relationship id
  | between => exact .forM relationship _

/-- Taking out what a selection matches comes down to calls that declare nothing. -/
theorem moves_excludeSelection (key : String) (s : Selection) :
    (excludeSelection key s).Moves LeadsSilent := by
  refine .bind .ask fun _ => .bind .get fun _ => .bind (.forM ?_ _) fun _ => .forM ?_ _
  · exact fun id => Call.moves_silent (.excludeElement key id) rfl
  · exact fun id => Call.moves_silent (.excludeRelationship key id) rfl

/-! ### Declared elements -/

/-- The elements that a call declares. -/
def Call.entered : (c : Call) → c.Answer → List ElementId
  | .addPerson .., id | .addSoftwareSystem .., id | .addContainer .., id | .addComponent .., id
  | .addCustomElement .., id | .addDeploymentNode .., id | .addInfrastructureNode .., id
  | .addInstance .., id => [id]
  | _, _ => []

/-- The id of an element that is inserted goes to the end. -/
theorem ids_insertElement (numbered : b.Numbered) {draft : Element} {id : ElementId}
    (inserted : insertElement draft b = .ok id b') : b'.ids = b.ids ++ [id] := by
  obtain ⟨-, rfl, rfl⟩ := insertElement_eq_ok.mp inserted
  rw [ids, elements_enterElement numbered, List.map_append]
  rfl

/-- A call adds to the elements what it answers with. -/
theorem Call.ids_eq (c : Call) (numbered : b.Numbered) {a : c.Answer}
    (done : c.perform b = .ok a b') : b'.ids = b.ids ++ c.entered a := by
  cases c with
  | addPerson | addSoftwareSystem | addContainer | addComponent | addCustomElement
  | addDeploymentNode => exact ids_insertElement numbered done
  | addInfrastructureNode =>
    obtain ⟨parent, -, inserted⟩ := ask_bind_eq_ok.mp done
    exact ids_insertElement numbered inserted
  | addInstance =>
    obtain ⟨draft, b₁, -, inserted, rfl⟩ := addInstance_eq_ok.mp done
    rw [ids, elements_replicate]
    exact ids_insertElement numbered inserted
  | addRelationship =>
    obtain ⟨-, rfl, rfl⟩ := addRelationship_eq_ok.mp done
    rw [ids, elements_implyIfEnabled]
    exact (List.append_nil _).symm
  | _ =>
    have same := ids_of_stock_eq (Call.keeps_stock _ rfl b a b' done)
    exact same.trans (List.append_nil _).symm

end Edifice.Builder
