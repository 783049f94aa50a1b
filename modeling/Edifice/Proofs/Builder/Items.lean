import Edifice.Proofs.Builder.Frames
import Edifice.Proofs.Model.Items

/-!
Items in reachable builders.

An element or relationship is declared with no more than the tags it starts with, and calls
change what it carries by the changes that items are made of.  So what is carried in a
reachable builder has been made that way (`Reachable.crafted`), and is in normal form.
-/

open Edifice.Change

namespace Edifice

/-- A change that asks before it writes. -/
theorem Change.ask_modify_eq_ok {σ : Type} {question : σ → Except ModelError Unit} {f : σ → σ}
    {s s' : σ} {u : Unit} :
    (do
      Change.ask question
      modify f : Change σ Unit) s = .ok u s' ↔ question s = .ok () ∧ f s = s' := by
  simp only [ask_then_eq_ok, modify_eq_ok]

namespace Builder

variable {b b' : Builder}

/-- What elements and relationships carry has been made of the tags that they start with. -/
structure Crafted (b : Builder) : Prop where
  element : ∀ e ∈ b.model.elements, e.item.Made e.kind.defaultTags
  relationship : ∀ r ∈ b.model.relationships, r.item.Made [relationshipTag]

/-- What is carried is made of changes afterwards if it was before. -/
def Crafts (b b' : Builder) : Prop :=
  b.Crafted → b'.Crafted

instance : IsPreorder Builder Crafts where
  refl _ := id
  trans _ _ _ first second := second ∘ first

/-! ### Elements and relationships -/

/-- An element whose item is made of changes may be put in its place. -/
theorem crafts_putElement {e : Element} (own : b.Crafted → e.item.Made e.kind.defaultTags) :
    Crafts b { b with model := b.model.putElement e } := by
  intro crafted
  refine ⟨fun e' member => ?_, crafted.relationship⟩
  rcases mem_of_mem_putKeyed member with rfl | earlier
  · exact own crafted
  · exact crafted.element e' earlier

/-- A relationship whose item is made of changes may be put in its place. -/
theorem crafts_putRelationship {r : Relationship}
    (own : b.Crafted → r.item.Made [relationshipTag]) :
    Crafts b { b with model := b.model.putRelationship r } := by
  intro crafted
  refine ⟨crafted.element, fun r' member => ?_⟩
  rcases mem_of_mem_putKeyed member with rfl | earlier
  · exact own crafted
  · exact crafted.relationship r' earlier

/-- Both writes that declare make items as the checks leave them. -/
theorem grafts_crafts : Grafts Crafts where
  element b draft bare crafted := by
    have made : (b.newElement draft).item.Made draft.kind.defaultTags := by
      show draft.item.Made _
      rw [bare]
      exact .plain
    have put := crafts_putElement (e := b.newElement draft) (fun _ => made) crafted
    exact ⟨put.element, put.relationship⟩
  relationship b source destination description technology origin crafted := by
    have put := crafts_putRelationship (r := b.newRelationship source destination description
      technology origin) (fun _ => .plain) crafted
    exact ⟨put.element, put.relationship⟩

/-! ### Changes of items -/

/-- A change of an item is one of those that items are made of. -/
def MakesItem (item item' : Item) : Prop :=
  ∀ first, item.Made first → item'.Made first

/-- A change of one element makes an item again if it does so of the item alone. -/
theorem crafts_onElement (id : ElementId) {c : Change Element Unit}
    (own : c.Moves fun e e' => e'.kind = e.kind ∧ MakesItem e.item e'.item) :
    (onElement id c).Moves Crafts := by
  intro b a b' done
  obtain ⟨e, e', found, inside, rfl⟩ := onElement_eq_ok.mp done
  have member := (Model.element?_eq_some found).1
  obtain ⟨kind, makes⟩ := own e a e' inside
  exact crafts_putElement fun crafted => kind ▸ makes _ (crafted.element e member)

/-- What is said about an element besides its item is no matter of what it carries. -/
theorem crafts_onElement_of_keeps (id : ElementId) {c : Change Element Unit}
    (kept : c.Keeps fun e => (e.kind, e.item)) : (onElement id c).Moves Crafts := by
  refine crafts_onElement id fun e a e' done => ?_
  obtain ⟨kind, item⟩ := Prod.ext_iff.mp (kept e a e' done)
  exact ⟨kind, fun first made => by rwa [show e'.item = e.item from item]⟩

/-- A change of one relationship makes an item again if it does so of the item alone. -/
theorem crafts_onRelationship (id : RelationshipId) {c : Change Relationship Unit}
    (own : c.Moves fun r r' => MakesItem r.item r'.item) :
    (onRelationship id c).Moves Crafts := by
  intro b a b' done
  obtain ⟨r, r', found, inside, rfl⟩ := onRelationship_eq_ok.mp done
  have member := (Model.relationship?_eq_some found).1
  exact crafts_putRelationship fun crafted =>
    own r a r' inside _ (crafted.relationship r member)

theorem crafts_onItem (ref : ItemRef) {c : Change Item Unit} (own : c.Moves MakesItem) :
    (onItem ref c).Moves Crafts := by
  cases ref with
  | element id => exact crafts_onElement id (own.within fun _ _ makes => ⟨rfl, makes⟩)
  | relationship id => exact crafts_onRelationship id (own.within fun _ _ makes => makes)

/-! ### Calls -/

def graph (b : Builder) : List Element × List Relationship :=
  (b.model.elements, b.model.relationships)

/-- What is carried is a matter of the elements and relationships. -/
theorem crafts_of_same (same : b'.graph = b.graph) : Crafts b b' := by
  obtain ⟨elements, relationships⟩ := Prod.ext_iff.mp same
  change b'.model.elements = b.model.elements at elements
  change b'.model.relationships = b.model.relationships at relationships
  exact fun crafted => ⟨elements ▸ crafted.element, relationships ▸ crafted.relationship⟩

/-- A call that is not on the model leaves its elements and relationships alone. -/
theorem Call.keeps_graph (c : Call) (other : c.onModel = false) : c.perform.Keeps graph := by
  by_cases onViews : c.onViews = true
  · refine c.keeps_of_onViews (fun _ _ _ same => ?_) (fun _ _ same => ?_) onViews
    · exact congrArg (fun b => (b.model.elements, b.model.relationships)) same
    · exact congrArg (fun b => (b.model.elements, b.model.relationships)) same
  cases c with
  | setName | setDescription | setImpliedRelationships | setScope | setVisibility | addUser =>
    exact .modify fun _ => rfl
  | addWorkspaceProperty | addModelProperty => exact .bind .ask fun _ => .modify fun _ => rfl
  | addDecisions element batch =>
    refine .bind .ask fun _ => .bind .ask fun _ => .bind .ask fun _ => .modify fun b => ?_
    exact foldl_same (g := graph) (f := recordDecision element) (fun _ _ => rfl) batch b
  | _ => first | exact absurd rfl onViews | cases other

/-- A call that succeeds changes what is carried by the changes that items are made of. -/
theorem Call.crafts (c : Call) : c.perform.Moves Crafts := by
  by_cases declares : c.declares = true
  · exact c.moves_of_grafts grafts_crafts declares
  cases c with
  | setElementDescription id => exact crafts_onElement_of_keeps id (.modify fun _ => rfl)
  | setElementTechnology id | setInstances id =>
    exact crafts_onElement_of_keeps id (.bind .ask fun _ => .modify fun _ => rfl)
  | addTags ref text => exact crafts_onItem ref (.modify fun _ _ made => made.tagged text)
  | setUrl ref url =>
    refine crafts_onItem ref fun item a item' done => ?_
    obtain ⟨link, read, ran⟩ := ask_bind_eq_ok.mp done
    obtain rfl := modify_eq_ok.mp ran
    exact fun _ made => made.linked read
  | addProperty ref =>
    refine crafts_onItem ref fun item a item' done => ?_
    obtain ⟨checked, rfl⟩ := ask_modify_eq_ok.mp done
    exact fun _ made => made.property checked
  | addPerspective ref =>
    refine crafts_onItem ref fun item a item' done => ?_
    obtain ⟨checked, rfl⟩ := ask_modify_eq_ok.mp done
    exact fun _ made => made.perspective checked
  | _ =>
    first
    | exact absurd rfl declares
    | exact fun b a b' done => crafts_of_same (Call.keeps_graph _ rfl b a b' done)

/-- All that is carried in a reachable builder has been made of the tags of its kind. -/
theorem Reachable.crafted (reachable : b.Reachable) : b.Crafted := by
  obtain ⟨name, description, run⟩ := reachable
  exact run.moved Call.crafts ⟨List.forall_mem_nil _, List.forall_mem_nil _⟩

theorem Crafted.normal_element (crafted : b.Crafted) {e : Element} (member : e ∈ b.model.elements) :
    e.item.Normal e.kind.defaultTags := by
  obtain ⟨distinct, proper⟩ := e.kind.defaultTags_proper
  exact (crafted.element e member).normal distinct proper

theorem Crafted.normal_relationship (crafted : b.Crafted) {r : Relationship}
    (member : r ∈ b.model.relationships) : r.item.Normal [relationshipTag] :=
  (crafted.relationship r member).normal (List.nodup_singleton _)
    (List.forall_mem_singleton.mpr isTag_relationshipTag)

/-- **What elements and relationships carry is in normal form.**  In a reachable builder the
tags of each are tags proper, listed once and starting with those of its kind; its
perspectives have names in ascending order and descriptions, its properties one value for each
name, and its link is one that the model accepts.  Of any item, adding tags and then others is
adding them as one list, adding tags again changes nothing, and to carry a tag is to have it
among the tags, without the blanks around it. -/
theorem items_of_reachable (reachable : b.Reachable) :
    (∀ e ∈ b.model.elements, e.item.Normal e.kind.defaultTags) ∧
      (∀ r ∈ b.model.relationships, r.item.Normal [relationshipTag]) ∧
      ∀ item : Item,
        (∀ a c, (item.addTags a).addTags c = item.addTags (a ++ "," ++ c)) ∧
          (∀ a, (item.addTags a).addTags a = item.addTags a) ∧
            ∀ t, item.hasTag t = true ↔ Text.trim t ∈ item.tags :=
  ⟨fun _ => reachable.crafted.normal_element, fun _ => reachable.crafted.normal_relationship,
    fun item => ⟨item.addTags_addTags, item.addTags_self, fun _ => Item.hasTag_iff⟩⟩

/-- The customer of the shop gets two tags, one of them twice. -/
theorem items_of_shop :
    (shop.run [.addTags (.element ⟨3⟩) "New, Regular ,New"]).Reachable ∧
      ∃ e ∈ (shop.run [.addTags (.element ⟨3⟩) "New, Regular ,New"]).model.elements,
        e.kind = .person ∧ e.item.tags = ["Element", "Person", "New", "Regular"] ∧
          e.item.Normal e.kind.defaultTags ∧ e.item.hasTag " Regular" := by
  have reachable : (shop.run [.addTags (.element ⟨3⟩) "New, Regular ,New"]).Reachable :=
    reachable_shop.leads (leads_iff.mpr ⟨_, rfl⟩)
  have customer : ∃ e ∈ (shop.run [.addTags (.element ⟨3⟩) "New, Regular ,New"]).model.elements,
      e.kind = .person ∧ e.item.tags = ["Element", "Person", "New", "Regular"] := by
    decide +kernel
  obtain ⟨e, member, kind, tags⟩ := customer
  obtain ⟨elements, -, laws⟩ := items_of_reachable reachable
  refine ⟨reachable, e, member, kind, tags, elements e member, ((laws e.item).2.2 _).mpr ?_⟩
  rw [tags]
  decide +kernel

end Builder

end Edifice
