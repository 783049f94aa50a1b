import Edifice.Proofs.Builder.Implication
import Edifice.Proofs.Builder.Views

/-!
What calls leave alone.

No call takes an element or a relationship away, puts one between those that are there, or
changes what was declared about one (`Model.Persists`): a call is a run of steps that add to
the model.  A call on the views changes nothing else, and a call on one view nothing but that
view and, for a view without a key of its own, the count of generated keys: all it writes is
that view, under its own key (`Builder.besides`).
-/

open Edifice.Change

namespace Edifice

/-- The elements and relationships of `m` come first in `m'`, in their order, and keep what
was declared about them. -/
structure Model.Persists (m m' : Model) : Prop where
  element_ids : m.elements.map (·.id) <+: m'.elements.map (·.id)
  relationship_ids : m.relationships.map (·.id) <+: m'.relationships.map (·.id)
  elements : ∀ e ∈ m.elements, ∃ e', m'.element? e.id = some e' ∧ e'.kind = e.kind ∧
    e'.name = e.name ∧ e'.canonicalName = e.canonicalName ∧ e'.parent = e.parent ∧
      e'.group = e.group ∧ e'.environment = e.environment ∧ e'.instanceOf = e.instanceOf ∧
        e'.instanceIndex = e.instanceIndex ∧ e'.metadata = e.metadata
  relationships : ∀ r ∈ m.relationships, ∃ r', m'.relationship? r.id = some r' ∧
    r'.source = r.source ∧ r'.destination = r.destination ∧ r'.description = r.description ∧
      r'.technology = r.technology ∧ r'.origin = r.origin

/-- A model persists in every model that extends it. -/
theorem Model.Extends.persists {m m' : Model} (extends_ : m.Extends m') {next : Nat}
    (numbered : m'.Numbered next) : m.Persists m' where
  element_ids := by
    have ids : ∀ l : List Element, (l.map Element.core).map (·.id) = l.map (·.id) := by
      intro l
      simp
    simpa only [skeleton_elements, ids] using extends_.elements.map (·.id)
  relationship_ids := by
    have ids : ∀ l : List Relationship,
        (l.map Relationship.core).map (·.id) = l.map (·.id) := by
      intro l
      simp
    simpa only [skeleton_relationships, ids] using extends_.relationships.map (·.id)
  elements := by
    intro e member
    obtain ⟨e', member', same⟩ := extends_.exists_element member
    obtain ⟨id, kept⟩ := Element.core_eq_iff.mp same
    exact ⟨e', id ▸ numbered.element?_of_mem member', kept⟩
  relationships := by
    intro r member
    obtain ⟨r', member', same⟩ := extends_.exists_relationship member
    obtain ⟨id, kept⟩ := Relationship.core_eq_iff.mp same
    exact ⟨r', id ▸ numbered.relationship?_of_mem member', kept⟩

namespace Builder

variable {b b' : Builder} {key : String}

/-! ### Calls on one view -/

/-- All that a builder has besides the view with the key and the count of generated keys. -/
def besides (key : String) (b : Builder) : Builder :=
  { b with
    views := { b.views with entries := b.views.entries.filter (·.1 != key) }
    generatedKeys := {} }

/-- A view that is put makes no difference besides. -/
theorem besides_putView (b : Builder) (key : String) (v : View) :
    (b.putView key v).besides key = b.besides key := by
  have others : (putKeyed Prod.fst (key, v) b.views.entries).filter (·.1 != key) =
      b.views.entries.filter (·.1 != key) := filter_putKeyed (key, v) b.views.entries
  simp only [besides, putView, ViewSet.put, others]

theorem besides_editView {α : Type} (f : View → α × View) :
    (editView key f).Keeps (besides key) := by
  intro b a b' done
  obtain ⟨v, -, -, rfl⟩ := editView_eq_ok.mp done
  exact besides_putView ..

/-- Editing the view under the key in any way keeps `part`. -/
def EditsKeep {κ : Type} (key : String) (part : Builder → κ) : Prop :=
  ∀ {α : Type} (f : View → α × View), (editView key f).Keeps part

theorem EditsKeep.moves {κ : Type} {part : Builder → κ} (edits : EditsKeep key part) :
    EditsMove key (fun _ _ => True) (Same part) where
  edit _ := edits _
  contents _ _ _ := trivial

/-- A view that is added, under a chosen or a generated key, changes nothing besides. -/
theorem besides_addView {kind : ViewKind} {chosen : Option String} {scope : Option ElementId}
    {environment : Option String}
    (done : addView kind chosen scope environment b = .ok key b') :
    b'.besides key = b.besides key := by
  obtain ⟨-, b₁, chose, rfl⟩ := addView_eq_ok.mp done
  have generated : ∀ b : Builder, Same (besides key) b (b.generateKey kind).2 := fun _ => rfl
  rw [besides_putView]
  exact moves_chooseKey generated chosen b key b₁ chose

/-- The key of the view that a call changes, by which it names it. -/
def Call.view? : Call → Option String
  | .setViewTitle key _ | .setViewDescription key _ | .setAutoLayout key _
  | .addViewProperty key _ _ | .includeElement key _ | .excludeElement key _
  | .includeRelationship key _ | .excludeRelationship key _ | .includeDefault key
  | .addInteraction key .. | .addRelationshipLine key .. | .startParallel key
  | .endParallel key => some key
  | _ => none

/-- The key of the view that a call is on; that of a new view is the answer. -/
def Call.key? : (c : Call) → c.Answer → Option String
  | .addView .., key => some key
  | c, _ => c.view?

/-- What a call does to a view are edits of it. -/
theorem Call.keeps_edited {κ : Type} {part : Builder → κ} (c : Call)
    (named : c.view? = some key) (edits : EditsKeep key part) : c.perform.Keeps part := by
  cases c with
  | setViewTitle | setViewDescription | setAutoLayout =>
    obtain rfl := Option.some.inj named
    exact edits _
  | addViewProperty | excludeElement | excludeRelationship | startParallel | endParallel =>
    obtain rfl := Option.some.inj named
    exact .bind .ask fun _ => edits _
  | includeElement _ id =>
    obtain rfl := Option.some.inj named
    exact .bind .ask fun _ => edits.moves.insertViewElement id true
  | includeRelationship _ id =>
    obtain rfl := Option.some.inj named
    exact edits.moves.includeRelationship id
  | includeDefault =>
    obtain rfl := Option.some.inj named
    exact edits.moves.includeDefault
  | addInteraction | addRelationshipLine =>
    obtain rfl := Option.some.inj named
    exact .bind .ask fun _ => .bind .ask fun _ => edits _
  | _ => cases named

/-- A call that changes a view changes nothing besides. -/
theorem Call.keeps_besides (c : Call) (named : c.view? = some key) :
    c.perform.Keeps (besides key) :=
  c.keeps_edited named besides_editView

/-- A call on a view leaves all besides that view as it is. -/
theorem Call.besides_eq (c : Call) {a : c.Answer} (named : c.key? a = some key)
    (done : c.perform b = .ok a b') : b'.besides key = b.besides key := by
  cases c with
  | addView =>
    obtain rfl := Option.some.inj named
    exact besides_addView done
  | _ => exact Call.keeps_besides _ (by exact named) b a b' done

theorem Call.exists_key (c : Call) (draws : c.draws) (a : c.Answer) :
    ∃ key, c.key? a = some key := by
  cases c <;> first | exact ⟨_, rfl⟩ | cases draws

/-! ### Calls on all views -/

/-- The calls on views, on what they have in common and on how they look. -/
def Call.onViews (c : Call) : Bool :=
  match c with
  | .addViewsProperty .. | .updateElementStyle .. | .updateRelationshipStyle .. | .addTheme .. =>
    true
  | _ => c.draws

/-- A builder without what its views have in common. -/
def viewsAlone (b : Builder) : Builder :=
  { b with views := { b.views with styles := {}, themes := [], properties := {} } }

/-- A call on all views changes nothing but what the views have in common. -/
theorem Call.keeps_viewsAlone (c : Call) (onViews : c.onViews) (shared : c.draws = false) :
    c.perform.Keeps viewsAlone := by
  cases c with
  | addViewsProperty | addTheme => exact .bind .ask fun _ => .modify fun _ => rfl
  | updateElementStyle | updateRelationshipStyle => exact .modify fun _ => rfl
  | _ => simp_all [Call.onViews, Call.draws]

/-! ### Parts that few calls change -/

/-- What calls on views leave alone is kept by each of them. -/
theorem Call.keeps_of_onViews {κ : Type} {part : Builder → κ}
    (besides_part : ∀ key (b b' : Builder), b'.besides key = b.besides key → part b' = part b)
    (alone_part : ∀ b b' : Builder, b'.viewsAlone = b.viewsAlone → part b' = part b) (c : Call)
    (onViews : c.onViews = true) : c.perform.Keeps part := by
  intro b a b' done
  cases draws : c.draws with
  | true =>
    obtain ⟨key, named⟩ := c.exists_key draws a
    exact besides_part key b b' (c.besides_eq named done)
  | false => exact alone_part b b' (c.keeps_viewsAlone onViews draws b a b' done)

/-- What neither the calls on the model nor those on views change is kept by a call if it is
kept by the others. -/
theorem Call.keeps_part {κ : Type} {part : Builder → κ}
    (aside_part : ∀ b b' : Builder, b'.aside = b.aside → part b' = part b)
    (besides_part : ∀ key (b b' : Builder), b'.besides key = b.besides key → part b' = part b)
    (alone_part : ∀ b b' : Builder, b'.viewsAlone = b.viewsAlone → part b' = part b) (c : Call)
    (others : ¬ c.onModel = true → ¬ c.onViews = true → c.perform.Keeps part) :
    c.perform.Keeps part := by
  by_cases onModel : c.onModel = true
  · exact fun b a b' done => aside_part b b' (c.keeps_aside onModel b a b' done)
  by_cases onViews : c.onViews = true
  · exact c.keeps_of_onViews besides_part alone_part onViews
  exact others onModel onViews

/-- The call that changes the properties of the model. -/
def Call.setsModel : Call → Bool
  | .addModelProperty .. => true
  | _ => false

/-- Every other call leaves the properties of the model alone. -/
theorem Call.keeps_modelProperties (c : Call) (other : c.setsModel = false) :
    c.perform.Keeps fun b : Builder => b.model.properties := by
  refine c.keeps_part (fun _ _ same => congrArg (·.model.properties) same)
    (fun _ _ _ same => congrArg (·.model.properties) same)
    (fun _ _ same => congrArg (·.model.properties) same) fun onModel onViews => ?_
  cases c with
  | setName | setDescription | setImpliedRelationships | setScope | setVisibility | addUser =>
    exact .modify fun _ => rfl
  | addWorkspaceProperty => exact .bind .ask fun _ => .modify fun _ => rfl
  | addDecisions element batch =>
    refine .bind .ask fun _ => .bind .ask fun _ => .bind .ask fun _ => .modify fun b => ?_
    exact foldl_same (g := fun b : Builder => b.model.properties) (f := recordDecision element)
      (fun _ _ => rfl) batch b
  | addModelProperty => cases other
  | _ => first | exact absurd rfl onModel | exact absurd rfl onViews

/-! ### All calls -/

/-- **The model only grows, and calls on views leave it alone.**  After every call on a
reachable builder, refused or not, the elements and relationships before it come first, in
their order, and keep their ids and all that was declared about them.  A call on views
changes neither the model nor the decisions nor the configuration, nor any view but the one
whose key it names or, for a view that is added, answers; where it is refused it changes
nothing at all. -/
theorem calls_only_grow_model (reachable : b.Reachable) (c : Call) :
    b.model.Persists (c.perform.after b).model ∧
      (c.onViews →
        (∀ e b', c.perform b = .error e b' → b' = b) ∧
        ∀ a b', c.perform b = .ok a b' →
          b'.model = b.model ∧ b'.decisions = b.decisions ∧
            b'.configuration = b.configuration ∧
              b'.views.entries.filter (fun e => c.key? a ≠ some e.1) =
                b.views.entries.filter fun e => c.key? a ≠ some e.1) := by
  have numbered := reachable.grown.numbered
  have run := c.evolves_after numbered
  refine ⟨(run.extends_ numbered).persists (run.numbered numbered), fun onViews => ?_⟩
  refine ⟨c.clean, fun a b' done => ?_⟩
  cases draws : c.draws with
  | true =>
    obtain ⟨key, named⟩ := c.exists_key draws a
    have same := c.besides_eq named done
    have others : ∀ l : List (String × View),
        l.filter (fun e => c.key? a ≠ some e.1) = l.filter (·.1 != key) := by
      intro l
      refine List.filter_congr fun e _ => ?_
      simp only [named, ne_eq, Option.some.injEq, decide_not, bne, beq_eq_decide, eq_comm]
    rw [others, others]
    exact ⟨congrArg (·.model) same, congrArg (·.decisions) same,
      congrArg (·.configuration) same, congrArg (·.views.entries) same⟩
  | false =>
    have same : b'.viewsAlone = b.viewsAlone := c.keeps_viewsAlone onViews draws b a b' done
    have views : b'.views.entries = b.views.entries := congrArg (·.views.entries) same
    rw [views]
    exact ⟨congrArg (·.model) same, congrArg (·.decisions) same,
      congrArg (·.configuration) same, rfl⟩

/-- A second view is added to the shop, under a key of its own: the model is as it was, and
so is the first view. -/
theorem frame_of_shop :
    shop.Reachable ∧
      (addView .systemLandscape none none none).answer shop = .ok "SystemLandscape-001" ∧
        ((addView .systemLandscape none none none).after shop).model = shop.model ∧
          ((addView .systemLandscape none none none).after shop).views.entries.filter
            (·.1 ≠ "SystemLandscape-001") = shop.views.entries := by
  have added : (addView .systemLandscape none none none).answer shop =
      .ok "SystemLandscape-001" := by decide +kernel
  obtain ⟨-, frame⟩ :=
    calls_only_grow_model reachable_shop (.addView .systemLandscape none none none)
  obtain ⟨model, -, -, others⟩ := (frame rfl).2 _ _ (answer_eq_ok.mp added)
  have first : shop.views.entries.filter (·.1 ≠ "SystemLandscape-001") = shop.views.entries := by
    decide +kernel
  have same : ∀ e : String × View, ((Call.addView .systemLandscape none none none).key?
      "SystemLandscape-001" ≠ some e.1) = (e.1 ≠ "SystemLandscape-001") := by
    intro e
    simp [Call.key?, eq_comm]
  simp only [same] at others
  exact ⟨reachable_shop, added, model, others.trans first⟩

end Builder

end Edifice
