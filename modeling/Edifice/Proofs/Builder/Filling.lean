import Edifice.Proofs.Builder.Environments

/-!
Filling a static view with elements.

The lines of a static view are kept up bit by bit: an element brings in the relationships
between it and what is shown, and takes them out again.  What results is the same as if all
lines were drawn at the end: the view shows the part of the model that its elements induce
(`View.Spans`).  The elements are those that the single calls bring (`Fill.Brings`), so
without exclusions neither they nor the lines depend on the order of the calls.
-/

open Edifice.Change

namespace Edifice

/-- A call that fills a view with elements or takes one out. -/
inductive Fill where
  | element (id : ElementId)
  | all
  | without (id : ElementId)
deriving DecidableEq

/-- The call on the view with a key. -/
def Fill.call (key : String) : Fill → Builder.Call
  | .element id => .includeElement key id
  | .all => .includeDefault key
  | .without id => .excludeElement key id

namespace View

variable {m : Model} {v v' : View} {id x : ElementId}

/-- The view with an element that it accepts. -/
def offer (m : Model) (v : View) (id : ElementId) : View :=
  match v.check m id with
  | .ok () => v.withElement m id true
  | .error _ => v

theorem offer_of_accepted (accepted : v.check m id = .ok ()) :
    v.offer m id = v.withElement m id true := by
  simp [offer, accepted]

theorem offer_of_refused {e : ModelError} (refused : v.check m id = .error e) :
    v.offer m id = v := by
  simp [offer, refused]

/-- The view after a filling call. -/
def fill (m : Model) (v : View) : Fill → View
  | .element id => v.offer m id
  | .all => (v.defaultElements m).foldl (offer m) v
  | .without id => if (m.element? id).isSome then v.excludeElement id else v

/-- The lines of the relationships between the elements that a view shows. -/
def induced (m : Model) (v : View) : List ViewLine :=
  (m.relationships.filter fun r => v.showsElement r.source && v.showsElement r.destination).map
    .ofRelationship

/-- The view shows the relationships between its elements and nothing else. -/
def Spans (m : Model) (v : View) : Prop :=
  ∀ l, l ∈ v.lines ↔ l ∈ v.induced m

/-- A line is induced exactly if it is that of a relationship between elements shown. -/
theorem mem_induced {l : ViewLine} :
    l ∈ v.induced m ↔ ∃ r ∈ m.relationships, r.source ∈ v.elements ∧
      r.destination ∈ v.elements ∧ l = .ofRelationship r := by
  simp only [induced, showsElement, List.mem_map, List.mem_filter, Bool.and_eq_true,
    List.contains_iff_mem, and_assoc, eq_comm (a := l)]

theorem nodup_induced {next : Nat} (numbered : m.Numbered next) : (v.induced m).Nodup := by
  refine .of_map (·.relationship) ?_
  simp only [induced, List.map_map]
  exact numbered.nodup_relationships.sublist (List.filter_sublist.map _)

/-! ### Edits of static views -/

/-- What an element brings in makes up for what comes to be between shown elements. -/
theorem Spans.withElement {next : Nat} (numbered : m.Numbered next) (nested : m.Nested)
    (static : v.kind.isStatic) (spans : v.Spans m) (id : ElementId) :
    (v.withElement m id true).Spans m := by
  have elements := elements_withElement nested v id true
  have lines : (v.withElement m id true).lines = v.lines ++ v.newLines m (v.newElements m id) := by
    simp [View.withElement, static]
  intro l
  rw [lines, List.mem_append, spans, mem_induced, mem_induced, mem_newLines, elements]
  simp only [List.mem_append]
  constructor
  · rintro (⟨r, member, source, destination, rfl⟩ | ⟨r, member, source, destination, -, -, rfl⟩)
    · exact ⟨r, member, .inl source, .inl destination, rfl⟩
    · exact ⟨r, member, source, destination, rfl⟩
  · rintro ⟨r, member, source, destination, rfl⟩
    by_cases old : r.source ∈ v.elements ∧ r.destination ∈ v.elements
    · exact .inl ⟨r, member, old.1, old.2, rfl⟩
    · refine .inr ⟨r, member, source, destination, ?_, ?_, rfl⟩
      · rcases source with source | source
        · rcases destination with destination | destination
          · exact absurd ⟨source, destination⟩ old
          · exact .inr destination
        · exact .inl source
      · -- A line of `r` that is shown already has both its ends among the old elements.
        rw [showsRelationship_eq_false]
        intro shown
        obtain ⟨l', listed, same⟩ := List.mem_map.mp shown
        obtain ⟨r', member', source', destination', rfl⟩ := mem_induced.mp ((spans l').mp listed)
        obtain rfl := numbered.relationship_eq_of_id member' member same
        exact old ⟨source', destination'⟩

/-- Accepted or not, an element that is offered leaves the lines those between what is shown.
-/
theorem Spans.offer {next : Nat} (numbered : m.Numbered next) (nested : m.Nested)
    (static : v.kind.isStatic) (spans : v.Spans m) (id : ElementId) :
    (v.offer m id).Spans m := by
  unfold View.offer
  split
  · exact spans.withElement numbered nested static id
  · exact spans

/-- Where an element goes out its lines go with it, so that the others still span the view. -/
theorem Spans.excludeElement (spans : v.Spans m) (id : ElementId) :
    (v.excludeElement id).Spans m := by
  intro l
  simp only [View.excludeElement, mem_induced, List.mem_filter, bne_iff_ne, spans l]
  constructor
  · rintro ⟨⟨r, member, source, destination, rfl⟩, apart⟩
    simp only [ViewLine.touches, ViewLine.ofRelationship, Bool.not_eq_true',
      Bool.or_eq_false_iff, beq_eq_false_iff_ne] at apart
    exact ⟨r, member, ⟨source, apart.1⟩, ⟨destination, apart.2⟩, rfl⟩
  · rintro ⟨r, member, ⟨source, apart⟩, ⟨destination, apart'⟩, rfl⟩
    refine ⟨⟨r, member, source, destination, rfl⟩, ?_⟩
    simp [ViewLine.touches, ViewLine.ofRelationship, apart, apart']

/-! ### What a view is about -/

/-- Both views have the same key and are about the same. -/
def SameSubject (v v' : View) : Prop :=
  v'.key = v.key ∧ v'.kind = v.kind ∧ v'.scope = v.scope ∧ v'.environment = v.environment

theorem SameSubject.refl (v : View) : v.SameSubject v :=
  ⟨rfl, rfl, rfl, rfl⟩

theorem SameSubject.trans {v'' : View} (first : v.SameSubject v') (second : v'.SameSubject v'') :
    v.SameSubject v'' := by
  obtain ⟨key, kind, scope, environment⟩ := first
  obtain ⟨key', kind', scope', environment'⟩ := second
  exact ⟨key'.trans key, kind'.trans kind, scope'.trans scope, environment'.trans environment⟩

theorem SameSubject.check_eq (same : v.SameSubject v') (id : ElementId) :
    v'.check m id = v.check m id :=
  check_congr same.1 same.2.1 same.2.2.1 same.2.2.2 id

theorem SameSubject.defaultElements_eq (same : v.SameSubject v') :
    v'.defaultElements m = v.defaultElements m := by
  obtain ⟨-, kind, scope, -⟩ := same
  simp only [defaultElements, kind, scope]

theorem sameSubject_offer (m : Model) (v : View) (id : ElementId) :
    v.SameSubject (v.offer m id) := by
  unfold offer
  split <;> exact ⟨rfl, rfl, rfl, rfl⟩

/-- A loop of turns that keep what a view is about keeps it. -/
theorem sameSubject_foldl {ι : Type} {turn : View → ι → View}
    (same : ∀ (v : View) i, v.SameSubject (turn v i)) (l : List ι) (v : View) :
    v.SameSubject (l.foldl turn v) := by
  induction l generalizing v with
  | nil => exact .refl v
  | cons i rest ih => exact (same v i).trans (ih (turn v i))

/-- However a view is filled, it stays about the same. -/
theorem sameSubject_fill (m : Model) (v : View) (f : Fill) : v.SameSubject (v.fill m f) := by
  cases f with
  | element id => exact sameSubject_offer m v id
  | all => exact sameSubject_foldl (sameSubject_offer m) _ v
  | without id =>
    dsimp only [fill]
    split <;> exact ⟨rfl, rfl, rfl, rfl⟩

/-! ### Whole fillings -/

/-- A loop of turns that keep the lines of a static view those between its elements keeps
them so. -/
theorem Spans.foldl {ι : Type} {turn : View → ι → View}
    (same : ∀ (v : View) i, v.SameSubject (turn v i))
    (kept : ∀ (v : View) i, v.kind.isStatic → v.Spans m → (turn v i).Spans m) (l : List ι)
    (static : v.kind.isStatic) (spans : v.Spans m) : (l.foldl turn v).Spans m := by
  induction l generalizing v with
  | nil => exact spans
  | cons i rest ih =>
    have kind : (turn v i).kind = v.kind := (same v i).2.1
    exact ih (kind ▸ static) (kept v i static spans)

/-- Each way of filling a view leaves its lines those between what is shown. -/
theorem Spans.fill {next : Nat} (numbered : m.Numbered next) (nested : m.Nested)
    (static : v.kind.isStatic) (spans : v.Spans m) (f : Fill) : (v.fill m f).Spans m := by
  cases f with
  | element id => exact spans.offer numbered nested static id
  | all =>
    exact .foldl (sameSubject_offer m)
      (fun w id static spans => spans.offer numbered nested static id) _ static spans
  | without id =>
    dsimp only [View.fill]
    split
    · exact spans.excludeElement id
    · exact spans

/-! ### What the calls bring -/

/-- What comes into the view when an element is offered to it. -/
def Offers (m : Model) (v : View) (id x : ElementId) : Prop :=
  v.check m id = .ok () ∧ (x = id ∨ v.kind = .deployment ∧ x ∈ m.ancestors id)

/-- What a call brings into the view, whatever the view shows. -/
def Brings (m : Model) (v : View) (f : Fill) (x : ElementId) : Prop :=
  match f with
  | .element id => v.Offers m id x
  | .all => ∃ id ∈ v.defaultElements m, v.Offers m id x
  | .without _ => False

theorem SameSubject.offers_iff (same : v.SameSubject v') :
    v'.Offers m id x ↔ v.Offers m id x := by
  unfold Offers
  rw [same.check_eq, same.2.1]

theorem SameSubject.brings_iff (same : v.SameSubject v') (f : Fill) :
    v'.Brings m f x ↔ v.Brings m f x := by
  cases f with
  | element id => exact same.offers_iff
  | all => simp only [Brings, same.defaultElements_eq, same.offers_iff]
  | without id => exact Iff.rfl

/-- An offer adds what it brings, and that is nothing where the view does not accept the
element. -/
theorem mem_offer (nested : m.Nested) :
    x ∈ (v.offer m id).elements ↔ x ∈ v.elements ∨ v.Offers m id x := by
  unfold offer Offers
  split
  case h_1 accepted =>
    rw [elements_withElement nested, List.mem_append, mem_newElements]
    by_cases shown : x ∈ v.elements <;> simp [shown, accepted]
  case h_2 refused => simp [refused]

/-- What a loop shows at its end is what was shown before it and what its turns bring. -/
theorem mem_foldl {ι : Type} {turn : View → ι → View} {brings : View → ι → ElementId → Prop}
    {l : List ι} (same : ∀ (v : View) i, v.SameSubject (turn v i))
    (brings_iff : ∀ {v v' : View} {i x}, v.SameSubject v' → (brings v' i x ↔ brings v i x))
    (mem_turn : ∀ v : View, ∀ i ∈ l, ∀ x, x ∈ (turn v i).elements ↔ x ∈ v.elements ∨ brings v i x) :
    x ∈ (l.foldl turn v).elements ↔ x ∈ v.elements ∨ ∃ i ∈ l, brings v i x := by
  induction l generalizing v with
  | nil => simp
  | cons i rest ih =>
    rw [List.foldl_cons, ih fun v j listed => mem_turn v j (List.mem_cons_of_mem i listed),
      mem_turn v i (List.mem_cons_self ..)]
    simp only [brings_iff (same v i), List.mem_cons, or_assoc, exists_eq_or_imp]

/-- Filling adds what the turn brings, whatever the view has shown before. -/
theorem mem_fill (nested : m.Nested) {f : Fill} (brings : ∀ id, f ≠ .without id) :
    x ∈ (v.fill m f).elements ↔ x ∈ v.elements ∨ v.Brings m f x := by
  cases f with
  | element id => exact mem_offer nested
  | all =>
    exact mem_foldl (sameSubject_offer m) SameSubject.offers_iff
      fun v id _ x => mem_offer nested
  | without id => exact absurd rfl (brings id)

/-- Without exclusions the elements of a view are those that the calls bring. -/
theorem mem_foldl_fill (nested : m.Nested) {fills : List Fill}
    (brings : ∀ id, .without id ∉ fills) :
    x ∈ (fills.foldl (fill m) v).elements ↔ x ∈ v.elements ∨ ∃ f ∈ fills, v.Brings m f x := by
  refine mem_foldl (sameSubject_fill m) (fun same => same.brings_iff _) ?_
  rintro v f listed x
  refine mem_fill nested ?_
  rintro id rfl
  exact brings id listed

end View

namespace Builder

variable {b b' : Builder} {key : String} {m : Model} {v v' : View} {id : ElementId}

/-! ### Changing a view again and again -/

/-- Of two views that are put under one key the later one stays. -/
theorem putView_putView (b : Builder) (key : String) (v v' : View) :
    (b.putView key v).putView key v' = b.putView key v' := by
  have later : putKeyed Prod.fst (key, v') (putKeyed Prod.fst (key, v) b.views.entries) =
      putKeyed Prod.fst (key, v') b.views.entries :=
    putKeyed_putKeyed (x := (key, v')) (y := (key, v)) rfl _
  simp only [putView, ViewSet.put, later]

/-- A loop whose turns each put a view in its own place puts what the turns make of it. -/
theorem forM_eq_putView {ι : Type} {turn : ι → Change Builder PUnit} {f : View → ι → View}
    {l : List ι} (found : b.view key = .ok v)
    (same : ∀ (w : View) i, w.SameSubject (f w i))
    (each : ∀ i ∈ l, ∀ b' w, b'.model = b.model → b'.view key = .ok w → v.SameSubject w →
      turn i b' = .ok () (b'.putView key (f w i))) :
    l.forM turn b = .ok () (b.putView key (l.foldl f v)) := by
  induction l generalizing b v with
  | nil =>
    rw [List.foldl_nil, putView_found found]
    rfl
  | cons i rest ih =>
    have first := each i (List.mem_cons_self ..) b v rfl found (.refl v)
    have later := ih (view_putView_self ..) fun j listed b' w model found_w same_w =>
      each j (List.mem_cons_of_mem i listed) b' w model found_w ((same v i).trans same_w)
    rw [putView_putView] at later
    exact bind_eq_ok.mpr ⟨(), _, first, later⟩

/-! ### Offering elements -/

theorem checkViewElement_of_found (found : b.view key = .ok v) (id : ElementId) :
    b.checkViewElement key id = v.check b.model id := by
  simp [checkViewElement, found]

/-- An element that the view accepts is drawn as it is offered. -/
theorem includeElement_of_accepted (found : b.view key = .ok v)
    (accepted : v.check b.model id = .ok ()) :
    includeElement key id b = .ok () (b.putView key (v.offer b.model id)) := by
  have checked := (checkViewElement_of_found found id).trans accepted
  rw [View.offer_of_accepted accepted]
  exact ask_bind_eq_ok.mpr ⟨(), checked, insertViewElement_eq found id true⟩

theorem includeElement_of_refused (found : b.view key = .ok v) {e : ModelError}
    (refused : v.check b.model id = .error e) : includeElement key id b = .error e b :=
  bind_eq_error.mpr (.inl (ask_eq_error.mpr
    ⟨(checkViewElement_of_found found id).trans refused, rfl⟩))

/-- What an offer that is not insisted on does: it is passed over where it is refused. -/
theorem ifAccepted_eq_putView {c : Change Builder Unit} (found : b.view key = .ok v)
    (accepted : v.check b.model id = .ok () →
      c b = .ok () (b.putView key (v.offer b.model id))) :
    (get >>= fun b : Builder => if b.canInclude key id then c else return ()) b =
      .ok () (b.putView key (v.offer b.model id)) := by
  refine bind_eq_ok.mpr ⟨b, b, get_eq_ok.mpr ⟨rfl, rfl⟩, ?_⟩
  cases answer : v.check b.model id with
  | ok =>
    rw [if_pos (canInclude_iff.mpr ((checkViewElement_of_found found id).trans answer))]
    exact accepted answer
  | error e =>
    have refused : ¬ b.canInclude key id := by
      rw [canInclude_iff, checkViewElement_of_found found, answer]
      simp
    rw [if_neg refused, View.offer_of_refused answer, putView_found found]
    rfl

/-- The default elements are offered one by one; none of them is refused with an error. -/
theorem includeDefault_eq (found : b.view key = .ok v) (static : v.kind ≠ .dynamic) :
    includeDefault key b =
      .ok () (b.putView key ((v.defaultElements b.model).foldl (View.offer b.model) v)) := by
  have asked : b.defaultElements key = .ok (v.defaultElements b.model) := by
    simp [defaultElements, found, static]
  refine ask_bind_eq_ok.mpr ⟨_, asked, ?_⟩
  refine forM_eq_putView found (View.sameSubject_offer b.model) ?_
  intro id _ b' w model found_w _
  rw [← model]
  refine ifAccepted_eq_putView found_w fun accepted => ?_
  rw [insertViewElement_eq found_w, View.offer_of_accepted accepted]

/-! ### Calls on a view -/

/-- The builder has the model, and the view under the key. -/
structure HasDrawn (b : Builder) (m : Model) (key : String) (v : View) : Prop where
  model : b.model = m
  found : b.view key = .ok v

theorem HasDrawn.putView (drawn : b.HasDrawn m key v) (v' : View) :
    (b.putView key v').HasDrawn m key v' where
  model := drawn.model
  found := view_putView_self ..

/-- Including an element draws what is offered, also where it is refused: then the view stays.
-/
theorem after_includeElement (drawn : b.HasDrawn m key v) (id : ElementId) :
    ((includeElement key id).after b).HasDrawn m key (v.offer m id) := by
  obtain ⟨rfl, found⟩ := drawn
  cases answer : v.check b.model id with
  | ok =>
    rw [after_of_ok (includeElement_of_accepted found answer)]
    exact HasDrawn.putView ⟨rfl, found⟩ _
  | error e =>
    rw [after_of_error (includeElement_of_refused found answer), View.offer_of_refused answer]
    exact ⟨rfl, found⟩

/-- Including the default elements draws all of them that the view accepts. -/
theorem after_includeDefault (drawn : b.HasDrawn m key v) (static : v.kind ≠ .dynamic) :
    ((includeDefault key).after b).HasDrawn m key (v.fill m .all) := by
  obtain ⟨rfl, found⟩ := drawn
  rw [after_of_ok (includeDefault_eq found static)]
  exact HasDrawn.putView ⟨rfl, found⟩ _

/-- Excluding an element draws the view without it, also where it is not shown. -/
theorem after_excludeElement (drawn : b.HasDrawn m key v) (id : ElementId) :
    ((excludeElement key id).after b).HasDrawn m key (v.fill m (.without id)) := by
  obtain ⟨rfl, found⟩ := drawn
  dsimp only [View.fill]
  cases known : b.model.element? id with
  | some e =>
    have done : excludeElement key id b = .ok () (b.putView key (v.excludeElement id)) :=
      ask_bind_eq_ok.mpr ⟨e, element_eq_ok.mpr known, editView_eq found⟩
    rw [after_of_ok done]
    exact HasDrawn.putView ⟨rfl, found⟩ _
  | none =>
    have refused : excludeElement key id b = .error (.unknownElement id.index) b :=
      bind_eq_error.mpr (.inl (ask_eq_error.mpr ⟨by simp [element, known], rfl⟩))
    rw [after_of_error refused]
    exact ⟨rfl, found⟩

/-- A filling call fills the view, or is refused and leaves it as it is. -/
theorem after_fill (drawn : b.HasDrawn m key v) (static : v.kind ≠ .dynamic) (f : Fill) :
    ((f.call key).perform.after b).HasDrawn m key (v.fill m f) := by
  cases f with
  | element id => exact after_includeElement drawn id
  | all => exact after_includeDefault drawn static
  | without id => exact after_excludeElement drawn id

/-- Filling calls, refused or not, fill the view one after the other. -/
theorem run_fill (drawn : b.HasDrawn m key v) (static : v.kind ≠ .dynamic) (fills : List Fill) :
    (b.run (fills.map (Fill.call key))).HasDrawn m key (fills.foldl (View.fill m) v) := by
  induction fills generalizing b v with
  | nil => exact drawn
  | cons f rest ih =>
    have kind : (v.fill m f).kind = v.kind := (View.sameSubject_fill m v f).2.1
    exact ih (after_fill drawn static f) (kind ▸ static)

/-- A view that has just been declared shows nothing. -/
theorem hasDrawn_addView {kind : ViewKind} {chosen : Option String} {scope : Option ElementId}
    {environment : Option String}
    (declared : addView kind chosen scope environment b = .ok key b') :
    b'.HasDrawn b.model key { key, kind, scope, environment } := by
  obtain ⟨-, b₁, chose, rfl⟩ := addView_eq_ok.mp declared
  have generated : ∀ b : Builder, Same (·.model) b (b.generateKey kind).2 := fun _ => rfl
  exact ⟨moves_chooseKey generated chosen b key b₁ chose, view_putView_self ..⟩

/-! ### Every filling -/

/-- **A static view shows what its elements induce.**  However a view that has just been
declared is filled with elements, one by one or by default, and elements are taken out of
it, by calls that succeed or are refused: it shows the relationships of the model between
its elements, each once.  And where nothing is taken out, the same calls in another order
end with the same elements and lines. -/
theorem induced_of_filling (reachable : Reachable b) {kind : ViewKind}
    (static : kind ≠ .dynamic) {chosen : Option String} {scope : Option ElementId}
    {environment : Option String}
    (declared : addView kind chosen scope environment b = .ok key b') :
    (∀ fills : List Fill, ∃ v, (b'.run (fills.map (Fill.call key))).view key = .ok v ∧
      (b'.run (fills.map (Fill.call key))).model = b.model ∧
        v.lines.Perm (v.induced b.model)) ∧
    ∀ fills fills' : List Fill, fills.Perm fills' → (∀ id, .without id ∉ fills) →
      ∃ v v', (b'.run (fills.map (Fill.call key))).view key = .ok v ∧
        (b'.run (fills'.map (Fill.call key))).view key = .ok v' ∧
          (∀ id, id ∈ v.elements ↔ id ∈ v'.elements) ∧ ∀ l, l ∈ v.lines ↔ l ∈ v'.lines := by
  have numbered := reachable.grown.numbered
  have nested := reachable.grown.nested
  let start : View := { key, kind, scope, environment }
  have blank : start.Spans b.model := by
    intro l
    simp [start, View.mem_induced]
  have spans : ∀ fills : List Fill, (fills.foldl (View.fill b.model) start).Spans b.model :=
    fun fills => .foldl (View.sameSubject_fill b.model)
      (fun v f static spans => spans.fill numbered nested static f) fills
      (View.isStatic_of_not_dynamic static) blank
  have drawn : ∀ fills : List Fill, (b'.run (fills.map (Fill.call key))).HasDrawn b.model key
      (fills.foldl (View.fill b.model) start) :=
    run_fill (hasDrawn_addView declared) static
  constructor
  · intro fills
    obtain ⟨model, found⟩ := drawn fills
    refine ⟨_, found, model, ?_⟩
    have reachable' : Reachable (b'.run (fills.map (Fill.call key))) :=
      (reachable.leads (.of_ok (.addView kind chosen scope environment) declared)).leads
        (leads_iff.mpr ⟨_, rfl⟩)
    have sound := reachable'.drawn.sound _ (mem_of_view found)
    have kind_eq := (View.sameSubject_foldl (View.sameSubject_fill b.model) fills start).2.1
    have once := sound.once (kind_eq ▸ View.isStatic_of_not_dynamic static)
    exact (List.perm_ext_iff_of_nodup (.of_map _ once) (View.nodup_induced numbered)).mpr
      (spans fills)
  · intro fills fills' reordered brings
    have brings' : ∀ id, .without id ∉ fills' := fun id listed =>
      brings id (reordered.mem_iff.mpr listed)
    have elements : ∀ x, x ∈ (fills.foldl (View.fill b.model) start).elements ↔
        x ∈ (fills'.foldl (View.fill b.model) start).elements := by
      intro x
      rw [View.mem_foldl_fill nested brings, View.mem_foldl_fill nested brings']
      simp only [reordered.mem_iff]
    refine ⟨_, _, (drawn fills).found, (drawn fills').found, elements, fun l => ?_⟩
    rw [spans fills, spans fills', View.mem_induced, View.mem_induced]
    simp only [elements]

/-- A view of the inside of the shop shows the two relationships of the web application, also
when the store was out in between, and its two containers can come in either way round. -/
theorem filling_of_shop :
    ∃ b, addView .container (some "Inside") (some ⟨1⟩) none shop = .ok "Inside" b ∧
      (∃ v, (b.run ([.all, .without ⟨6⟩, .element ⟨6⟩].map (Fill.call "Inside"))).view "Inside" =
        .ok v ∧ v.lines.length = 2 ∧ v.lines.Perm (v.induced shop.model)) ∧
      ∃ v v', (b.run ([.element ⟨2⟩, .element ⟨6⟩].map (Fill.call "Inside"))).view "Inside" =
          .ok v ∧
        (b.run ([.element ⟨6⟩, .element ⟨2⟩].map (Fill.call "Inside"))).view "Inside" = .ok v' ∧
          (∀ id, id ∈ v.elements ↔ id ∈ v'.elements) ∧ ∀ l, l ∈ v.lines ↔ l ∈ v'.lines := by
  let declare := addView .container (some "Inside") (some ⟨1⟩) none
  have declared : declare shop = .ok "Inside" (declare.after shop) :=
    answer_eq_ok.mp (by decide +kernel)
  obtain ⟨induced, order⟩ := induced_of_filling reachable_shop (by decide) declared
  have two : ((((declare.after shop).run
      ([.all, .without ⟨6⟩, .element ⟨6⟩].map (Fill.call "Inside"))).view "Inside").map
        (·.lines.length)).toOption = some 2 := by decide +kernel
  obtain ⟨v, found, -, perm⟩ := induced [.all, .without ⟨6⟩, .element ⟨6⟩]
  rw [found] at two
  exact ⟨_, declared, ⟨v, found, Option.some.inj two, perm⟩,
    order _ _ (.swap _ _ _) (by simp)⟩

end Builder

end Edifice
