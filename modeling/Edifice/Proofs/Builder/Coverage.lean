import Edifice.Proofs.Builder.Inclusions

/-!
The relationships that come in with an element.

An element that comes into a static view brings in what relates it to the elements shown; one
that is shown already brings in nothing of its own, though in a deployment view nodes around
it may come in.  So after an inclusion the relationships of the element are all shown if it is
new, and else those that were (`View.showsRelationship_withElement`).  As long as a view is
filled with elements only, all relationships between what it shows are shown (`View.Covers`).
-/

open Edifice.Change

namespace Edifice

namespace View

variable {m : Model} {v : View} {id : ElementId} {r : Relationship}

/-- The relationship has the element at one end at least. -/
def Involves (r : Relationship) (id : ElementId) : Prop :=
  r.source = id ∨ r.destination = id

/-- The view shows all relationships between the elements that it shows. -/
def Covers (m : Model) (v : View) : Prop :=
  ∀ r ∈ m.relationships, r.source ∈ v.elements → r.destination ∈ v.elements →
    v.showsRelationship r.id

theorem showsRelationship_iff {r : RelationshipId} :
    v.showsRelationship r ↔ ∃ l ∈ v.lines, l.relationship = r := by
  simp [showsRelationship]

/-! ### One element -/

theorem lines_withElement (static : v.kind.isStatic) (id : ElementId) :
    (v.withElement m id true).lines = v.lines ++ v.newLines m (v.newElements m id) := by
  simp [withElement, static]

/-- What is shown stays shown. -/
theorem shows_of_shown (static : v.kind.isStatic) {r : RelationshipId}
    (shown : v.showsRelationship r) : (v.withElement m id true).showsRelationship r := by
  obtain ⟨l, member, own⟩ := showsRelationship_iff.mp shown
  rw [showsRelationship_iff, lines_withElement static]
  exact ⟨l, List.mem_append_left _ member, own⟩

/-- What relates two elements that are shown with the new ones, of which one is new, comes in
unless it is shown. -/
theorem shows_of_new (nested : m.Nested) (static : v.kind.isStatic) (listed : r ∈ m.relationships)
    (source : r.source ∈ (v.withElement m id true).elements)
    (destination : r.destination ∈ (v.withElement m id true).elements)
    (new : r.source ∈ v.newElements m id ∨ r.destination ∈ v.newElements m id) :
    (v.withElement m id true).showsRelationship r.id := by
  cases shown : v.showsRelationship r.id with
  | true => exact shows_of_shown static shown
  | false =>
    rw [elements_withElement nested, List.mem_append] at source destination
    rw [showsRelationship_iff, lines_withElement static]
    refine ⟨.ofRelationship r, List.mem_append_right _ ?_, rfl⟩
    exact mem_newLines.mpr ⟨r, listed, source, destination, new, shown, rfl⟩

/-- An element that is shown already brings in nothing that it has an end of: what comes in
with it is around it, and nothing relates it to that. -/
theorem shown_of_shows {next : Nat} (numbered : m.Numbered next) (related : m.Related)
    (static : v.kind.isStatic) (here : id ∈ v.elements) (listed : r ∈ m.relationships)
    (involves : Involves r id) (shows : (v.withElement m id true).showsRelationship r.id) :
    v.showsRelationship r.id := by
  rw [showsRelationship_iff, lines_withElement static] at shows
  obtain ⟨l, member, own⟩ := shows
  rcases List.mem_append.mp member with member | member
  · exact showsRelationship_iff.mpr ⟨l, member, own⟩
  · obtain ⟨r', listed', -, -, new, -, rfl⟩ := mem_newLines.mp member
    obtain rfl := numbered.relationship_eq_of_id listed' listed own
    have relatable := related r' listed
    have around : ∀ x, x ∈ v.newElements m id → x ≠ id ∧ m.isAncestor x id = true := by
      intro x new
      obtain ⟨rfl | ⟨-, above⟩, absent⟩ := mem_newElements.mp new
      · exact absurd here absent
      · exact ⟨fun same => absent (same ▸ here), Model.isAncestor_iff.mpr above⟩
    rcases new with new | new
    · obtain ⟨other, above⟩ := around _ new
      rcases involves with rfl | rfl
      · exact absurd rfl other
      · cases above.symm.trans relatable.not_around
    · obtain ⟨other, above⟩ := around _ new
      rcases involves with rfl | rfl
      · cases above.symm.trans relatable.not_inside
      · exact absurd rfl other

/-- A relationship between an element that is included and one that is shown is shown if the
element is new or the relationship was shown. -/
theorem showsRelationship_withElement {next : Nat} (numbered : m.Numbered next)
    (nested : m.Nested) (related : m.Related) (static : v.kind.isStatic)
    (listed : r ∈ m.relationships) (involves : Involves r id)
    (source : r.source ∈ (v.withElement m id true).elements)
    (destination : r.destination ∈ (v.withElement m id true).elements) :
    (v.withElement m id true).showsRelationship r.id ↔
      id ∉ v.elements ∨ v.showsRelationship r.id := by
  constructor
  · intro shows
    by_cases here : id ∈ v.elements
    · exact .inr (shown_of_shows numbered related static here listed involves shows)
    · exact .inl here
  · rintro (absent | shown)
    · have new : id ∈ v.newElements m id := mem_newElements.mpr ⟨.inl rfl, absent⟩
      exact shows_of_new nested static listed source destination
        (by rcases involves with rfl | rfl <;> simp [new])
    · exact shows_of_shown static shown

/-! ### Views that are filled with elements -/

/-- An element that is inserted with its lines brings those between itself and what is shown,
so that none is missing. -/
theorem Covers.withElement (nested : m.Nested) (static : v.kind.isStatic) (covers : v.Covers m)
    (id : ElementId) : (v.withElement m id true).Covers m := by
  intro r listed source destination
  by_cases new : r.source ∈ v.newElements m id ∨ r.destination ∈ v.newElements m id
  · exact shows_of_new nested static listed source destination new
  · rw [elements_withElement nested, List.mem_append] at source destination
    obtain ⟨old_source, old_destination⟩ := not_or.mp new
    exact shows_of_shown static (covers r listed (source.resolve_right old_source)
      (destination.resolve_right old_destination))

/-- Accepted or not, an element that is offered leaves no line out. -/
theorem Covers.offer (nested : m.Nested) (static : v.kind.isStatic) (covers : v.Covers m)
    (id : ElementId) : (v.offer m id).Covers m := by
  unfold View.offer
  split
  · exact covers.withElement nested static id
  · exact covers

/-- An element that goes out takes along none but its own lines. -/
theorem Covers.excludeElement {next : Nat} (numbered : m.Numbered next) (sound : v.Sound m)
    (covers : v.Covers m) (id : ElementId) : (v.excludeElement id).Covers m := by
  intro r listed source destination
  obtain ⟨source, source_other⟩ := List.mem_filter.mp source
  obtain ⟨destination, destination_other⟩ := List.mem_filter.mp destination
  rw [bne_iff_ne] at source_other destination_other
  obtain ⟨l, member, own⟩ := showsRelationship_iff.mp (covers r listed source destination)
  obtain ⟨r', listed', own', ends⟩ := sound.shows l member
  obtain rfl := numbered.relationship_eq_of_id listed' listed (own'.trans own)
  refine showsRelationship_iff.mpr ⟨l, List.mem_filter.mpr ⟨member, ?_⟩, own⟩
  split at ends
  all_goals
    obtain ⟨first, second⟩ := Prod.mk.inj ends
    simp [ViewLine.touches, first, second, source_other, destination_other]

/-- No way of filling a view leaves out a line between two elements that it shows: old pairs
are covered already, and each new pair has a new element in it. -/
theorem Covers.fill {next : Nat} (numbered : m.Numbered next) (nested : m.Nested)
    (sound : v.Sound m) (static : v.kind.isStatic) (covers : v.Covers m) (f : Fill) :
    (v.fill m f).Covers m := by
  cases f with
  | element id => exact covers.offer nested static id
  | all =>
    have kept : ∀ ids : List ElementId, (ids.foldl (View.offer m) v).Covers m := by
      intro ids
      refine (List.foldlRecOn (motive := fun w => w.kind.isStatic ∧ w.Covers m) ids
        (View.offer m) ⟨static, covers⟩ fun w kept id _ => ?_).2
      exact ⟨(sameSubject_offer m w id).2.1 ▸ kept.1, kept.2.offer nested kept.1 id⟩
    exact kept _
  | without id =>
    dsimp only [View.fill]
    split
    · exact covers.excludeElement numbered sound id
    · exact covers

end View

namespace Builder

variable {b b' : Builder} {key : String} {v : View} {id : ElementId}

/-- An inclusion is refused unless the view accepts the element, and shows it then. -/
theorem includeElement_eq_ok (found : b.view key = .ok v) :
    includeElement key id b = .ok () b' ↔
      b.checkViewElement key id = .ok () ∧ b' = b.putView key (v.withElement b.model id true) := by
  constructor
  · intro done
    obtain ⟨_, accepted, inserted⟩ := ask_bind_eq_ok.mp done
    have shown := insertViewElement_eq found id true
    exact ⟨accepted, (EStateM.Result.ok.inj (inserted.symm.trans shown)).2⟩
  · rintro ⟨accepted, rfl⟩
    rw [checkViewElement_of_found found] at accepted
    rw [includeElement_of_accepted found accepted, View.offer_of_accepted accepted]

/-- A view that is filled with elements covers what it covered. -/
theorem covers_run_fill (reachable : b.Reachable) (found : b.view key = .ok v)
    (static : v.kind ≠ .dynamic) (covers : v.Covers b.model) (fills : List Fill) :
    ∃ w, (b.run (fills.map (Fill.call key))).view key = .ok w ∧ w.Covers b.model := by
  induction fills generalizing b v with
  | nil => exact ⟨v, found, covers⟩
  | cons f rest ih =>
    have grown := reachable.grown
    have drawn : (((f.call key).perform).after b).HasDrawn b.model key (v.fill b.model f) :=
      after_fill ⟨rfl, found⟩ static f
    have sound := reachable.drawn.sound v (mem_of_view found)
    have filled := covers.fill grown.numbered grown.nested sound
      (View.isStatic_of_not_dynamic static) f
    have kind : (v.fill b.model f).kind = v.kind := (View.sameSubject_fill b.model v f).2.1
    have later := ih (reachable.leads (.call .refl (f.call key))) drawn.found (kind ▸ static)
      (drawn.model.symm ▸ filled)
    rwa [drawn.model] at later

/-- **An element that comes into a static view brings in its relationships.**  In a reachable
builder the inclusion of an element is refused unless the view accepts the element.  After it
the element is shown, and a relationship between it and an element that the view shows then is
shown exactly if the element was not shown before or the relationship was.  So all of them are
shown if the element is new, and wherever the view showed all relationships between its
elements; and that the view does as long as it is filled with elements, and elements are taken
out of it, if it did so at first. -/
theorem new_elements_bring_relationships (reachable : b.Reachable)
    (found : b.view key = .ok v) (static : v.kind ≠ .dynamic) :
    (∀ id, ∃ v',
      (∀ b', includeElement key id b = .ok () b' ↔
        b.checkViewElement key id = .ok () ∧ b' = b.putView key v') ∧
      (b.putView key v').view key = .ok v' ∧ id ∈ v'.elements ∧
      ∀ r ∈ b.model.relationships, View.Involves r id → r.source ∈ v'.elements →
        r.destination ∈ v'.elements →
          (v'.showsRelationship r.id ↔ id ∉ v.elements ∨ v.showsRelationship r.id)) ∧
    (v.Covers b.model → ∀ fills : List Fill,
      ∃ w, (b.run (fills.map (Fill.call key))).view key = .ok w ∧ w.Covers b.model) := by
  have grown := reachable.grown
  refine ⟨fun id => ?_, covers_run_fill reachable found static⟩
  refine ⟨v.withElement b.model id true, fun b' => includeElement_eq_ok found,
    view_putView_self .., ?_,
    fun r listed involves source destination => ?_⟩
  · exact (View.widens_withElement grown.nested v id true).mem_iff.mpr (.inr (.inl rfl))
  · exact View.showsRelationship_withElement grown.numbered grown.nested grown.related
      (View.isStatic_of_not_dynamic static) listed involves source destination

/-- A view of the inside of the shop that shows the web application. -/
def webOnly : Builder :=
  shop.run [.addView .container (some "Inside") (some ⟨1⟩) none, .includeElement "Inside" ⟨2⟩]

/-- The customer brings in that it uses the web application. -/
theorem inclusion_of_customer :
    ∃ v v', webOnly.view "Inside" = .ok v ∧ v.lines = [] ∧
      includeElement "Inside" ⟨3⟩ webOnly = .ok () (webOnly.putView "Inside" v') ∧
      v'.elements = [⟨2⟩, ⟨3⟩] ∧ v'.showsRelationship ⟨4⟩ ∧
      ∃ w, (webOnly.run ([.all, .without ⟨3⟩].map (Fill.call "Inside"))).view "Inside" = .ok w ∧
        w.Covers webOnly.model := by
  let include_ := includeElement "Inside" ⟨3⟩
  have shown : (do
      let v ← (webOnly.view "Inside").toOption
      let done ← (include_.answer webOnly).toOption
      let w ← ((include_.after webOnly).view "Inside").toOption
      return (done, v.kind, v.elements, v.lines, w.elements)) =
      some ((), .container, [⟨2⟩], [], [⟨2⟩, ⟨3⟩]) := by decide +kernel
  simp only [Option.bind_eq_bind, Option.bind_eq_some_iff, Check.toOption_eq_some, Option.pure_def,
    Option.some.injEq, Prod.mk.injEq] at shown
  obtain ⟨v, found, _, done, w, found', -, kind, elements, lines, elements'⟩ := shown
  have reachable : webOnly.Reachable := reachable_shop.leads (leads_iff.mpr ⟨_, rfl⟩)
  obtain ⟨brings, covered⟩ := new_elements_bring_relationships reachable found (by simp [kind])
  obtain ⟨v', included, found_after, -, shows⟩ := brings ⟨3⟩
  obtain ⟨-, after⟩ := (included _).mp (answer_eq_ok.mp done)
  rw [after] at found'
  obtain rfl : w = v' := Except.ok.inj (found'.symm.trans found_after)
  have uses : ∃ r ∈ webOnly.model.relationships,
      r.id = ⟨4⟩ ∧ r.source = ⟨3⟩ ∧ r.destination = ⟨2⟩ := by decide +kernel
  have alone : ∀ r ∈ webOnly.model.relationships, ¬ (r.source = ⟨2⟩ ∧ r.destination = ⟨2⟩) := by
    decide +kernel
  obtain ⟨r, listed, own, source, destination⟩ := uses
  have covers : v.Covers webOnly.model := by
    intro r listed source destination
    rw [elements, List.mem_singleton] at source destination
    exact absurd ⟨source, destination⟩ (alone r listed)
  refine ⟨v, w, found, lines, after ▸ answer_eq_ok.mp done, elements', ?_,
    covered covers _⟩
  rw [← own]
  refine (shows r listed (.inl source) ?_ ?_).mpr (.inl ?_)
  · simp [source, elements']
  · simp [destination, elements']
  · simp [elements]

/-- Two systems with two relationships, of which a view shows one. -/
def halfShown : Builder :=
  (new "Pair" "").run [
    .addSoftwareSystem "A" none, .addSoftwareSystem "B" none, .addRelationship ⟨1⟩ ⟨2⟩ "Asks" "",
    .addRelationship ⟨1⟩ ⟨2⟩ "Tells" "", .addView .systemLandscape (some "Map") none none,
    .includeRelationship "Map" ⟨3⟩]

/-- An element that is shown already does not bring in what relates it to the others. -/
theorem shown_elements_bring_nothing :
    ¬ ∀ b key v id b' v', Reachable b → b.view key = .ok v → v.kind ≠ .dynamic →
      includeElement key id b = .ok () b' → b'.view key = .ok v' →
        ∀ r ∈ b.model.relationships, View.Involves r id → r.source ∈ v'.elements →
          r.destination ∈ v'.elements → v'.showsRelationship r.id := by
  intro always
  let include_ := includeElement "Map" ⟨1⟩
  have shown : (do
      let v ← (halfShown.view "Map").toOption
      let done ← (include_.answer halfShown).toOption
      let w ← ((include_.after halfShown).view "Map").toOption
      return (done, v.kind, w.elements, w.showsRelationship ⟨4⟩)) =
      some ((), .systemLandscape, [⟨1⟩, ⟨2⟩], false) := by decide +kernel
  simp only [Option.bind_eq_bind, Option.bind_eq_some_iff, Check.toOption_eq_some, Option.pure_def,
    Option.some.injEq, Prod.mk.injEq] at shown
  obtain ⟨v, found, _, done, w, found', -, kind, elements, missing⟩ := shown
  have tells : ∃ r ∈ halfShown.model.relationships,
      r.id = ⟨4⟩ ∧ r.source = ⟨1⟩ ∧ r.destination = ⟨2⟩ := by decide +kernel
  obtain ⟨r, listed, own, source, destination⟩ := tells
  have reachable : halfShown.Reachable := ⟨"Pair", "", leads_iff.mpr ⟨_, rfl⟩⟩
  have shows := always halfShown "Map" v ⟨1⟩ _ w reachable found (by simp [kind])
    (answer_eq_ok.mp done) found' r listed (.inl source) (by simp [source, elements])
    (by simp [destination, elements])
  rw [own, missing] at shows
  cases shows

end Builder

end Edifice
