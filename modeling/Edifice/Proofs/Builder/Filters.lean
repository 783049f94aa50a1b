import Edifice.Proofs.Builder.Inclusions

/-!
Including relationships by a filter.

A filter that is included stands for relationships between elements that are shown
(`View.Picks`).  Each of them is drawn with its ends (`View.withRelated`): it gets a line unless
it has one, and what is around its ends comes into a deployment view again where it has been
taken out.  So the lines that are new are those of the relationships that the filter picks
(`View.lines_drawing`), and nothing but nodes around what is shown comes in
(`View.widens_drawing`).
-/

open Edifice.Change

namespace Edifice

def Selection.isRelationshipFilter : Selection → Bool
  | .relationshipTags .. | .allRelationships => true
  | _ => false

namespace View

variable {m : Model} {v : View} {s : Selection} {r : Relationship} {x : ElementId}

/-- The filter describes the relationship, and its ends are shown. -/
def Picks (v : View) (s : Selection) (r : Relationship) : Prop :=
  r.source ∈ v.elements ∧ r.destination ∈ v.elements ∧ s.DescribesRelationship r

instance (v : View) (s : Selection) : DecidablePred (v.Picks s) :=
  fun r => inferInstanceAs (Decidable
    (r.source ∈ v.elements ∧ r.destination ∈ v.elements ∧ s.DescribesRelationship r))

/-- The element is around an end of a relationship that the filter picks, in a deployment
view. -/
def Surrounds (m : Model) (v : View) (s : Selection) (x : ElementId) : Prop :=
  v.kind = .deployment ∧ ∃ r ∈ m.relationships,
    v.Picks s r ∧ (x ∈ m.ancestors r.source ∨ x ∈ m.ancestors r.destination)

/-! ### One relationship -/

def withRelated (m : Model) (v : View) (r : Relationship) : View :=
  ((v.withElement m r.source false).withElement m r.destination false).withRelationship r

theorem sameSubject_withRelated (m : Model) (v : View) (r : Relationship) :
    v.SameSubject (v.withRelated m r) := by
  unfold withRelated withRelationship
  split <;> exact ⟨rfl, rfl, rfl, rfl⟩

theorem elements_withRelationship (v : View) (r : Relationship) :
    (v.withRelationship r).elements = v.elements := by
  unfold withRelationship
  split <;> rfl

/-- Both ends come in with all that comes with them. -/
theorem widens_withRelated (nested : m.Nested) (v : View) (r : Relationship) :
    v.Widens m (fun x => v.ComesWith m r.source x ∨ v.ComesWith m r.destination x)
      (v.withRelated m r) := by
  have first := widens_withElement nested v r.source false
  have both := first.trans (encloses_comesWith nested)
    (widens_withElement nested (v.withElement m r.source false) r.destination false)
  exact ⟨sameSubject_withRelated m v r, (elements_withRelationship _ r).symm ▸ both.elements⟩

/-- A relationship that is drawn adds one line, and none where it is shown. -/
theorem lines_withRelated (m : Model) (v : View) (r : Relationship) :
    (v.withRelated m r).lines =
      if v.showsRelationship r.id then v.lines else v.lines ++ [.ofRelationship r] := by
  have ends : ((v.withElement m r.source false).withElement m r.destination false).lines =
      v.lines := by
    simp [withElement]
  have shown : ((v.withElement m r.source false).withElement m r.destination
      false).showsRelationship r.id = v.showsRelationship r.id := by
    simp [showsRelationship, ends]
  unfold withRelated withRelationship
  rw [shown]
  split
  · exact ends
  · rw [ends]

/-- After a relationship is drawn it is shown, and no other one that was not. -/
theorem showsRelationship_withRelated (m : Model) (v : View) (r : Relationship)
    (id : RelationshipId) :
    (v.withRelated m r).showsRelationship id = (v.showsRelationship id || r.id == id) := by
  have lines := lines_withRelated m v r
  by_cases shown : v.showsRelationship r.id
  · rw [if_pos shown] at lines
    have same : (v.withRelated m r).showsRelationship id = v.showsRelationship id := by
      rw [showsRelationship, lines, showsRelationship]
    by_cases own : r.id = id
    · rw [same, ← own, shown, Bool.true_or]
    · simp [same, own]
  · rw [if_neg shown] at lines
    simp [showsRelationship, lines, ViewLine.ofRelationship]

/-! ### One relationship after the other -/

/-- Of distinct relationships each gets a line unless it has one. -/
theorem lines_foldl_withRelated {rs : List Relationship} (once : (rs.map (·.id)).Nodup)
    (v : View) : (rs.foldl (withRelated m) v).lines =
      v.lines ++ (rs.filter fun r => !v.showsRelationship r.id).map .ofRelationship := by
  induction rs generalizing v with
  | nil => simp
  | cons r rest ih =>
    obtain ⟨new, once⟩ := List.nodup_cons.mp once
    -- The line of `r` shows none of the relationships after it.
    have others : ∀ r' ∈ rest,
        (!(v.withRelated m r).showsRelationship r'.id) = !v.showsRelationship r'.id := by
      intro r' listed
      have apart : r.id ≠ r'.id := fun same => new (List.mem_map.mpr ⟨r', listed, same.symm⟩)
      rw [showsRelationship_withRelated, beq_false_of_ne apart, Bool.or_false]
    rw [List.foldl_cons, ih once, List.filter_congr others, lines_withRelated]
    by_cases shown : v.showsRelationship r.id <;> simp [shown]

/-- The relationships that the filter picks, in the order of the model. -/
def picked (m : Model) (v : View) (s : Selection) : List Relationship :=
  m.relationships.filter fun r =>
    v.showsElement r.source && v.showsElement r.destination && s.picksRelationship r

/-- The relationships that a filter picks are found by one pass over the model. -/
theorem picked_eq (m : Model) (v : View) (s : Selection) :
    v.picked m s = m.relationships.filter fun r => v.Picks s r := by
  refine List.filter_congr fun r _ => Bool.eq_iff_iff.mpr ?_
  rw [decide_eq_true_iff]
  simp only [showsElement, Bool.and_eq_true, List.contains_iff_mem,
    Selection.picksRelationship_iff, Picks, and_assoc]

def drawing (m : Model) (v : View) (s : Selection) : View :=
  (v.picked m s).foldl (withRelated m) v

/-- The relationships that a filter picks get their lines in the order of the model, as no id
comes twice. -/
theorem lines_drawing {next : Nat} (numbered : m.Numbered next) :
    (v.drawing m s).lines = v.lines ++
      (m.relationships.filter fun r => v.Picks s r ∧ ¬ v.showsRelationship r.id).map
        .ofRelationship := by
  have once : ((v.picked m s).map (·.id)).Nodup :=
    numbered.nodup_relationships.sublist (List.filter_sublist.map _)
  rw [drawing, lines_foldl_withRelated once, picked_eq, List.filter_filter]
  congr 2
  refine List.filter_congr fun r _ => ?_
  simp [Bool.and_comm]

/-- What comes in is around what is shown. -/
theorem widens_drawing (nested : m.Nested) :
    v.Widens m (v.Surrounds m s) (v.drawing m s) := by
  have encloses : ∀ r ∈ v.picked m s,
      v.Encloses m fun x => v.ComesWith m r.source x ∨ v.ComesWith m r.destination x := by
    rintro r - deployment x (comes | comes) y above
    · exact .inl (encloses_comesWith nested deployment x comes y above)
    · exact .inr (encloses_comesWith nested deployment x comes y above)
  have widens : ∀ w : View, v.SameSubject w → ∀ r ∈ v.picked m s,
      w.Widens m (fun x => v.ComesWith m r.source x ∨ v.ComesWith m r.destination x)
        (w.withRelated m r) := by
    intro w same r _
    refine (widens_withRelated nested w r).congr fun x _ => ?_
    simp only [ComesWith, same.2.1]
  refine (widens_foldl encloses widens).congr fun x absent => ?_
  simp only [picked_eq, List.mem_filter, decide_eq_true_eq, and_assoc, Surrounds]
  constructor
  · rintro ⟨deployment, r, listed, picks, above | above⟩
    · exact ⟨r, listed, picks, .inl (.inr ⟨deployment, above⟩)⟩
    · exact ⟨r, listed, picks, .inr (.inr ⟨deployment, above⟩)⟩
  -- The ends themselves are shown.
  · rintro ⟨r, listed, picks, (rfl | ⟨deployment, above⟩) | rfl | ⟨deployment, above⟩⟩
    · exact absurd picks.1 absent
    · exact ⟨deployment, r, listed, picks, .inl above⟩
    · exact absurd picks.2.1 absent
    · exact ⟨deployment, r, listed, picks, .inr above⟩

end View

namespace Builder

variable {b : Builder} {key : String} {v : View} {s : Selection} {r : Relationship}

/-- Where both ends are accepted a relationship is drawn, with its ends where they are not
shown. -/
theorem includeRelationship_eq (found : b.view key = .ok v) (static : v.kind.isStatic)
    (listed : b.model.relationship? r.id = some r) (source : v.check b.model r.source = .ok ())
    (destination : v.check b.model r.destination = .ok ()) :
    includeRelationship key r.id b = .ok () (b.putView key (v.withRelated b.model r)) := by
  have checked : b.checkViewRelationship key r.id = .ok r :=
    checkViewRelationship_eq_ok.mpr ⟨v, found, static, listed, source, destination⟩
  let v₁ := v.withElement b.model r.source false
  let v₂ := v₁.withElement b.model r.destination false
  let v₃ := v.withRelated b.model r
  have first : insertViewElement key r.source false b = .ok () (b.putView key v₁) :=
    insertViewElement_eq found r.source false
  have second : insertViewElement key r.destination false (b.putView key v₁) =
      .ok () (b.putView key v₂) := by
    rw [← putView_putView b key v₁ v₂]
    exact insertViewElement_eq (view_putView_self ..) r.destination false
  have third : updateView key (·.withRelationship r) (b.putView key v₂) = .ok () (b.putView key v₃) := by
    rw [← putView_putView b key v₂ v₃]
    exact editView_eq (view_putView_self ..)
  exact ask_bind_eq_ok.mpr ⟨r, checked, bind_eq_ok.mpr ⟨(), _, first,
    bind_eq_ok.mpr ⟨(), _, second, third⟩⟩⟩

/-- In a static view that accepts what it shows a filter is never refused. -/
theorem includeSelection_of_filter (grown : b.Grown) (found : b.view key = .ok v)
    (static : v.kind ≠ .dynamic) (accepts : v.Accepts b.model)
    (filter : s.isRelationshipFilter) :
    includeSelection key s b = .ok () (b.putView key (v.drawing b.model s)) := by
  have asked : b.shownRelationships key s = .ok ((v.picked b.model s).map (·.id)) := by
    simp [shownRelationships, found, View.picked]
  have drawn : ((v.picked b.model s).map (·.id)).forM (includeRelationship key) b =
      .ok () (b.putView key (v.drawing b.model s)) := by
    have each : ((v.picked b.model s).map (·.id)).forM (includeRelationship key) =
        (v.picked b.model s).forM fun r => includeRelationship key r.id := List.forM_map
    rw [each]
    refine forM_eq_putView found (View.sameSubject_withRelated b.model) ?_
    intro r picked b' w model found_w same
    obtain ⟨listed, picks⟩ := List.mem_filter.mp (View.picked_eq b.model v s ▸ picked)
    obtain ⟨source, destination, -⟩ := of_decide_eq_true picks
    rw [← model]
    refine includeRelationship_eq found_w ?_ ?_ ?_ ?_
    · exact same.2.1 ▸ View.isStatic_of_not_dynamic static
    · exact model ▸ grown.numbered.relationship?_of_mem listed
    · rw [model, same.check_eq]
      exact accepts _ source
    · rw [model, same.check_eq]
      exact accepts _ destination
  refine bind_eq_ok.mpr ⟨b, b, get_eq_ok.mpr ⟨rfl, rfl⟩, ?_⟩
  cases s with
  | relationshipTags | allRelationships =>
    exact ask_bind_eq_ok.mpr ⟨_, asked, drawn⟩
  | _ => cases filter

end Builder

end Edifice
