import Edifice.Proofs.Builder.Inclusions

/-!
Excluding what selections match.

An exclusion looks once at what the view shows and then takes elements and lines out one by
one, and an element that goes out takes its lines along.  A view shows every relationship on
one line and lines only between its elements (`View.Sound`), so the single steps come down to
one filter (`View.without`), and exclusions that follow one another to one filter as well.
-/

open Edifice.Change

namespace Edifice

namespace View

variable {m : Model} {v : View} {s : Selection}

/-- The view without the elements that the selections match, and without the lines that they
match or that touch such an element. -/
def without (m : Model) (v : View) (out : List Selection) : View :=
  { v with
    elements := v.elements.filter fun id => ∀ s ∈ out, ¬ s.Matches m id
    lines := v.lines.filter fun l => ∀ s ∈ out,
      ¬ s.Matches m l.source ∧ ¬ s.Matches m l.destination ∧ ¬ s.MatchesLine m l }

/-! ### Filters one after the other -/

theorem without_nil : v.without m [] = v := by
  simp [without]

theorem without_without (out out' : List Selection) :
    (v.without m out).without m out' = v.without m (out ++ out') := by
  simp only [without, List.filter_filter, List.forall_mem_append, Bool.decide_and, Bool.and_comm]

/-- What has been taken out can be taken out again. -/
theorem without_twice (out : List Selection) :
    (v.without m out).without m out = v.without m out := by
  rw [without_without]
  simp only [without, List.forall_mem_append, and_self]

/-! ### Single steps -/

theorem sameSubject_excludeElement (v : View) (id : ElementId) :
    v.SameSubject (v.excludeElement id) :=
  ⟨rfl, rfl, rfl, rfl⟩

theorem sameSubject_excludeRelationship (v : View) (id : RelationshipId) :
    v.SameSubject (v.excludeRelationship id) :=
  ⟨rfl, rfl, rfl, rfl⟩

/-- Elements taken out one after the other are taken out at once, with the lines at any of
them. -/
theorem foldl_excludeElement (ids : List ElementId) (v : View) :
    ids.foldl excludeElement v =
      { v with
        elements := v.elements.filter fun id => id ∉ ids
        lines := v.lines.filter fun l => l.source ∉ ids ∧ l.destination ∉ ids } := by
  induction ids generalizing v with
  | nil => simp
  | cons id rest ih =>
    rw [List.foldl_cons, ih]
    simp only [excludeElement, List.filter_filter]
    congr 1
    · refine List.filter_congr fun x _ => ?_
      by_cases own : x = id <;> simp [own]
    · refine List.filter_congr fun l _ => ?_
      by_cases source : l.source = id <;> by_cases destination : l.destination = id <;>
        simp [ViewLine.touches, source, destination]

/-- Lines taken out one after the other are taken out at once. -/
theorem foldl_excludeRelationship (ids : List RelationshipId) (v : View) :
    ids.foldl excludeRelationship v =
      { v with lines := v.lines.filter fun l => l.relationship ∉ ids } := by
  induction ids generalizing v with
  | nil => simp
  | cons id rest ih =>
    rw [List.foldl_cons, ih]
    simp only [excludeRelationship, List.filter_filter]
    congr 1
    refine List.filter_congr fun l _ => ?_
    by_cases own : l.relationship = id <;> simp [own]

def matched (m : Model) (v : View) (s : Selection) : List ElementId :=
  v.elements.filter fun id => ((m.element? id).map s.picksElement).getD false

def matchedLines (m : Model) (v : View) (s : Selection) : List RelationshipId :=
  (v.lines.filter (s.picksLine m)).map (·.relationship)

/-- The single steps of an exclusion come down to one filter. -/
theorem without_eq {next : Nat} (numbered : m.Numbered next) (sound : v.Sound m)
    (static : v.kind.isStatic) :
    (v.matchedLines m s).foldl excludeRelationship ((v.matched m s).foldl excludeElement v) =
      v.without m [s] := by
  have mem_matched : ∀ id ∈ v.elements, (id ∈ v.matched m s ↔ s.Matches m id) := by
    intro id shown
    simp only [matched, List.mem_filter, shown, true_and, Selection.matches_iff numbered]
  -- A relationship has one line, so no line goes out along with another one.
  have mem_matchedLines : ∀ l ∈ v.lines,
      (l.relationship ∈ v.matchedLines m s ↔ s.MatchesLine m l) := by
    intro l shown
    simp only [matchedLines, List.mem_map, List.mem_filter, Selection.picksLine_iff numbered]
    constructor
    · rintro ⟨l', ⟨shown', matches_⟩, same⟩
      exact List.inj_on_of_nodup_map (sound.once static) shown' shown same ▸ matches_
    · intro matches_
      exact ⟨l, ⟨shown, matches_⟩, rfl⟩
  rw [foldl_excludeElement, foldl_excludeRelationship]
  simp only [without, List.filter_filter, List.forall_mem_singleton]
  congr 1
  · refine List.filter_congr fun id shown => ?_
    simp only [mem_matched id shown]
  · refine List.filter_congr fun l shown => ?_
    obtain ⟨source, destination⟩ := sound.ends l shown
    simp only [mem_matched _ source, mem_matched _ destination, mem_matchedLines l shown,
      Bool.decide_and, Bool.and_assoc, Bool.and_comm]

end View

namespace Builder

variable {b : Builder} {key : String} {v : View} {s : Selection}

/-- In a static view of a reachable builder an exclusion is never refused, and filters what
the view shows. -/
theorem excludeSelection_eq (reachable : b.Reachable) (found : b.view key = .ok v)
    (static : v.kind ≠ .dynamic) :
    excludeSelection key s b = .ok () (b.putView key (v.without b.model [s])) := by
  have sound := reachable.drawn.sound v (mem_of_view found)
  rw [← View.without_eq reachable.grown.numbered sound (View.isStatic_of_not_dynamic static)]
  let v₁ := (v.matched b.model s).foldl View.excludeElement v
  have elementsOut : (v.matched b.model s).forM (excludeElement key) b =
      .ok () (b.putView key v₁) := by
    refine forM_eq_putView found View.sameSubject_excludeElement ?_
    intro id picked b' w model found_w _
    obtain ⟨shown, picks⟩ := List.mem_filter.mp picked
    cases known : b'.model.element? id with
    | none => simp [← model, known] at picks
    | some e =>
      exact ask_bind_eq_ok.mpr ⟨e, element_eq_ok.mpr known,
        editView_eq found_w⟩
  have found₁ := view_putView_self b key v₁
  have linesOut : (v.matchedLines b.model s).forM (excludeRelationship key) (b.putView key v₁) =
      .ok () ((b.putView key v₁).putView key
        ((v.matchedLines b.model s).foldl View.excludeRelationship v₁)) := by
    refine forM_eq_putView found₁ View.sameSubject_excludeRelationship ?_
    intro id picked b' w model found_w _
    obtain ⟨l, shown, rfl⟩ := List.mem_map.mp picked
    obtain ⟨r, listed, own, -⟩ := sound.shows l (List.mem_filter.mp shown).1
    have known : b'.model.relationship? l.relationship = some r := by
      rw [model, ← own]
      exact reachable.grown.numbered.relationship?_of_mem listed
    exact ask_bind_eq_ok.mpr ⟨r, relationship_eq_ok.mpr known,
      editView_eq found_w⟩
  rw [putView_putView] at linesOut
  exact ask_bind_eq_ok.mpr ⟨v, found, bind_eq_ok.mpr ⟨b, b, rfl,
    bind_eq_ok.mpr ⟨(), _, elementsOut, linesOut⟩⟩⟩

end Builder

end Edifice
