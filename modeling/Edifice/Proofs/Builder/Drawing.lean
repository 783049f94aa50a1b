import Edifice.Proofs.Builder.Keys
import Edifice.Proofs.Builder.Relationships
import Edifice.Proofs.View.Edits

/-!
How the views of a workspace come about.

Whatever the calls do to the views comes down to single steps (`Redraws`): the workspace
grows and its views stay as they are, a view without contents is declared under a new key,
or one view is edited in its place.  A call that succeeds is a run of such steps
(`Call.redrawn`), but for the one that closes a parallel block, which puts the step numbers
of a view back.  So all views stay sound (`Drawn`), and where the deployment trees lie in
one environment each, all that they show stays accepted (`Accepted`).
-/

open Edifice.Change

namespace Edifice

/-- A view of a kind may be about nothing where the kind does without a scope, and else
about an element of a kind that suits it. -/
theorem Model.checkViewScope_eq_ok {m : Model} {kind : ViewKind} {scope : Option ElementId} :
    m.checkViewScope kind scope = .ok () ↔
      (scope = none ∧ kind.requiresScope = false) ∨
        ∃ id e, scope = some id ∧ m.element? id = some e ∧ kind.acceptsScope e.kind := by
  unfold checkViewScope
  cases scope with
  | none => by_cases required : kind.requiresScope <;> simp [required]
  | some id =>
    cases found : m.element? id with
    | none => simp [found]
    | some e => by_cases accepts : kind.acceptsScope e.kind <;> simp [found, accepts]

/-- The relationship that backs an interaction leads from the one end to the other. -/
theorem Model.backing?_eq_some {m : Model} {source destination : ElementId}
    {description technology : String} {id : RelationshipId}
    (backed : m.backing? source destination description technology = some id) :
    ∃ r ∈ m.relationships, r.id = id ∧ r.source = source ∧ r.destination = destination := by
  obtain ⟨r, best, own⟩ := Option.map_eq_some_iff.mp backed
  have candidate : r ∈ (m.between source destination).filter fun r =>
      technology == "" || r.technology == technology := by
    rcases Option.or_eq_some_iff.mp best with found | ⟨-, first⟩
    · exact List.mem_of_find?_eq_some found
    · exact List.mem_of_head? first
  have between := (List.mem_filter.mp candidate).1
  obtain ⟨member, ends⟩ := List.mem_filter.mp between
  simp only [Bool.and_eq_true, beq_iff_eq] at ends
  exact ⟨r, member, own, ends⟩

namespace View

variable {m : Model} {v : View}

/-- The line of an interaction leads between its ends and shows a relationship. -/
theorem interactionLine_eq_ok {source destination : ElementId} {description technology : String}
    {l : ViewLine}
    (answer : interactionLine m source destination description technology = .ok l) :
    l.source = source ∧ l.destination = destination ∧ l.Shows m := by
  unfold interactionLine at answer
  split at answer
  case h_1 id along =>
    obtain rfl := Except.ok.inj answer
    obtain ⟨r, member, own, rfl, rfl⟩ := Model.backing?_eq_some along
    exact ⟨rfl, rfl, r, member, own, rfl⟩
  case h_2 =>
    split at answer
    case h_1 id against =>
      obtain rfl := Except.ok.inj answer
      obtain ⟨r, member, own, rfl, rfl⟩ := Model.backing?_eq_some against
      exact ⟨rfl, rfl, r, member, own, rfl⟩
    case h_2 => cases answer

/-- An interaction that is found shows a relationship of the model, and the view accepts
its ends. -/
theorem checkInteraction_eq_ok {source destination : Participant}
    {description technology : String} {l : ViewLine}
    (answer : v.checkInteraction m source destination description technology = .ok l) :
    l.Shows m ∧ v.check m l.source = .ok () ∧ v.check m l.destination = .ok () := by
  simp only [checkInteraction, Check.then_eq_ok] at answer
  obtain ⟨-, accepted, -, accepted', backed⟩ := answer
  obtain ⟨source_eq, destination_eq, shows⟩ := interactionLine_eq_ok backed
  rw [source_eq, destination_eq]
  exact ⟨shows, accepted, accepted'⟩

/-- Where nothing new appears, nothing changes. -/
theorem withElement_of_shown {id : ElementId} (shown : v.newElements m id = [])
    (withLines : Bool) : v.withElement m id withLines = v := by
  simp [withElement, shown, newLines]

end View

namespace Builder

variable {b b' : Builder} {key : String} {v v' : View}

/-! ### Finding views -/

theorem entry_of_view (found : b.view key = .ok v) : (key, v) ∈ b.views.entries :=
  List.mem_of_find?_eq_some (view_eq_ok_iff.mp found)

theorem mem_of_view (found : b.view key = .ok v) : v ∈ b.views.views :=
  List.mem_map_of_mem (f := Prod.snd) (entry_of_view found)

/-- A view that is put is found under its key, and all others as before. -/
theorem view_putView (b : Builder) (key : String) (v : View) (other : String) :
    (b.putView key v).view other = if key = other then .ok v else b.view other := by
  have found : (putKeyed Prod.fst (key, v) b.views.entries).find? (·.1 == other) =
      if key = other then some (key, v) else b.views.entries.find? (·.1 == other) :=
    find?_putKeyed ..
  by_cases own : key = other
  · subst own
    rw [if_pos rfl] at found ⊢
    exact view_eq_ok_iff.mpr found
  · rw [if_neg own] at found ⊢
    simp only [view, ViewSet.view?, putView, ViewSet.put, found]

theorem view_putView_self (b : Builder) (key : String) (v : View) :
    (b.putView key v).view key = .ok v :=
  (view_putView b key v key).trans (if_pos rfl)

/-- A view that is put in the place of one takes no key away and adds none. -/
theorem keys_putView (found : b.view key = .ok v) (v' : View) :
    (b.putView key v').views.keys = b.views.keys := by
  have listed : key ∈ b.views.keys := hasView_iff.mp ⟨v, found⟩
  show (putKeyed Prod.fst (key, v') b.views.entries).map Prod.fst = _
  rw [map_key_putKeyed]
  exact if_pos listed

/-- A put brings in nothing but the view that is put. -/
theorem mem_views_putView {w : View} (member : w ∈ (b.putView key v).views.views) :
    w = v ∨ w ∈ b.views.views := by
  obtain ⟨e, listed, rfl⟩ := List.mem_map.mp member
  rcases mem_of_mem_putKeyed listed with rfl | earlier
  · exact .inl rfl
  · exact .inr (List.mem_map_of_mem earlier)

/-! ### Steps -/

/-- `Redraws b b'`: one step leads from the views of `b` to those of `b'`, and closes no
parallel block. -/
inductive Redraws (b : Builder) : Builder → Prop where
  | kept {b' : Builder} (views : b'.views.entries = b.views.entries) (run : Evolves b b') :
      Redraws b b'
  | declared {key : String} {kind : ViewKind} {scope : Option ElementId}
      {environment : Option String}
      (subject : b.checkViewSubject kind scope environment = .ok ())
      (new : key ∉ b.views.keys) (keys : Dictionary Nat) :
      Redraws b ({ b with generatedKeys := keys }.putView key { key, kind, scope, environment })
  | edited {key : String} {v v' : View} (found : b.view key = .ok v) (edit : v.Edit b.model v') :
      Redraws b (b.putView key v')

/-- One step after the other leads from the views of `b` to those of `b'`. -/
abbrev Redrawn : Builder → Builder → Prop :=
  Relation.ReflTransGen Redraws

instance : IsPreorder Builder Redrawn where
  refl _ := .refl
  trans _ _ _ first second := first.trans second

/-- A step for the views is a run of steps for the workspace. -/
theorem Redraws.evolves (step : Redraws b b') : Evolves b b' := by
  cases step with
  | kept _ run => exact run
  | declared | edited => exact .single (.same rfl)

theorem Redrawn.evolves (run : Redrawn b b') : Evolves b b' := by
  induction run with
  | refl => exact .refl
  | tail _ step ih => exact ih.trans step.evolves

/-- No step takes a view away, changes its kind or closes a parallel block of it. -/
theorem Redraws.stays (step : Redraws b b') (found : b.view key = .ok v) :
    ∃ v', b'.view key = .ok v' ∧ v'.kind = v.kind ∧ v.depth ≤ v'.depth := by
  cases step with
  | kept views =>
    have same : b'.view key = b.view key := by simp only [view, ViewSet.view?, views]
    exact ⟨v, same.trans found, rfl, Nat.le_refl _⟩
  | @declared declared_key _ _ _ _ new =>
    have other : declared_key ≠ key := by
      rintro rfl
      exact new (hasView_iff.mp ⟨v, found⟩)
    refine ⟨v, ?_, rfl, Nat.le_refl _⟩
    rw [view_putView, if_neg other]
    exact found
  | @edited edited_key w w' found' edit =>
    obtain ⟨-, kind, -⟩ := edit.subject
    rw [view_putView]
    by_cases same : edited_key = key
    · subst same
      obtain rfl := Except.ok.inj (found'.symm.trans found)
      exact ⟨w', if_pos rfl, kind, edit.depth_le⟩
    · exact ⟨v, (if_neg same).trans found, rfl, Nat.le_refl _⟩

/-- A view is never taken away; it keeps its kind, and no block of it is closed on the way. -/
theorem Redrawn.stays (run : Redrawn b b') (found : b.view key = .ok v) :
    ∃ v', b'.view key = .ok v' ∧ v'.kind = v.kind ∧ v.depth ≤ v'.depth := by
  induction run with
  | refl => exact ⟨v, found, rfl, Nat.le_refl _⟩
  | tail _ step ih =>
    obtain ⟨v₁, found₁, kind₁, depth₁⟩ := ih
    obtain ⟨v₂, found₂, kind₂, depth₂⟩ := step.stays found₁
    exact ⟨v₂, found₂, kind₂.trans kind₁, Nat.le_trans depth₁ depth₂⟩

/-! ### What the steps keep -/

/-- Every view stands under its own key, no two under one, and all are sound. -/
structure Drawn (b : Builder) : Prop where
  keys : b.views.keys.Nodup
  own : ∀ e ∈ b.views.entries, e.2.key = e.1
  sound : ∀ v ∈ b.views.views, v.Sound b.model

def Accepted (b : Builder) : Prop :=
  ∀ v ∈ b.views.views, v.Accepts b.model

/-- A view is found under its own key. -/
theorem Drawn.key_of_view (drawn : b.Drawn) (found : b.view key = .ok v) : v.key = key :=
  drawn.own _ (entry_of_view found)

/-- A view under no other key is found under the one that it stands under. -/
theorem Drawn.view_of_entry (drawn : b.Drawn) (listed : (key, v) ∈ b.views.entries) :
    b.view key = .ok v :=
  view_eq_ok_iff.mpr (find?_key_of_mem drawn.keys listed)

/-- A view is found under its own key, which is that it is stored under. -/
theorem Drawn.view_of_mem (drawn : b.Drawn) (member : v ∈ b.views.views) :
    b.view v.key = .ok v := by
  obtain ⟨⟨key, v⟩, listed, rfl⟩ := List.mem_map.mp member
  obtain rfl : v.key = key := drawn.own _ listed
  exact drawn.view_of_entry listed

/-- A view under a new key goes to the end. -/
theorem entries_declared (new : key ∉ b.views.keys) (keys : Dictionary Nat) (v : View) :
    ({ b with generatedKeys := keys }.putView key v).views.entries =
      b.views.entries ++ [(key, v)] := by
  refine putKeyed_of_new fun e listed same => new ?_
  exact List.mem_map.mpr ⟨e, listed, same⟩

theorem views_declared (new : key ∉ b.views.keys) (keys : Dictionary Nat) (v : View) :
    ({ b with generatedKeys := keys }.putView key v).views.views = b.views.views ++ [v] := by
  simp only [ViewSet.views, entries_declared new, List.map_append, List.map_singleton]

/-- A view may be declared about an element that suits its kind. -/
theorem fits_of_checkViewSubject {kind : ViewKind} {scope : Option ElementId}
    {environment : Option String}
    (subject : b.checkViewSubject kind scope environment = .ok ()) {id : ElementId}
    (about : scope = some id) :
    ∃ e, b.model.element? id = some e ∧ kind.acceptsScope e.kind := by
  simp only [checkViewSubject, Check.then_eq_ok, Model.checkViewScope_eq_ok] at subject
  rcases subject.1 with ⟨none_given, -⟩ | ⟨_, e, given, found, fits⟩
  · cases none_given.symm.trans about
  · obtain rfl := Option.some.inj (given.symm.trans about)
    exact ⟨e, found, fits⟩

/-- A view that keeps its key and stays sound is put in its own place. -/
theorem Drawn.putView (drawn : b.Drawn) (found : b.view key = .ok v) (own : v'.key = v.key)
    (sound : v'.Sound b.model) : (b.putView key v').Drawn where
  keys := by
    rw [keys_putView found]
    exact drawn.keys
  own := by
    intro e listed
    rcases mem_of_mem_putKeyed listed with rfl | listed
    · exact own.trans (drawn.key_of_view found)
    · exact drawn.own e listed
  sound := by
    intro w member
    rcases mem_views_putView member with rfl | member
    · exact sound
    · exact drawn.sound w member

/-- A step keeps the views sound and their keys apart. -/
theorem Redraws.drawn (step : Redraws b b') (grown : Grown b) (drawn : b.Drawn) :
    b'.Drawn := by
  cases step with
  | kept views run =>
    refine ⟨by rw [ViewSet.keys, views]; exact drawn.keys, views ▸ drawn.own, fun v member => ?_⟩
    rw [ViewSet.views, views] at member
    exact (drawn.sound v member).extends_ (run.extends_ grown.numbered)
  | @declared key kind scope environment subject new keys =>
    constructor
    · rw [ViewSet.keys, entries_declared new keys, List.map_append, List.map_singleton,
        ← List.concat_eq_append]
      exact drawn.keys.concat new
    · rw [entries_declared new keys]
      exact List.forall_mem_append.mpr ⟨drawn.own, List.forall_mem_singleton.mpr rfl⟩
    · rw [views_declared new keys]
      refine List.forall_mem_append.mpr ⟨drawn.sound, List.forall_mem_singleton.mpr ?_⟩
      exact .of_empty (fun id => fits_of_checkViewSubject subject) rfl rfl
  | edited found edit =>
    have sound := drawn.sound _ (mem_of_view found)
    exact drawn.putView found edit.subject.1 (edit.sound grown.numbered grown.nested sound)

theorem Redrawn.drawn (run : Redrawn b b') (grown : Grown b) (drawn : b.Drawn) : b'.Drawn := by
  induction run with
  | refl => exact drawn
  | tail earlier step ih => exact step.drawn (grown.evolves (Redrawn.evolves earlier)) ih

/-! ### Instances -/

/-- A step keeps it that what an instance deploys is an element. -/
theorem Grows.deploysDeclared (step : Grows b b') (numbered : b.Numbered)
    (deployed : b.model.DeploysDeclared) : b'.model.DeploysDeclared := by
  intro e' member of deploys
  have extends_ := step.extends_ numbered
  rcases step.mem_elements numbered member with ⟨e, member, same⟩ | ⟨draft, drafted, -, rfl⟩
  · obtain ⟨-, -, -, -, -, -, -, instanceOf, -⟩ := Element.core_eq_iff.mp same
    exact extends_.declares (deployed e member of (instanceOf ▸ deploys))
  · cases drafted with
    | copy answer =>
      obtain ⟨deployed, kind, parent, found, -, -, -, rfl⟩ := instanceDraft_eq_ok answer
      obtain rfl := Option.some.inj deploys
      exact extends_.declares ⟨deployed, Model.element?_eq_some found⟩
    | _ => cases deploys

theorem Grown.deploysDeclared (grown : Grown b) : b.model.DeploysDeclared :=
  grown.induction (fun _ _ => List.forall_mem_nil _) fun _ _ earlier step =>
    step.deploysDeclared earlier.numbered

/-- Where the deployment trees lie in one environment each, a step keeps accepted what the
views show. -/
theorem Redraws.accepted (step : Redraws b b') (grown : Grown b) (drawn : b.Drawn)
    (one : b.model.OneEnvironment) (accepted : b.Accepted) : b'.Accepted := by
  intro w member
  cases step with
  | kept views run =>
    rw [ViewSet.views, views] at member
    exact (accepted w member).extends_ (run.extends_ grown.numbered) (drawn.sound w member)
      grown.deploysDeclared
  | declared subject new keys =>
    rw [views_declared new keys, List.mem_append, List.mem_singleton] at member
    rcases member with member | rfl
    · exact accepted w member
    · exact List.forall_mem_nil _
  | edited found edit =>
    rcases mem_views_putView member with rfl | member
    · exact edit.accepts grown.numbered grown.nested one (accepted _ (mem_of_view found))
    · exact accepted w member

end Builder

end Edifice
