import Edifice.Proofs.Builder.Referents

/-!
Orderly runs of the builder.

A run is orderly when its calls refer only to what is there and close no parallel block
(`Proceeds`): then nothing is missing for any of them, and the views keep their parallel
blocks open.  Showing a selection, and taking out what one matches, is such a run
(`safe_includeSelection`, `safe_excludeSelection`): the elements and relationships that the
single calls name are read off the model and the view, or were there before.
-/

open Edifice.Change

namespace Edifice

def Selection.referents : Selection → List Referent
  | .coupled id _ => [.element id]
  | .element id => [.element id]
  | .relationship id => [.relationship id]
  | _ => []

namespace Builder

variable {b b' b'' : Builder} {key : String}

/-! ### Orderly runs -/

def Call.closes : Call → Bool
  | .endParallel _ => true
  | _ => false

/-- The call refers only to what is there, and closes no parallel block. -/
structure Call.Orderly (b : Builder) (c : Call) : Prop where
  known : c.Known b
  closes_none : c.closes = false

abbrev Proceeds : Builder → Builder → Prop :=
  LeadsBy Call.Orderly

/-- In an orderly run no view loses an open parallel block. -/
theorem Proceeds.stays {v : View} (run : Proceeds b b') (grown : Grown b)
    (found : b.view key = .ok v) :
    ∃ v', b'.view key = .ok v' ∧ v'.kind = v.kind ∧ v.depth ≤ v'.depth := by
  induction run with
  | refl => exact ⟨v, found, rfl, Nat.le_refl _⟩
  | @call b₁ earlier c fit ih =>
    have grown₁ : Grown b₁ := grown.evolves (earlier.leads.evolves grown.numbered)
    refine c.holds_after (P := fun b₂ => ∃ v', b₂.view key = .ok v' ∧ v'.kind = v.kind ∧
      v.depth ≤ v'.depth) ih fun a b₂ ran => ?_
    obtain ⟨v₁, found₁, kind₁, depth₁⟩ := ih
    rcases c.redrawn grown₁ ran with redrawn | ⟨key', -, rfl, -⟩
    · obtain ⟨v₂, found₂, kind₂, depth₂⟩ := redrawn.stays found₁
      exact ⟨v₂, found₂, kind₂.trans kind₁, Nat.le_trans depth₁ depth₂⟩
    · cases fit.closes_none

/-- What is there is there after a run. -/
theorem LeadsBy.has {fits : Builder → Call → Prop} {x : Referent} (run : LeadsBy fits b b')
    (grown : Grown b) (has : b.Has x) : b'.Has x :=
  run.leads.has grown has

/-! ### Safe changes -/

/-- The change is an orderly run, and is not refused because something is missing. -/
structure Safe {α : Type} (c : Change Builder α) (b : Builder) : Prop where
  proceeds : ∀ a b', c b = .ok a b' → Proceeds b b'
  grounded : c.Grounded b

namespace Safe

variable {α β ι : Type}

theorem call (c : Call) (grown : Grown b) (orderly : c.Orderly b) : Safe c.perform b where
  proceeds := by
    intro a b' done
    rw [← after_of_ok done]
    exact .call .refl c orderly
  grounded := c.grounded grown orderly.known

/-- A call that refers to one thing, which is there. -/
theorem call_of_has (c : Call) (grown : Grown b) {x : Referent} (all : c.referents = [x])
    (has : b.Has x) (closes_none : c.closes = false) : Safe c.perform b := by
  refine .call c grown ⟨fun y member => ?_, closes_none⟩
  rw [all] at member
  obtain rfl := List.mem_singleton.mp member
  exact has

/-- A call that refers to two things, which are there. -/
theorem call_of_both (c : Call) (grown : Grown b) {x y : Referent} (all : c.referents = [x, y])
    (has : b.Has x) (has' : b.Has y) (closes_none : c.closes = false) : Safe c.perform b := by
  refine .call c grown ⟨fun z member => ?_, closes_none⟩
  rw [all] at member
  rcases List.mem_cons.mp member with rfl | member
  · exact has
  · obtain rfl := List.mem_singleton.mp member
    exact has'

theorem pure {a : α} : Safe (pure a) b where
  proceeds := by
    intro a' b' done
    obtain ⟨-, rfl⟩ := pure_eq_ok.mp done
    exact .refl
  grounded := Total.pure.grounded

/-- Changes that are safe one after the other are safe together. -/
theorem bind {x : Change Builder α} {f : α → Change Builder β} (first : Safe x b)
    (then_ : ∀ a b', x b = .ok a b' → Proceeds b b' → Safe (f a) b') : Safe (x >>= f) b where
  proceeds := by
    intro a b'' done
    obtain ⟨a₁, b₁, ran, rest⟩ := bind_eq_ok.mp done
    have run := first.proceeds a₁ b₁ ran
    exact run.trans ((then_ a₁ b₁ ran run).proceeds a b'' rest)
  grounded := by
    refine .bind first.grounded fun a₁ b₁ ran => ?_
    exact (then_ a₁ b₁ ran (first.proceeds a₁ b₁ ran)).grounded

theorem ask_bind {question : Builder → Except ModelError α} {f : α → Change Builder β}
    (asked : Check.Grounded (question b)) (then_ : ∀ a, question b = .ok a → Safe (f a) b) :
    Safe (ask question >>= f) b := by
  refine bind ⟨fun a b' done => ?_, .ask asked⟩ fun a b' done _ => ?_
  · obtain ⟨-, rfl⟩ := ask_eq_ok.mp done
    exact .refl
  · obtain ⟨answer, rfl⟩ := ask_eq_ok.mp done
    exact then_ a answer

theorem get_bind {f : Builder → Change Builder β} (then_ : Safe (f b) b) :
    Safe (get >>= f) b := by
  have same : (get >>= f) b = f b b := rfl
  refine ⟨fun a b' done => then_.proceeds a b' (same ▸ done), fun e b' refused => ?_⟩
  exact then_.grounded e b' (same ▸ refused)

/-- A loop is safe if each of its turns is, wherever the earlier ones have led. -/
theorem forM {f : ι → Change Builder PUnit} {l : List ι}
    (turn : ∀ i ∈ l, ∀ b', Proceeds b b' → Safe (f i) b') : Safe (l.forM f) b := by
  induction l generalizing b with
  | nil => exact pure
  | cons i rest ih =>
    refine bind (turn i (List.mem_cons_self ..) b .refl) fun _ b₁ _ run => ?_
    refine ih fun j listed b' further => ?_
    exact turn j (List.mem_cons_of_mem i listed) b' (run.trans further)

end Safe

/-! ### Selections -/

theorem safe_includeElement (grown : Grown b) {id : ElementId} (has : b.Has (.view key))
    (declared : b.Has (.element id)) : Safe (includeElement key id) b :=
  .call_of_both (.includeElement key id) grown rfl has declared rfl

theorem safe_includeRelationship (grown : Grown b) {id : RelationshipId}
    (has : b.Has (.view key)) (listed : b.Has (.relationship id)) :
    Safe (includeRelationship key id) b :=
  .call_of_both (.includeRelationship key id) grown rfl has listed rfl

/-- What a view accepts is there. -/
theorem safe_includeIfAccepted (grown : Grown b) (id : ElementId) (has : b.Has (.view key)) :
    Safe (includeIfAccepted key id) b := by
  refine .get_bind ?_
  split
  case isTrue accepted =>
    obtain ⟨v, -, passed⟩ := checkViewElement_eq_ok.mp (canInclude_iff.mp accepted)
    exact safe_includeElement grown has (View.declares_of_check passed)
  case isFalse => exact .pure

theorem safe_forM_includeIfAccepted (grown : Grown b) (ids : List ElementId)
    (has : b.Has (.view key)) : Safe (ids.forM (includeIfAccepted key)) b := by
  refine .forM fun id _ b' run => ?_
  exact safe_includeIfAccepted (grown.evolves (run.leads.evolves grown.numbered)) id
    (run.has grown has)

/-- Relationships that are there are included one by one. -/
theorem safe_forM_includeRelationship (grown : Grown b) {ids : List RelationshipId}
    (has : b.Has (.view key)) (listed : ∀ id ∈ ids, b.Has (.relationship id)) :
    Safe (ids.forM (includeRelationship key)) b := by
  refine .forM fun id member b' run => ?_
  exact safe_includeRelationship (grown.evolves (run.leads.evolves grown.numbered))
    (run.has grown has) (run.has grown (listed id member))

/-- Relationships picked from the model are there. -/
theorem has_of_picked {p : Relationship → Bool} {id : RelationshipId}
    (picked : id ∈ (b.model.relationships.filter p).map (·.id)) : b.Has (.relationship id) := by
  obtain ⟨r, member, own⟩ := List.mem_map.mp picked
  exact ⟨r, (List.mem_filter.mp member).1, own⟩

/-- A selection whose referents are there is included without an internal error: each form is a
loop of safe inclusions. -/
theorem safe_includeSelection (grown : Grown b) {s : Selection} (has : b.Has (.view key))
    (known : ∀ x ∈ s.referents, b.Has x) : Safe (includeSelection key s) b := by
  refine .get_bind ?_
  cases s with
  | all => exact .call_of_has (.includeDefault key) grown rfl has rfl
  | elementTags | elementType => exact safe_forM_includeIfAccepted grown _ has
  | relationshipTags | allRelationships =>
    refine .ask_bind (.bind (grounded_view has) fun _ _ => .ok) fun ids answer => ?_
    refine safe_forM_includeRelationship grown has fun id member => ?_
    obtain ⟨v, -, picked⟩ := Check.bind_eq_ok.mp answer
    obtain rfl := Except.ok.inj picked
    exact has_of_picked member
  | coupled element =>
    refine .bind (safe_includeElement grown has (known _ (List.mem_singleton_self _)))
      fun _ b' _ run => ?_
    exact safe_forM_includeIfAccepted (grown.evolves (run.leads.evolves grown.numbered)) _
      (run.has grown has)
  | element id => exact safe_includeElement grown has (known _ (List.mem_singleton_self _))
  | relationship id =>
    exact safe_includeRelationship grown has (known _ (List.mem_singleton_self _))
  | between =>
    exact safe_forM_includeRelationship grown has fun id member => has_of_picked member

/-- What a view shows is there, and so is what a selection picks of it. -/
theorem safe_excludeSelection (reachable : Reachable b) {s : Selection}
    (has : b.Has (.view key)) : Safe (excludeSelection key s) b := by
  have grown := reachable.grown
  refine .ask_bind (grounded_view has) fun v found => .get_bind ?_
  have sound := reachable.drawn.sound v (mem_of_view found)
  refine .bind (.forM fun id member b' run => ?_) fun _ b₁ _ run₁ =>
    .forM fun id member b' run => ?_
  · have declared : b.Has (.element id) := by
      have picked := (List.mem_filter.mp member).2
      cases known : b.model.element? id with
      | none => simp [known] at picked
      | some e => exact ⟨e, Model.element?_eq_some known⟩
    exact .call_of_both (.excludeElement key id)
      (grown.evolves (run.leads.evolves grown.numbered)) rfl (run.has grown has)
      (run.has grown declared) rfl
  · have listed : b.Has (.relationship id) := by
      obtain ⟨l, picked, rfl⟩ := List.mem_map.mp member
      obtain ⟨r, listed, own, -⟩ := sound.shows l (List.mem_filter.mp picked).1
      exact ⟨r, listed, own⟩
    have run' := run₁.trans run
    exact .call_of_both (.excludeRelationship key id)
      (grown.evolves (run'.leads.evolves grown.numbered)) rfl (run'.has grown has)
      (run'.has grown listed) rfl

end Builder

end Edifice
