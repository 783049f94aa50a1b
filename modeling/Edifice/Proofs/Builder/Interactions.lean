import Edifice.Proofs.Builder.Views

/-!
Which relationship backs an interaction.

An interaction is backed by a relationship from its source to its destination that has the
technology, if one is given (`Relationship.Backs`); where there is none, by one that leads
the other way, as a response.  Of the relationships that qualify in the direction used, it
is the first declared with the description, or else the first declared (`Model.Prefers`).
Both are said of the relationships as they are listed in the model, explicit, implied and
replicated ones alike.
-/

open Edifice.Change

namespace Edifice

/-- The relationship leads from `source` to `destination` and has the technology, if one is
given. -/
def Relationship.Backs (source destination : ElementId) (technology : String)
    (r : Relationship) : Prop :=
  r.source = source ∧ r.destination = destination ∧
    (technology = "" ∨ r.technology = technology)

namespace Model

/-- The relationship is the first declared with the property. -/
def First (m : Model) (P : Relationship → Prop) (r : Relationship) : Prop :=
  ∃ before after, m.relationships = before ++ r :: after ∧ P r ∧ ∀ r' ∈ before, ¬ P r'

/-- Of the relationships with the property, the first declared with the description, or the
first declared where none has it. -/
def Prefers (m : Model) (P : Relationship → Prop) (description : String) (r : Relationship) :
    Prop :=
  m.First (fun r => P r ∧ r.description = description) r ∨
    (∀ r' ∈ m.relationships, P r' → r'.description ≠ description) ∧ m.First P r

variable {m : Model} {source destination : ElementId} {description technology : String}
  {P : Relationship → Prop} {r : Relationship}

theorem First.mem (first : m.First P r) : r ∈ m.relationships := by
  obtain ⟨before, after, split, -⟩ := first
  simp [split]

theorem First.holds (first : m.First P r) : P r := by
  obtain ⟨_, _, -, holds, -⟩ := first
  exact holds

theorem Prefers.mem (prefers : m.Prefers P description r) : r ∈ m.relationships := by
  rcases prefers with best | ⟨-, first⟩
  · exact best.mem
  · exact first.mem

theorem Prefers.holds (prefers : m.Prefers P description r) : P r := by
  rcases prefers with best | ⟨-, first⟩
  · exact best.holds.1
  · exact first.holds

/-- What a search finds is the first with the property. -/
theorem find?_eq_some_iff_first [DecidablePred P] :
    m.relationships.find? (fun r => decide (P r)) = some r ↔ m.First P r := by
  simp only [List.find?_eq_some_iff_append, First, decide_eq_true_eq, Bool.not_eq_true',
    decide_eq_false_iff_not]
  constructor
  · rintro ⟨holds, before, after, split, others⟩
    exact ⟨before, after, split, holds, others⟩
  · rintro ⟨before, after, split, holds, others⟩
    exact ⟨holds, before, after, split, others⟩

instance : DecidablePred (Relationship.Backs source destination technology) := fun _ =>
  inferInstanceAs (Decidable (_ ∧ _ ∧ (_ ∨ _)))

/-- A relationship is looked for among those that can back the interaction. -/
theorem backing?_eq (m : Model) (source destination : ElementId)
    (description technology : String) :
    m.backing? source destination description technology =
      ((m.relationships.find? fun r => decide (r.Backs source destination technology ∧
          r.description = description)).or
        (m.relationships.find? fun r => decide (r.Backs source destination technology))).map
          (·.id) := by
  -- the ends and the technology are tested one after the other
  have candidates : ((m.between source destination).filter fun r =>
      technology == "" || r.technology == technology) =
        m.relationships.filter fun r => decide (r.Backs source destination technology) := by
    rw [between, List.filter_filter]
    refine List.filter_congr fun r _ => Bool.eq_iff_iff.mpr ?_
    rw [decide_eq_true_iff]
    simp only [Relationship.Backs, Bool.and_eq_true, Bool.or_eq_true, beq_iff_eq]
    tauto
  unfold backing?
  dsimp only
  rw [candidates, List.find?_filter, List.head?_filter]
  simp only [decide_eq_true_eq, beq_iff_eq]

/-- The relationship that is recorded for an interaction is the preferred one. -/
theorem backing?_eq_some_iff {id : RelationshipId} :
    m.backing? source destination description technology = some id ↔
      ∃ r, m.Prefers (Relationship.Backs source destination technology) description r ∧
        r.id = id := by
  rw [backing?_eq, Option.map_eq_some_iff]
  refine exists_congr fun r => and_congr_left fun _ => ?_
  rw [Option.or_eq_some_iff, find?_eq_some_iff_first, find?_eq_some_iff_first, Prefers]
  refine or_congr_right (and_congr_left fun _ => ?_)
  simp

/-- One is recorded if any can back the interaction. -/
theorem backing?_eq_none_iff :
    m.backing? source destination description technology = none ↔
      ¬ ∃ r ∈ m.relationships, r.Backs source destination technology := by
  rw [backing?_eq, Option.map_eq_none_iff, Option.or_eq_none_iff, List.find?_eq_none,
    List.find?_eq_none]
  simp only [decide_eq_true_eq, not_exists, not_and]
  exact ⟨fun none => none.2, fun none => ⟨fun r member backs => absurd backs (none r member), none⟩⟩

end Model

namespace View

variable {m : Model} {v : View}

/-- An interaction is in its own direction if it can be, else a response if it can be, and
refused otherwise. -/
theorem interactionLine_cases (m : Model) (source destination : ElementId)
    (description technology : String) :
    (∃ r, m.Prefers (Relationship.Backs source destination technology) description r ∧
      interactionLine m source destination description technology =
        .ok { relationship := r.id, source, destination, description, technology }) ∨
    (¬ (∃ r ∈ m.relationships, r.Backs source destination technology) ∧
      ∃ r, m.Prefers (Relationship.Backs destination source technology) description r ∧
        interactionLine m source destination description technology =
          .ok { relationship := r.id, source, destination, description, technology,
                response := true }) ∨
    (¬ (∃ r ∈ m.relationships, r.Backs source destination technology) ∧
      ¬ (∃ r ∈ m.relationships, r.Backs destination source technology) ∧
      ∃ a z, interactionLine m source destination description technology =
        .error (.missingRelationship a z)) := by
  unfold interactionLine
  cases along : m.backing? source destination description technology with
  | some id =>
    obtain ⟨r, prefers, rfl⟩ := Model.backing?_eq_some_iff.mp along
    exact .inl ⟨r, prefers, rfl⟩
  | none =>
    have none_along := Model.backing?_eq_none_iff.mp along
    cases against : m.backing? destination source description technology with
    | some id =>
      obtain ⟨r, prefers, rfl⟩ := Model.backing?_eq_some_iff.mp against
      exact .inr (.inl ⟨none_along, r, prefers, rfl⟩)
    | none => exact .inr (.inr ⟨none_along, Model.backing?_eq_none_iff.mp against, _, _, rfl⟩)

/-- An interaction has the texts given. -/
theorem texts_of_interactionLine {source destination : ElementId}
    {description technology : String} {l : ViewLine}
    (answer : interactionLine m source destination description technology = .ok l) :
    l.description = description ∧ l.technology = technology := by
  rcases interactionLine_cases m source destination description technology with
    ⟨_, _, line⟩ | ⟨_, _, _, line⟩ | ⟨_, _, _, _, line⟩
  · obtain rfl := Except.ok.inj (line.symm.trans answer)
    exact ⟨rfl, rfl⟩
  · obtain rfl := Except.ok.inj (line.symm.trans answer)
    exact ⟨rfl, rfl⟩
  · cases line.symm.trans answer

/-- The participant is what it is described as, and the view accepts it. -/
structure Seats (v : View) (m : Model) (p : Participant) : Prop where
  suits : p.check m = .ok ()
  accepted : v.check m p.id = .ok ()

/-- An interaction between participants that the view accepts is a matter of what backs it. -/
theorem checkInteraction_of_seats {source destination : Participant}
    (seats_source : v.Seats m source) (seats_destination : v.Seats m destination)
    (description technology : String) :
    v.checkInteraction m source destination description technology =
      interactionLine m source.id destination.id description technology := by
  simp only [checkInteraction, seats_source.suits, seats_source.accepted,
    seats_destination.suits, seats_destination.accepted, Check.ok_bind]

end View

namespace Builder

variable {b b' : Builder} {key : String} {v : View} {source destination : Participant}
  {description technology : String} {order : Option String} {l l' : ViewLine}

/-- The change succeeds, and the view has its lines and this one after them. -/
def Appends (c : Change Builder Unit) (b : Builder) (key : String) (l : ViewLine) : Prop :=
  ∃ b' v v', c b = .ok () b' ∧ b.view key = .ok v ∧ b'.view key = .ok v' ∧
    v'.lines = v.lines ++ [l]

/-- An interaction that passes the checks is appended to its view. -/
theorem addInteraction_of_ok (asked : b.dynamicView key = .ok v)
    (answer : v.checkInteraction b.model source destination description technology = .ok l) :
    addInteraction key source destination description technology order b =
      .ok () (b.putView key (v.appendLine l order)) :=
  append_eq_ok.mpr ⟨v, l, asked, answer, rfl⟩

/-- An interaction for which a line is found is not refused. -/
theorem addInteraction_ne_error {e : ModelError} (asked : b.dynamicView key = .ok v)
    (answer : v.checkInteraction b.model source destination description technology = .ok l) :
    addInteraction key source destination description technology order b ≠ .error e b' := by
  rw [addInteraction_of_ok asked answer]
  exact nofun

/-- What the checks refuse leaves the builder as it is. -/
theorem addInteraction_of_error {e : ModelError} (asked : b.dynamicView key = .ok v)
    (answer : v.checkInteraction b.model source destination description technology = .error e) :
    addInteraction key source destination description technology order b = .error e b := by
  refine bind_eq_error.mpr (.inr ⟨v, b, ask_eq_ok.mpr ⟨asked, rfl⟩, ?_⟩)
  exact bind_eq_error.mpr (.inl (ask_eq_error.mpr ⟨answer, rfl⟩))

/-- What is appended is the line that is found, with its order. -/
theorem appends_iff (asked : b.dynamicView key = .ok v)
    (answer : v.checkInteraction b.model source destination description technology = .ok l) :
    Appends (addInteraction key source destination description technology order) b key l' ↔
      l' = { l with order := some (order.getD (toString v.steps.next.1)) } := by
  have done : addInteraction key source destination description technology order b =
      .ok () (b.putView key (v.appendLine l order)) := addInteraction_of_ok asked answer
  obtain ⟨found, -⟩ := dynamicView_eq_ok.mp asked
  have found' := view_putView_self b key (v.appendLine l order)
  constructor
  · rintro ⟨b', w, w', done', found_w, found_w', lines⟩
    obtain ⟨-, rfl⟩ := EStateM.Result.ok.inj (done.symm.trans done')
    obtain rfl := Except.ok.inj (found.symm.trans found_w)
    obtain rfl := Except.ok.inj (found'.symm.trans found_w')
    obtain rfl := List.singleton_inj.mp (List.append_cancel_left lines)
    rfl
  · rintro rfl
    exact ⟨_, v, _, done, found, found', rfl⟩

/-- Whether a response is appended depends on the line that is found. -/
theorem appends_response_iff (asked : b.dynamicView key = .ok v)
    (answer : v.checkInteraction b.model source destination description technology = .ok l)
    (order : Option String) (response : Bool) :
    (∃ l', Appends (addInteraction key source destination description technology order) b key l' ∧
      l'.response = response) ↔ l.response = response := by
  simp only [appends_iff asked answer, exists_eq_left]

/-- Nothing is appended by a change that is refused. -/
theorem not_appends {c : Change Builder Unit} {e : ModelError} (refused : c b = .error e b') :
    ¬ Appends c b key l := by
  rintro ⟨_, _, _, done, -⟩
  cases refused.symm.trans done

/-- **Interactions are backed by the right relationship.**  Between participants that a
dynamic view accepts, a line that is no response is appended exactly if a relationship from
the source to the destination can back it; a response exactly if none can but one the other
way can; and the call is refused for want of a relationship exactly if neither can.  The line
leads from the source to the destination with the texts given, and what it records is the
relationship that is preferred in the direction used. -/
theorem interactions_backed {b : Builder} (reachable : b.Reachable) {key : String} {v : View}
    (asked : b.dynamicView key = .ok v) {source destination : Participant}
    (seats_source : v.Seats b.model source) (seats_destination : v.Seats b.model destination)
    (description technology : String) (order : Option String) :
    let along := Relationship.Backs source.id destination.id technology
    let against := Relationship.Backs destination.id source.id technology
    let call := addInteraction key source destination description technology order
    ((∃ l, Appends call b key l ∧ l.response = false) ↔
        ∃ r ∈ b.model.relationships, along r) ∧
      ((∃ l, Appends call b key l ∧ l.response = true) ↔
        ¬ (∃ r ∈ b.model.relationships, along r) ∧ ∃ r ∈ b.model.relationships, against r) ∧
      ((∃ a z, call b = .error (.missingRelationship a z) b) ↔
        ¬ (∃ r ∈ b.model.relationships, along r) ∧
          ¬ ∃ r ∈ b.model.relationships, against r) ∧
      ∀ l, Appends call b key l →
        l.source = source.id ∧ l.destination = destination.id ∧
          l.description = description ∧ l.technology = technology ∧
          ∃ r, b.model.relationship? l.relationship = some r ∧
            b.model.Prefers (if l.response then against else along) description r := by
  intro along against call
  have listed : ∀ {P : Relationship → Prop} {r : Relationship},
      b.model.Prefers P description r → b.model.relationship? r.id = some r :=
    fun prefers => reachable.grown.numbered.relationship?_of_mem prefers.mem
  have checked := View.checkInteraction_of_seats seats_source seats_destination description
    technology
  rcases View.interactionLine_cases b.model source.id destination.id description technology with
    ⟨r, prefers, line⟩ | ⟨none_along, r, prefers, line⟩ | ⟨none_along, none_against, a, z, line⟩
  case inl =>
    have answer := checked.trans line
    have some_along : ∃ r ∈ b.model.relationships, along r := ⟨r, prefers.mem, prefers.holds⟩
    refine ⟨(appends_response_iff asked answer order false).trans (iff_of_true rfl some_along),
      (appends_response_iff asked answer order true).trans
        (iff_of_false Bool.false_ne_true fun responds => responds.1 some_along),
      iff_of_false (fun ⟨_, _, refused⟩ => addInteraction_ne_error asked answer refused)
        fun none => none.1 some_along, fun l appended => ?_⟩
    obtain rfl := (appends_iff asked answer).mp appended
    exact ⟨rfl, rfl, rfl, rfl, r, listed prefers, prefers⟩
  case inr.inl =>
    have answer := checked.trans line
    have some_against : ∃ r ∈ b.model.relationships, against r :=
      ⟨r, prefers.mem, prefers.holds⟩
    refine ⟨(appends_response_iff asked answer order false).trans
        (iff_of_false nofun none_along),
      (appends_response_iff asked answer order true).trans
        (iff_of_true rfl ⟨none_along, some_against⟩),
      iff_of_false (fun ⟨_, _, refused⟩ => addInteraction_ne_error asked answer refused)
        fun none => none.2 some_against, fun l appended => ?_⟩
    obtain rfl := (appends_iff asked answer).mp appended
    exact ⟨rfl, rfl, rfl, rfl, r, listed prefers, prefers⟩
  case inr.inr =>
    have refused : call b = .error (.missingRelationship a z) b :=
      addInteraction_of_error asked (checked.trans line)
    have nothing : ∀ l, ¬ Appends call b key l := fun l => not_appends refused
    exact ⟨iff_of_false (fun ⟨l, appended, _⟩ => nothing l appended) none_along,
      iff_of_false (fun ⟨l, appended, _⟩ => nothing l appended) fun some => none_against some.2,
      iff_of_true ⟨a, z, refused⟩ ⟨none_along, none_against⟩,
      fun l appended => absurd appended (nothing l)⟩

/-- The shop with two relationships to it that have a technology. -/
def tradingShop : Builder :=
  shop.run [.addRelationship ⟨3⟩ ⟨1⟩ "Pays" "HTTPS", .addRelationship ⟨3⟩ ⟨1⟩ "Orders" "HTTPS"]

/-- The shop answers its customer over the relationship with the description, which the
customer has declared after others. -/
theorem interactions_of_shop :
    ∃ v, tradingShop.Reachable ∧ tradingShop.dynamicView "Steps" = .ok v ∧
      v.Seats tradingShop.model (.staticStructure ⟨1⟩) ∧
      v.Seats tradingShop.model (.staticStructure ⟨3⟩) ∧
      ∃ l, Appends (addInteraction "Steps" (.staticStructure ⟨1⟩) (.staticStructure ⟨3⟩) "Orders"
          "HTTPS" none) tradingShop "Steps" l ∧
        l.response = true ∧ l.source = ⟨1⟩ ∧ l.destination = ⟨3⟩ ∧
        ∃ r, tradingShop.model.relationship? l.relationship = some r ∧
          tradingShop.model.Prefers
            (if l.response then Relationship.Backs ⟨3⟩ ⟨1⟩ "HTTPS"
              else Relationship.Backs ⟨1⟩ ⟨3⟩ "HTTPS") "Orders" r := by
  have reachable : tradingShop.Reachable := reachable_shop.leads (leads_iff.mpr ⟨_, rfl⟩)
  obtain ⟨v, asked, seats⟩ : ∃ v, tradingShop.dynamicView "Steps" = .ok v ∧
      ∀ id ∈ [ElementId.mk 1, ElementId.mk 3], v.Seats tradingShop.model (.staticStructure id) :=
    ⟨{ key := "Steps", kind := .dynamic }, by decide +kernel,
      fun id listed => ⟨by revert id; decide +kernel, by revert id; decide +kernel⟩⟩
  have shop_seats := seats ⟨1⟩ (by decide)
  have customer_seats := seats ⟨3⟩ (by decide)
  obtain ⟨-, responds, -, recorded⟩ :=
    interactions_backed reachable asked shop_seats customer_seats "Orders" "HTTPS" none
  obtain ⟨l, appended, response⟩ := responds.mpr (by decide +kernel)
  obtain ⟨source, destination, -, -, r, known, prefers⟩ := recorded l appended
  exact ⟨v, reachable, asked, shop_seats, customer_seats, l, appended, response, source,
    destination, r, known, prefers⟩

end Builder

end Edifice
