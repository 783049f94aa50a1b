import Edifice.Proofs.Builder.Frames

/-!
Decisions and their scopes.

A batch of decisions is checked as a whole before any of it is recorded, and what is
accepted goes to the end of the decisions as it was given (`addDecisions_eq_ok`).  No other
call touches the decisions, so they are those of the accepted batches of a run, one batch
after the other (`decisions_run`), and what a batch is checked for holds of the decisions of
every scope for ever after (`Documented`): each stands under its own scope and id, an element
that decisions are recorded against is never taken away, and neither is a decision that others
link to.
-/

open Edifice.Change

namespace Edifice

/-! ### Checks of a batch -/

section Checks

open Check

variable {recorded : Documentation} {batch : List Decision} {element : Option ElementId}

def Decision.inScope (element : Option ElementId) (d : Decision) : Decision :=
  { d with element }

/-- The decision in its scope, under the scope and its id. -/
def Decision.entry (element : Option ElementId) (d : Decision) :
    (Option ElementId × String) × Decision :=
  ((element, d.id), d.inScope element)

theorem decisionRecorded_iff {id : String} :
    decisionRecorded recorded element id = true ↔ (element, id) ∈ recorded.map Prod.fst := by
  simp [decisionRecorded]

/-- The ids of a batch are accepted when there are no empty ones, and each is new in the
scope and in the batch. -/
theorem checkDecisionIds_eq_ok {earlier : List String} :
    checkDecisionIds recorded element earlier batch = .ok () ↔
      (∀ d ∈ batch, d.id ≠ "" ∧ decisionRecorded recorded element d.id = false ∧
        d.id ∉ earlier) ∧ (batch.map (·.id)).Nodup := by
  induction batch generalizing earlier with
  | nil => simp [checkDecisionIds]
  | cons d rest ih =>
    simp only [checkDecisionIds, refuse_eq_ok, ih, List.forall_mem_cons, List.map_cons,
      List.nodup_cons, List.mem_append, List.mem_singleton, Bool.or_eq_true,
      List.contains_iff_mem, not_or, Bool.not_eq_true]
    constructor
    · rintro ⟨named, ⟨unrecorded, unused⟩, others, distinct⟩
      refine ⟨⟨⟨named, unrecorded, unused⟩, fun x listed => ?_⟩, fun repeated => ?_, distinct⟩
      · obtain ⟨named, unrecorded, new⟩ := others x listed
        exact ⟨named, unrecorded, new.1⟩
      · obtain ⟨x, listed, same⟩ := List.mem_map.mp repeated
        exact (others x listed).2.2.2 same
    · rintro ⟨⟨⟨named, unrecorded, unused⟩, others⟩, single, distinct⟩
      refine ⟨named, ⟨unrecorded, unused⟩, fun x listed => ?_, distinct⟩
      obtain ⟨named, unrecorded, new⟩ := others x listed
      exact ⟨named, unrecorded, new, fun same => single (same ▸ List.mem_map_of_mem listed)⟩

/-- The links of a batch are accepted when each leads to a decision of the batch or of the
scope. -/
theorem checkDecisionLinks_eq_ok :
    checkDecisionLinks recorded element batch = .ok () ↔
      ∀ d ∈ batch, ∀ l ∈ d.links,
        (∃ d' ∈ batch, d'.id = l.1) ∨ decisionRecorded recorded element l.1 = true := by
  have iff : (∀ l ∈ batch.flatMap fun d => d.links.map fun l => (d.id, l.1),
      (batch.any (·.id == l.2) || decisionRecorded recorded element l.2) = true) ↔
      ∀ d ∈ batch, ∀ l ∈ d.links,
        (∃ d' ∈ batch, d'.id = l.1) ∨ decisionRecorded recorded element l.1 = true := by
    simp only [Bool.or_eq_true, List.any_eq_true, beq_iff_eq, List.mem_flatMap]
    constructor
    · exact fun all d listed l linked => all _ ⟨d, listed, List.mem_map_of_mem linked⟩
    · rintro known _ ⟨d, listed, paired⟩
      obtain ⟨l, linked, rfl⟩ := List.mem_map.mp paired
      exact known d listed l linked
  rw [← iff]
  unfold checkDecisionLinks
  dsimp only
  split
  case h_1 id target found =>
    have unknown := List.find?_some found
    have listed := List.mem_of_find?_eq_some found
    simp only [reduceCtorEq, false_iff, not_forall]
    exact ⟨_, listed, by simpa using unknown⟩
  case h_2 found =>
    rw [List.find?_eq_none] at found
    simpa only [true_iff, Bool.not_eq_true', Bool.not_eq_false] using found

/-- No decision that is made link by link links to itself. -/
theorem Decision.Made.ne_of_mem_links {d : Decision} (made : d.Made) {l : String × String}
    (listed : l ∈ d.links) : l.1 ≠ d.id := by
  induction made with
  | plain unlinked =>
    rw [unlinked] at listed
    cases listed
  | linked target description _ ih =>
    unfold Decision.addLink at listed ⊢
    split at listed
    case isTrue own =>
      rw [if_pos own]
      exact ih listed
    case isFalse other =>
      rw [if_neg other]
      rcases mem_of_mem_insertSorted listed with rfl | earlier
      · exact other
      · exact ih earlier

end Checks

namespace Builder

variable {b b' : Builder}

/-! ### Calls -/

/-- Decisions with new ids go to the end of what is recorded. -/
theorem foldl_recordDecision {element : Option ElementId} {batch : List Decision}
    (new : ∀ d ∈ batch, decisionRecorded b.documentation element d.id = false)
    (distinct : (batch.map (·.id)).Nodup) :
    batch.foldl (recordDecision element) b =
      { b with documentation := b.documentation ++ batch.map (·.entry element) } := by
  induction batch generalizing b with
  | nil => simp
  | cons d rest ih =>
    obtain ⟨single, distinct⟩ := List.nodup_cons.mp distinct
    obtain ⟨new, others⟩ := List.forall_mem_cons.mp new
    have last : recordDecision element b d =
        { b with documentation := b.documentation ++ [d.entry element] } := by
      have unused : ∀ e ∈ b.documentation, e.1 ≠ (element, d.id) := by
        intro e listed same
        exact Bool.eq_false_iff.mp new
          (decisionRecorded_iff.mpr (List.mem_map.mpr ⟨e, listed, same⟩))
      rw [recordDecision, putKeyed_of_new unused]
      rfl
    rw [List.foldl_cons, last, ih _ distinct]
    · simp
    · intro x listed
      rw [Bool.eq_false_iff, ne_eq, decisionRecorded_iff, List.map_append]
      intro known
      rcases List.mem_append.mp known with earlier | own
      · exact Bool.eq_false_iff.mp (others x listed) (decisionRecorded_iff.mpr earlier)
      · have same : x.id = d.id := (Prod.mk.inj (List.mem_singleton.mp own)).2
        exact single (List.mem_map.mpr ⟨x, listed, same⟩)

/-- A batch is recorded when its scope, its ids and its links are accepted, and then as a
whole at the end of the decisions. -/
theorem addDecisions_eq_ok {element : Option ElementId} {batch : List Decision} {u : Unit} :
    addDecisions element batch b = .ok u b' ↔
      b.checkDecisionScope element = .ok () ∧
        checkDecisionIds b.documentation element [] batch = .ok () ∧
        checkDecisionLinks b.documentation element batch = .ok () ∧
        b' = { b with documentation := b.documentation ++ batch.map (·.entry element) } := by
  simp only [addDecisions, ask_then_eq_ok, modify_eq_ok]
  constructor
  · rintro ⟨scope, ids, links, rfl⟩
    obtain ⟨new, distinct⟩ := checkDecisionIds_eq_ok.mp ids
    exact ⟨scope, ids, links, foldl_recordDecision (fun d listed => (new d listed).2.1) distinct⟩
  · rintro ⟨scope, ids, links, rfl⟩
    obtain ⟨new, distinct⟩ := checkDecisionIds_eq_ok.mp ids
    exact ⟨scope, ids, links,
      foldl_recordDecision (fun d listed => (new d listed).2.1) distinct⟩

/-- The batch of decisions that a call records, and against what. -/
def Call.batch? : Call → Option (Option ElementId × List Decision)
  | .addDecisions element batch _ => some (element, batch)
  | _ => none

/-- A call that records no batch leaves the decisions alone. -/
theorem Call.keeps_documentation (c : Call) (other : c.batch? = none) :
    c.perform.Keeps fun b : Builder => b.documentation := by
  refine c.keeps_part (fun _ _ same => congrArg (·.documentation) same)
    (fun _ _ _ same => congrArg (·.documentation) same)
    (fun _ _ same => congrArg (·.documentation) same) fun onModel onViews => ?_
  cases c with
  | setName | setDescription | setImpliedRelationships | setScope | setVisibility | addUser =>
    exact .modify fun _ => rfl
  | addWorkspaceProperty | addModelProperty => exact .bind .ask fun _ => .modify fun _ => rfl
  | addDecisions => cases other
  | _ => first | exact absurd rfl onModel | exact absurd rfl onViews

/-! ### Runs -/

def Call.succeeds (c : Call) (b : Builder) : Bool :=
  (c.perform.answer b).toOption.isSome

/-- The batches that calls record one after the other, each with what it is recorded
against. -/
def batches (b : Builder) : List Call → List (Option ElementId × List Decision)
  | [] => []
  | c :: rest =>
    (if c.succeeds b then c.batch?.toList else []) ++ (c.perform.after b).batches rest

def decisionsIn (batches : List (Option ElementId × List Decision)) : List Decision :=
  batches.flatMap fun (element, batch) => batch.map (·.inScope element)

/-- A call adds the decisions of its batch, if it is accepted. -/
theorem Call.decisions_after (c : Call) (b : Builder) :
    (c.perform.after b).decisions =
      b.decisions ++ decisionsIn (if c.succeeds b then c.batch?.toList else []) := by
  unfold Call.succeeds
  cases ran : c.perform b with
  | error e b' =>
    rw [after_of_error ran, c.clean e b' ran, answer_eq_error.mpr (after_of_error ran ▸ ran)]
    exact (List.append_nil _).symm
  | ok a b' =>
    rw [after_of_ok ran, answer_eq_ok.mpr (after_of_ok ran ▸ ran)]
    cases records : c.batch? with
    | none =>
      have same : b'.documentation = b.documentation := c.keeps_documentation records b a b' ran
      rw [Workspace.decisions, same]
      exact (List.append_nil _).symm
    | some recorded =>
      cases c with
      | addDecisions element batch =>
        obtain rfl := Option.some.inj records
        obtain ⟨-, -, -, rfl⟩ := addDecisions_eq_ok.mp ran
        simp [decisionsIn, Except.toOption, Workspace.decisions, Decision.entry]
      | _ => cases records

/-- After a run, the decisions of its batches follow those that were there before. -/
theorem decisions_run (b : Builder) (calls : List Call) :
    (b.run calls).decisions = b.decisions ++ decisionsIn (b.batches calls) := by
  induction calls generalizing b with
  | nil => exact (List.append_nil _).symm
  | cons c rest ih =>
    have later := ih (c.perform.after b)
    rw [c.decisions_after b] at later
    rw [batches, decisionsIn, List.flatMap_append, ← List.append_assoc]
    exact later

/-! ### Scopes -/

/-- Every decision stands under its own scope and id, no two under one; the decisions of a
scope link among themselves, and the elements that decisions are recorded against are there. -/
structure Documented (b : Builder) : Prop where
  own : ∀ e ∈ b.documentation, e.1 = (e.2.element, e.2.id)
  distinct : (b.documentation.map Prod.fst).Nodup
  named : ∀ e ∈ b.documentation, e.2.id ≠ ""
  placed : ∀ e ∈ b.documentation, ∀ id, e.2.element = some id →
    ∃ x ∈ b.model.elements, x.id = id ∧ x.kind.supportsDecisions
  irreflexive : ∀ e ∈ b.documentation, ∀ l ∈ e.2.links, l.1 ≠ e.2.id
  closed : ∀ e ∈ b.documentation, ∀ l ∈ e.2.links,
    (e.2.element, l.1) ∈ b.documentation.map Prod.fst

/-- The invariant is one of the decisions and of a model that may only grow. -/
theorem Documented.of_extends (documented : b.Documented)
    (same : b'.documentation = b.documentation) (extends_ : b.model.Extends b'.model) :
    b'.Documented where
  own := same ▸ documented.own
  distinct := same ▸ documented.distinct
  named := same ▸ documented.named
  placed := by
    intro e listed id scope
    obtain ⟨x, member, own, supports⟩ := documented.placed e (same ▸ listed) id scope
    obtain ⟨x', member', core⟩ := extends_.exists_element member
    obtain ⟨id_eq, kind_eq, -⟩ := Element.core_eq_iff.mp core
    exact ⟨x', member', id_eq.trans own, kind_eq ▸ supports⟩
  irreflexive := same ▸ documented.irreflexive
  closed := same ▸ documented.closed

/-- Decisions may be recorded against an element that is there and of a kind that has them. -/
theorem checkDecisionScope_eq_ok {id : ElementId} :
    b.checkDecisionScope (some id) = .ok () ↔
      ∃ e, b.model.element? id = some e ∧ e.kind.supportsDecisions := by
  simp only [checkDecisionScope, Check.bind_eq_ok, element_eq_ok]
  refine exists_congr fun e => and_congr_right fun _ => ?_
  cases e.kind.supportsDecisions <;> simp [pure, Except.pure]

/-- A batch that is accepted keeps the scopes closed: it brings along what it links to, or
finds it there. -/
theorem Documented.addDecisions (documented : b.Documented) {element : Option ElementId}
    {batch : List Decision} (made : ∀ d ∈ batch, d.Made) {u : Unit}
    (added : addDecisions element batch b = .ok u b') : b'.Documented := by
  obtain ⟨scope, ids, links, rfl⟩ := addDecisions_eq_ok.mp added
  obtain ⟨new, distinct⟩ := checkDecisionIds_eq_ok.mp ids
  have known := checkDecisionLinks_eq_ok.mp links
  have keys : (b.documentation ++ batch.map (·.entry element)).map Prod.fst =
      b.documentation.map Prod.fst ++ batch.map fun d => (element, d.id) := by
    simp [Decision.entry]
  constructor
  case own =>
    exact List.forall_mem_append.mpr ⟨documented.own, List.forall_mem_map.mpr fun _ _ => rfl⟩
  case distinct =>
    rw [keys]
    refine documented.distinct.append ?_ ?_
    · have paired := distinct.map (f := fun id => (element, id)) fun _ _ same =>
        (Prod.mk.inj same).2
      rwa [List.map_map] at paired
    · intro key earlier here
      obtain ⟨d, listed, rfl⟩ := List.mem_map.mp here
      exact Bool.eq_false_iff.mp (new d listed).2.1 (decisionRecorded_iff.mpr earlier)
  case named =>
    refine List.forall_mem_append.mpr ⟨documented.named, ?_⟩
    exact List.forall_mem_map.mpr fun d listed => (new d listed).1
  case placed =>
    refine List.forall_mem_append.mpr ⟨documented.placed, List.forall_mem_map.mpr ?_⟩
    rintro d - id rfl
    obtain ⟨e, found, supports⟩ := checkDecisionScope_eq_ok.mp scope
    obtain ⟨member, own⟩ := Model.element?_eq_some found
    exact ⟨e, member, own, supports⟩
  case irreflexive =>
    refine List.forall_mem_append.mpr ⟨documented.irreflexive, List.forall_mem_map.mpr ?_⟩
    exact fun d listed l linked => (made d listed).ne_of_mem_links linked
  case closed =>
    show ∀ e ∈ b.documentation ++ batch.map (·.entry element), ∀ l ∈ e.2.links,
      (e.2.element, l.1) ∈ (b.documentation ++ batch.map (·.entry element)).map Prod.fst
    rw [keys]
    refine List.forall_mem_append.mpr ⟨fun e listed l linked => ?_,
      List.forall_mem_map.mpr fun d listed l linked => ?_⟩
    · exact List.mem_append_left _ (documented.closed e listed l linked)
    · rcases known d listed l linked with ⟨d', listed', target⟩ | recorded
      · exact List.mem_append_right _ (List.mem_map.mpr ⟨d', listed', congrArg _ target⟩)
      · exact List.mem_append_left _ (decisionRecorded_iff.mp recorded)

/-- A call, refused or not, keeps the scopes closed. -/
theorem Documented.after (documented : b.Documented) (numbered : b.Numbered) (c : Call) :
    (c.perform.after b).Documented := by
  refine c.holds_after documented fun a b' ran => ?_
  cases records : c.batch? with
  | none =>
    exact documented.of_extends (c.keeps_documentation records b a b' ran)
      ((c.evolves numbered ran).extends_ numbered)
  | some recorded =>
    cases c with
    | addDecisions element batch made => exact documented.addDecisions made ran
    | _ => cases records

/-- By induction on the run that leads to the builder. -/
theorem Reachable.documented (reachable : b.Reachable) : b.Documented := by
  obtain ⟨name, description, run⟩ := reachable
  induction run with
  | refl => exact ⟨nofun, .nil, nofun, nofun, nofun, nofun⟩
  | call earlier c ih =>
    exact ih.after (earlier.evolves (numbered_new name description) |>.numbered
      (numbered_new name description)) c

/-- The decisions of a scope are those that are stored under it. -/
theorem Documented.mem_decisionsOf_iff (documented : b.Documented) {scope : Option ElementId}
    {d : Decision} : d ∈ b.decisionsOf scope ↔ ((scope, d.id), d) ∈ b.documentation := by
  simp only [Workspace.decisionsOf, Workspace.decisions, List.mem_filter, List.mem_map,
    beq_iff_eq]
  constructor
  · rintro ⟨⟨⟨key, d⟩, listed, rfl⟩, rfl⟩
    have own : key = (d.element, d.id) := documented.own _ listed
    exact own ▸ listed
  · intro listed
    exact ⟨⟨_, listed, rfl⟩, (Prod.mk.inj (documented.own _ listed)).1.symm⟩

/-- A decision is found in a scope and under an id exactly if these are its own. -/
theorem Documented.decision?_eq_some_iff (documented : b.Documented) {scope : Option ElementId}
    {id : String} {d : Decision} :
    b.decision? scope id = some d ↔ d ∈ b.decisionsOf scope ∧ d.id = id := by
  rw [documented.mem_decisionsOf_iff, Workspace.decision?, Option.map_eq_some_iff]
  constructor
  · rintro ⟨⟨key, d⟩, found, rfl⟩
    obtain rfl : key = (scope, id) := by simpa using List.find?_some found
    have listed := List.mem_of_find?_eq_some found
    obtain rfl : id = d.id := (Prod.mk.inj (documented.own _ listed)).2
    exact ⟨listed, rfl⟩
  · rintro ⟨listed, rfl⟩
    exact ⟨_, find?_key_of_mem documented.distinct listed, rfl⟩

/-- The ids of a scope are distinct, as the keys are and these differ in the ids only. -/
theorem Documented.nodup_ids (documented : b.Documented) (scope : Option ElementId) :
    ((b.decisionsOf scope).map (·.id)).Nodup := by
  have keys : b.documentation.map Prod.fst = b.decisions.map fun d => (d.element, d.id) := by
    rw [Workspace.decisions, List.map_map]
    exact List.map_congr_left documented.own
  have distinct : (b.decisions.map fun d => (d.element, d.id)).Nodup :=
    keys ▸ documented.distinct
  have ids : ((b.decisionsOf scope).map fun d => (d.element, d.id)).Nodup :=
    distinct.sublist (List.filter_sublist.map _)
  have pairs : ((b.decisionsOf scope).map fun d => (d.element, d.id)) =
      ((b.decisionsOf scope).map (·.id)).map fun id => (scope, id) := by
    rw [List.map_map]
    refine List.map_congr_left fun d listed => ?_
    have own := (Prod.mk.inj (documented.own _ (documented.mem_decisionsOf_iff.mp listed))).1
    exact congrArg (·, d.id) own.symm
  exact (pairs ▸ ids).of_map _

/-- **Decisions form closed scopes.**  In every reachable builder, what is found in a scope and
under an id is the decision of the scope that has the id; the decisions recorded against the
workspace, or against one element, have distinct ids, none of them empty; an element that
decisions are recorded against is a software system, a container or a component of the model;
no decision links to itself, and each link leads to a decision of the same scope.  And the decisions of a run are those of the batches that it accepts, in the order of
the batches and of the decisions in each, recorded against what the batch is for. -/
theorem decisions_of_reachable :
    (∀ b : Builder, b.Reachable → ∀ scope,
      (∀ id d, b.decision? scope id = some d ↔ d ∈ b.decisionsOf scope ∧ d.id = id) ∧
      ((b.decisionsOf scope).map (·.id)).Nodup ∧
      ∀ d ∈ b.decisionsOf scope, d.id ≠ "" ∧
        (∀ id, scope = some id → ∃ e ∈ b.model.elements, e.id = id ∧
          (e.kind = .softwareSystem ∨ e.kind = .container ∨ e.kind = .component)) ∧
        ∀ l ∈ d.links, l.1 ≠ d.id ∧ ∃ d', b.decision? scope l.1 = some d') ∧
      ∀ name description calls, ((new name description).run calls).decisions =
        decisionsIn ((new name description).batches calls) := by
  refine ⟨fun b reachable scope => ?_, fun name description calls => ?_⟩
  · have documented := reachable.documented
    refine ⟨fun id d => documented.decision?_eq_some_iff, documented.nodup_ids scope, ?_⟩
    intro d listed
    have recorded := documented.mem_decisionsOf_iff.mp listed
    have own : d.element = scope := (Prod.mk.inj (documented.own _ recorded)).1.symm
    refine ⟨documented.named _ recorded, fun id scope_eq => ?_, fun l linked => ?_⟩
    · obtain ⟨e, member, id_eq, supports⟩ := documented.placed _ recorded id (own.trans scope_eq)
      refine ⟨e, member, id_eq, ?_⟩
      cases kind : e.kind <;> simp_all [ElementKind.supportsDecisions]
    · refine ⟨documented.irreflexive _ recorded l linked, ?_⟩
      obtain ⟨⟨key, d'⟩, listed', target⟩ :=
        List.mem_map.mp (documented.closed _ recorded l linked)
      obtain rfl : key = (scope, l.1) := target.trans (congrArg (·, l.1) own)
      exact ⟨d', congrArg (Option.map Prod.snd) (find?_key_of_mem documented.distinct listed')⟩
  · rw [decisions_run]
    rfl

def firstDecision : Decision :=
  { id := "1", title := "Record decisions" : Decision }.addLink "2" "Amended by"

/-- The second decision of a scope, which amends the first one. -/
def secondDecision : Decision :=
  { id := "2", title := "Record them in files" : Decision }.addLink "1" "Amends"

/-- Batches of decisions about a shop: two that link to each other, one more for the shop
itself under the same id, and the second once again, which is refused. -/
def boardCalls : List Call :=
  [.addSoftwareSystem "Shop" none,
    .addDecisions none [firstDecision, secondDecision]
      (List.forall_mem_cons.mpr ⟨.linked _ _ (.plain rfl),
        List.forall_mem_singleton.mpr (.linked _ _ (.plain rfl))⟩),
    .addDecisions (some ⟨1⟩) [{ id := "1", title := "Sell books" }]
      (List.forall_mem_singleton.mpr (.plain rfl)),
    .addDecisions none [secondDecision]
      (List.forall_mem_singleton.mpr (.linked _ _ (.plain rfl)))]

/-- The decisions of the workspace and of the shop, each under the id `1`; what the first
one links to is there. -/
theorem decisions_of_board :
    ((new "Shop" "").run boardCalls).Reachable ∧
      (((new "Shop" "").run boardCalls).decisionsOf none).map (·.id) = ["1", "2"] ∧
      (((new "Shop" "").run boardCalls).decisionsOf (some ⟨1⟩)).map (·.id) = ["1"] ∧
      (∃ d', ((new "Shop" "").run boardCalls).decision? none "2" = some d') ∧
      ((new "Shop" "").run boardCalls).decisions =
        [firstDecision, secondDecision,
          { id := "1", title := "Sell books", element := some ⟨1⟩ }] := by
  have reachable : ((new "Shop" "").run boardCalls).Reachable :=
    ⟨"Shop", "", leads_iff.mpr ⟨boardCalls, rfl⟩⟩
  obtain ⟨scopes, order⟩ := decisions_of_reachable
  have first : firstDecision ∈ ((new "Shop" "").run boardCalls).decisionsOf none := by
    decide +kernel
  have linked : ("2", "Amended by") ∈ firstDecision.links := by decide +kernel
  have batches : decisionsIn ((new "Shop" "").batches boardCalls) =
      [firstDecision, secondDecision,
        { id := "1", title := "Sell books", element := some ⟨1⟩ }] := by decide +kernel
  have target := ((scopes _ reachable none).2.2 _ first).2.2 _ linked
  exact ⟨reachable, by decide +kernel, by decide +kernel, target.2,
    (order _ _ boardCalls).trans batches⟩

end Builder

end Edifice
