import Edifice.Proofs.Builder.Containment
import Edifice.Proofs.Language.Outlines

/-!
What statements come to, by their form.

Where the model is described, the form of a statement says what is executed
(`Session.States`); for each form, what it comes to is said once here: the element is
declared where its block says (`Block.Holds`), a relationship without a source leads from
the nearest element, and a group inside of another takes the name of that one in front of
its own (`Session.Groups`).
-/

namespace Edifice.Language

open Check Change Session
open Builder (LeadsSilent)

variable {s : Session} {kind : ElementKind} {block : Block} {identifier : Option Token}

/-! ### Forms -/

/-- What a statement comes to where the model is described. -/
inductive Session.States (s : Session) (st : Statement) (block : Block) :
    Form → Option Block × Session → Prop where
  | relationship {identifier : Option Token} {answer : Option Block × Session}
      (executed : executeRelationship s identifier st.declaration = .ok answer) :
      s.States st block (.relationship (st.declaration.tokens.isAt 0 arrow)) answer
  | element {kind : ElementKind} {identifier : Option Token} {answer : Option Block × Session}
      (executed : executeElement s kind identifier st.declaration block = .ok answer) :
      s.States st block (.element kind (st.declaration.tokens.text 1)) answer
  | environment {identifier : Option Token} {answer : Option Block × Session}
      (executed : executeEnvironment s identifier st.declaration block = .ok answer) :
      s.States st block (.environment (st.declaration.tokens.text 1)) answer
  | group {answer : Option Block × Session}
      (executed : executeGroup s st.declaration block = .ok answer) :
      s.States st block (.group (st.declaration.tokens.text 1)) answer
  | settings (here : block = .model) : s.States st block .other (some (.properties .model), s)
  | body {answer : Option Block × Session} (inside : block.element?.isSome)
      (silent : s.Silent answer) : s.States st block .other answer

/-- A declaration states what its form says, form by form. -/
theorem states_executeDeclaration (st : Statement) :
    Gives (executeDeclaration s identifier st.declaration block) (s.States st block st.form) := by
  intro answer executed
  unfold executeDeclaration at executed
  unfold Statement.form
  dsimp only at executed ⊢
  let ts := st.declaration.tokens
  by_cases related : (ts.isAt 0 arrow || ts.isAt 1 arrow) = true
  · rw [if_pos related] at executed ⊢
    exact .relationship executed
  rw [if_neg related] at executed ⊢
  unfold Statement.keyword at executed
  cases named : ElementKind.ofKeyword? (st.declaration.tokens.text 0) with
  | some kind =>
    rw [named] at executed
    exact .element executed
  | none =>
    rw [named] at executed
    dsimp only at executed ⊢
    by_cases environment : st.declaration.tokens.text 0 = "deploymentEnvironment"
    · rw [if_pos environment] at executed ⊢
      exact .environment executed
    rw [if_neg environment] at executed ⊢
    by_cases assigned : identifier.isSome = true
    · rw [if_pos assigned] at executed
      cases executed
    rw [if_neg assigned] at executed
    by_cases grouped : st.declaration.tokens.text 0 = "group"
    · rw [if_pos grouped] at executed ⊢
      exact .group executed
    rw [if_neg grouped] at executed ⊢
    by_cases set : st.declaration.tokens.text 0 = "properties" ∧ block = .model
    · rw [if_pos set] at executed
      obtain ⟨-, executed⟩ := then_eq_ok.mp executed
      obtain rfl := Except.ok.inj executed
      exact .settings set.2
    rw [if_neg set] at executed
    cases body : block.element? with
    | none =>
      rw [body] at executed
      cases executed
    | some id =>
      rw [body] at executed
      exact .body (by rw [body]; rfl) (silent_executeElementBody id _ block answer executed)

/-- A statement of the model is executed as a declaration, assigned to its identifier. -/
theorem declares_executeModel (st : Statement) :
    Gives (executeModel s st block) fun answer =>
      executeDeclaration s st.identifier? st.declaration block = .ok answer := by
  intro answer executed
  unfold executeModel at executed
  unfold Statement.identifier? Statement.declaration
  by_cases assigned : st.tokens.isAt 1 assignment = true
  · rw [if_pos assigned] at executed ⊢
    dsimp only at executed
    split at executed
    · cases executed
    · rwa [if_pos assigned]
  · rw [if_neg assigned] at executed ⊢
    rwa [if_neg assigned]

theorem states_executeModel (st : Statement) :
    Gives (executeModel s st block) (s.States st block st.form) := fun answer executed =>
  states_executeDeclaration st answer (declares_executeModel st answer executed)

/-! ### Elements -/

/-- An element of the kind that is declared in the block lies in `parent` and in
`environment`. -/
inductive Block.Holds (m : Model) :
    Block → ElementKind → Option ElementId → Option String → Prop where
  | model {kind : ElementKind} (static : kind.isDeployment = false) :
      Holds m .model kind none none
  | group {name : String} {parent : Option ElementId} {kind : ElementKind}
      (static : kind.isDeployment = false) : Holds m (.group name parent) kind parent none
  | element {id : ElementId} {kind : ElementKind} (static : kind.isDeployment = false) :
      Holds m (.element id) kind (some id) none
  | environment (name : String) :
      Holds m (.deploymentEnvironment name) .deploymentNode none (some name)
  | node (id : ElementId) (environment : String) :
      Holds m (.deploymentNode id environment) .deploymentNode (some id) (some environment)
  | deployed {id : ElementId} {environment : String} {kind : ElementKind} {p : Element}
      (deployment : kind.isDeployment = true) (other : kind ≠ .deploymentNode)
      (found : m.element? id = some p) :
      Holds m (.deploymentNode id environment) kind (some id) p.environment

/-- The statement `ts` has declared the element `id` in the block. -/
structure Session.Houses (s : Session) (kind : ElementKind) (block : Block) (ts : Tokens)
    (id : ElementId) (s' : Session) : Prop where
  same : s' = s.withBuilder s'.builder
  next : id = ⟨s.builder.nextId⟩
  draft : ∃ draft, s.builder.Enters draft s'.builder ∧ draft.kind = kind ∧
    (kind.isInstance = false → draft.name = ts.text 1) ∧ draft.group = s.frames.group? ∧
    block.Holds s.builder.model kind draft.parent draft.environment

/-- An instance is of an element of the kind that such instances deploy. -/
theorem deployable_resolveDeployable (kind : ElementKind) (ts : Tokens) :
    Gives (resolveDeployable s kind ts) fun id =>
      ∃ e, s.builder.model.element? id = some e ∧ e.kind.instanceKind? = some kind := by
  intro id resolved
  unfold resolveDeployable at resolved
  split at resolved
  · cases resolved
  · obtain ⟨id', -, resolved⟩ := bind_eq_ok.mp resolved
    obtain ⟨e, found, resolved⟩ := bind_eq_ok.mp resolved
    by_cases deploys : e.kind.instanceKind? = some kind
    · rw [if_pos deploys] at resolved
      obtain rfl := Except.ok.inj resolved
      exact ⟨e, element_eq_ok.mp found, deploys⟩
    · rw [if_neg deploys] at resolved
      cases resolved

/-- An element that is inserted is housed in the block, with the name and the group of its
line. -/
theorem houses_insertElement (numbered : s.builder.Numbered) {draft : Element} {ts : Tokens}
    (kind_eq : draft.kind = kind) (name : kind.isInstance = false → draft.name = ts.text 1)
    (group : draft.group = s.frames.group?)
    (holds : block.Holds s.builder.model kind draft.parent draft.environment) (span : Span) :
    Gives (s.buildWith span (Builder.insertElement draft)) fun answer =>
      s.Houses kind block ts answer.1 answer.2 := by
  rintro ⟨id, s'⟩ built
  obtain ⟨b, inserted, rfl⟩ := buildWith_eq_ok.mp built
  obtain ⟨enters, next⟩ := Builder.enters_insertElement numbered inserted
  exact ⟨rfl, next, draft, enters, kind_eq, name, group, holds⟩

theorem houses_addInfrastructureNode (numbered : s.builder.Numbered) {node : ElementId}
    {environment : String} (here : s.frames.block? = some (.deploymentNode node environment))
    (ts : Tokens) (span : Span) :
    Gives (s.buildWith span (Builder.addInfrastructureNode node (ts.text 1))) fun answer =>
      s.Houses .infrastructureNode (.deploymentNode node environment) ts answer.1 answer.2 := by
  rintro ⟨id, s'⟩ built
  obtain ⟨b, added, rfl⟩ := buildWith_eq_ok.mp built
  obtain ⟨p, found, next, enters⟩ := Builder.enters_addInfrastructureNode numbered added
  refine ⟨rfl, next, _, enters, rfl, fun _ => rfl, ?_, .deployed (p := p) rfl (by decide) found⟩
  rw [Frames.group?, here]
  rfl

/-- An instance is housed on the node of its block, in the environment of that. -/
theorem houses_addInstance (numbered : s.builder.Numbered) {node of : ElementId}
    {environment : String} (here : s.frames.block? = some (.deploymentNode node environment))
    (deployable : ∃ e, s.builder.model.element? of = some e ∧ e.kind.instanceKind? = some kind)
    (ts : Tokens) (span : Span) :
    Gives (s.buildWith span (Builder.addInstance node of)) fun answer =>
      s.Houses kind (.deploymentNode node environment) ts answer.1 answer.2 := by
  rintro ⟨id, s'⟩ built
  obtain ⟨e, known, deploys⟩ := deployable
  obtain ⟨b, added, rfl⟩ := buildWith_eq_ok.mp built
  obtain ⟨draft, answer, next, enters⟩ := Builder.enters_addInstance numbered added
  obtain ⟨e', kind', p, known', deploys', found, -, rfl⟩ := Builder.instanceDraft_eq_ok answer
  obtain rfl := Option.some.inj (known.symm.trans known')
  obtain rfl := Option.some.inj (deploys.symm.trans deploys')
  have placed := ElementKind.isInstance_of_instanceKind? deploys
  refine ⟨rfl, next, _, enters, rfl, ?_, ?_, .deployed (p := p) ?_ ?_ found⟩
  · intro other
    rw [placed] at other
    cases other
  · rw [Frames.group?, here]
    rfl
  · cases kind <;> first | rfl | cases placed
  · rintro rfl
    cases placed

/-- A declaration puts its element where its block says. -/
theorem houses_declare (numbered : s.builder.Numbered) (here : s.frames.block? = some block)
    (ts : Tokens) :
    Gives (declare s kind block ts) fun answer => s.Houses kind block ts answer.1 answer.2 := by
  unfold declare
  split
  · exact houses_insertElement numbered rfl (fun _ => rfl) rfl (.model rfl) _
  · exact houses_insertElement numbered rfl (fun _ => rfl) rfl (.group rfl) _
  · exact houses_insertElement numbered rfl (fun _ => rfl) rfl (.model rfl) _
  · exact houses_insertElement numbered rfl (fun _ => rfl) rfl (.group rfl) _
  · exact houses_insertElement numbered rfl (fun _ => rfl) rfl (.model rfl) _
  · exact houses_insertElement numbered rfl (fun _ => rfl) rfl (.group rfl) _
  · exact houses_insertElement numbered rfl (fun _ => rfl) rfl (.element rfl) _
  · exact houses_insertElement numbered rfl (fun _ => rfl) rfl (.group rfl) _
  · exact houses_insertElement numbered rfl (fun _ => rfl) rfl (.element rfl) _
  · exact houses_insertElement numbered rfl (fun _ => rfl) rfl (.group rfl) _
  · refine houses_insertElement numbered rfl (fun _ => rfl) ?_ (.environment _) _
    rw [Frames.group?, here]
    rfl
  · refine houses_insertElement numbered rfl (fun _ => rfl) ?_ (.node _ _) _
    rw [Frames.group?, here]
    rfl
  · exact houses_addInfrastructureNode numbered here ts _
  · exact .bind (deployable_resolveDeployable _ ts) fun _ deployable =>
      houses_addInstance numbered here deployable ts _
  · exact .bind (deployable_resolveDeployable _ ts) fun _ deployable =>
      houses_addInstance numbered here deployable ts _
  · exact .error

/-- The declaration of an element opens its body. -/
theorem houses_executeElement (numbered : s.builder.Numbered)
    (here : s.frames.block? = some block) (st : Statement) :
    Gives (executeElement s kind identifier st block) fun answer =>
      ∃ id s₁, s.Houses kind block st.tokens id s₁ ∧
        answer.1 = some (bodyOf kind block id) ∧ LeadsSilent s₁.builder answer.2.builder ∧
          answer.2.frames = s.frames := by
  intro answer executed
  obtain ⟨id, s₁, s₂, declared, quiet, bound, opens⟩ :=
    steps_executeElement kind identifier st block answer executed
  have houses : s.Houses kind block st.tokens id s₁ := houses_declare numbered here _ _ declared
  have same := same_bindElement _ _ _ bound
  refine ⟨id, s₁, houses, opens, ?_, ?_⟩
  · rw [same]
    exact quiet.run
  · rw [same]
    refine quiet.frames.trans ?_
    rw [houses.same]
    rfl

/-! ### Relationships -/

/-- Where the source of a relationship is left out, it is the nearest element. -/
theorem source_resolveSource (ts : Tokens) :
    Gives (resolveSource s ts) fun answer =>
      ts.isAt 0 arrow = true → s.frames.element? = some answer.1 := by
  intro answer resolved outgoing
  unfold resolveSource at resolved
  rw [if_pos outgoing] at resolved
  obtain ⟨-, resolved⟩ := then_eq_ok.mp resolved
  split at resolved
  case h_1 source nearest =>
    obtain rfl := Except.ok.inj resolved
    exact nearest
  case h_2 => cases resolved

/-- A line with an arrow relates what stands before it, or what the block is about, to what
stands after it. -/
theorem relates_executeRelationship (numbered : s.builder.Numbered) (st : Statement) :
    Gives (executeRelationship s identifier st) fun answer =>
      ∃ source b id, s.builder.Relates source b ∧
        (st.tokens.isAt 0 arrow = true → s.frames.element? = some source) ∧
          answer.1 = some (.relationship id) ∧ LeadsSilent b answer.2.builder ∧
            answer.2.frames = s.frames := by
  intro answer executed
  obtain ⟨source, rest, destination, description, technology, id, s₁, s₂, resolved, added, quiet,
    bound, opens⟩ := steps_executeRelationship identifier st answer executed
  obtain ⟨b, built, rfl⟩ := buildWith_eq_ok.mp added
  have nearest := source_resolveSource st.tokens _ resolved
  have same := same_bindRelationship _ _ _ bound
  refine ⟨source, b, id, Builder.relates_addRelationship numbered built, nearest, opens, ?_, ?_⟩
  · rw [same]
    exact quiet.run
  · rw [same]
    exact quiet.frames

/-! ### Groups and environments -/

/-- The block that a group with a name of its own opens inside of another block. -/
inductive Session.Groups (s : Session) (own : String) : Block → Block → Prop where
  | model : s.Groups own .model (.group own none)
  | element {id : ElementId} {e : Element} (found : s.builder.model.element? id = some e)
      (supports : e.kind.supportsGroups = true) :
      s.Groups own (.element id) (.group own (some id))
  | group {outer separator : String} {parent : Option ElementId}
      (separated : s.builder.model.groupSeparator? = some separator) :
      s.Groups own (.group outer parent) (.group (outer ++ separator ++ own) parent)

theorem groups_executeGroup (st : Statement) :
    Gives (executeGroup s st block) fun answer =>
      ∃ inner, s.Groups (st.tokens.text 1) block inner ∧ answer = (some inner, s) := by
  refine .after fun _ => .after fun _ => ?_
  split
  · exact .ok ⟨_, .model, rfl⟩
  · intro answer executed
    obtain ⟨e, found, executed⟩ := bind_eq_ok.mp executed
    split at executed
    case isTrue supports =>
      obtain rfl := Except.ok.inj executed
      exact ⟨_, .element (element_eq_ok.mp found) supports, rfl⟩
    case isFalse => cases executed
  · split
    case h_1 separated => exact .ok ⟨_, .group separated, rfl⟩
    case h_2 => exact .error
  · exact .error

/-- The opening of an environment only names it. -/
theorem opens_executeEnvironment (st : Statement) :
    Gives (executeEnvironment s identifier st block) fun answer =>
      block = .model ∧ answer.1 = some (.deploymentEnvironment (st.tokens.text 1)) ∧
        answer.2.builder = s.builder ∧ answer.2.frames = s.frames := by
  intro answer executed
  unfold executeEnvironment at executed
  dsimp only at executed
  by_cases here : block = .model
  · rw [if_neg (not_not_intro here)] at executed
    obtain ⟨-, executed⟩ := then_eq_ok.mp executed
    obtain ⟨-, executed⟩ := then_eq_ok.mp executed
    split at executed
    · cases executed
    · obtain ⟨s₁, named, executed⟩ := bind_eq_ok.mp executed
      obtain rfl := Except.ok.inj executed
      rw [same_nameEnvironment _ _ _ named]
      exact ⟨here, rfl, rfl, rfl⟩
  · rw [if_pos here] at executed
    cases executed

/-! ### Outside of the model -/

/-- A statement outside of all blocks opens the workspace. -/
theorem quiet_executeRoot (st : Statement) :
    Gives (executeRoot s st) fun answer => s.Quiet answer.2 ∧ answer.1 = some .workspace := by
  unfold executeRoot
  refine .unless (.unless ?_)
  exact .after fun _ => .after fun _ => .ok ⟨quiet_entitle _ _, rfl⟩

/-- Only the keyword opens the model. -/
theorem quiet_executeWorkspace (st : Statement) :
    Gives (executeWorkspace s st) fun answer => s.Quiet answer.2 ∧
      ∀ block, answer.1 = some block →
        if st.keyword = "model" then block = .model else block.shapesModel = false := by
  have silent : ∀ {x : Execution}, Gives x s.Silent → st.keyword ≠ "model" →
      Gives x fun answer => s.Quiet answer.2 ∧ ∀ block, answer.1 = some block →
        if st.keyword = "model" then block = .model else block.shapesModel = false := by
    intro x silent other answer executed
    obtain ⟨quiet, shapeless⟩ := silent answer executed
    exact ⟨quiet, fun block opened => by rw [if_neg other]; exact shapeless block opened⟩
  have views : s.Quiet { s with hasViews := true } := ⟨.refl, rfl, rfl, rfl⟩
  unfold executeWorkspace
  split
  case h_1 named => exact silent (.after fun _ => (quiet_entitle _ _).done) (by simp [named])
  case h_2 named => exact silent (.after fun _ => (quiet_entitle _ _).done) (by simp [named])
  case h_3 named => exact silent (.after fun _ => silent_opening rfl) (by simp [named])
  case h_4 named =>
    refine .after fun _ => .unless (.ok ⟨⟨.refl, rfl, rfl, rfl⟩, ?_⟩)
    rintro _ ⟨⟩
    rw [if_pos named]
  case h_5 named => exact silent (.after fun _ => .unless (views.opening rfl)) (by simp [named])
  case h_6 named => exact silent (.after fun _ => silent_opening rfl) (by simp [named])
  case h_7 => exact .error

/-- A line of the properties of the model sets one of them. -/
theorem sets_executeProperty (st : Statement) :
    Gives (executeProperty s .model st) fun answer => answer.1 = none ∧
      ∃ b, Builder.addModelProperty (st.tokens.text 0) (st.tokens.text 1) s.builder = .ok () b ∧
        answer.2 = s.withBuilder b := by
  refine .after fun _ answer executed => ?_
  obtain ⟨s', set, executed⟩ := bind_eq_ok.mp executed
  obtain rfl := Except.ok.inj executed
  exact ⟨rfl, build_eq_ok.mp set⟩

end Edifice.Language
