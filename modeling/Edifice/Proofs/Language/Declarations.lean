import Edifice.Language.Execution
import Edifice.Proofs.Builder.Declarations

/-!
What statements declare.

A statement declares an element, a relationship or a deployment environment, sets a property
of the model, or does nothing to the model at all (`Session.Enacts`).  A declaration makes one
call, says more about what it has declared by silent calls, and binds its identifier.  All
other statements leave names, environments and open blocks alone and change the workspace by
silent calls; most of them open no block that anything of the model stands in
(`Session.Silent`).
-/

namespace Edifice.Language

open Check Change
open Builder (Call LeadsSilent)

def Statement.identifier? (st : Statement) : Option Token :=
  if st.tokens.isAt 1 assignment then st.tokens.head? else none

/-- Whether declarations or settings of the model stand in the block, directly or further
inside. -/
def Block.shapesModel : Block → Bool
  | .workspace | .model | .group .. | .element _ | .deploymentEnvironment _ | .deploymentNode ..
  | .properties .model => true
  | _ => false

theorem Block.element?_of_shapeless {block : Block} (shapeless : block.shapesModel = false) :
    block.element? = none := by
  cases block <;> first | rfl | cases shapeless

namespace Session

/-- Silent calls have led from `s` to `s'`, in which the same names and environments are
known and the same blocks open. -/
structure Quiet (s s' : Session) : Prop where
  run : LeadsSilent s.builder s'.builder
  registry : s'.registry = s.registry
  environments : s'.environments = s.environments
  frames : s'.frames = s.frames

/-- What a statement comes to that does nothing to the model. -/
structure Silent (s : Session) (answer : Option Block × Session) : Prop where
  quiet : s.Quiet answer.2
  /-- Nothing of the model stands in the block that it may open. -/
  shapeless : ∀ block, answer.1 = some block → block.shapesModel = false

/-- One call has declared the element `id`, and nothing but the workspace has changed. -/
structure Entered (s : Session) (id : ElementId) (s' : Session) : Prop where
  call : ∃ (c : Call) (a : c.Answer), c.perform s.builder = .ok a s'.builder ∧ c.entered a = [id]
  same : s' = s.withBuilder s'.builder

/-- What a statement comes to that may be assigned to an identifier. -/
inductive Enacts (s : Session) (identifier : Option Token) : Option Block × Session → Prop where
  | silent {answer : Option Block × Session} (silent : s.Silent answer) : s.Enacts identifier answer
  /-- A block is opened that is the body of no element. -/
  | opens {block : Block} {s' : Session} (quiet : s.Quiet s') (plain : block.element? = none) :
      s.Enacts identifier (some block, s')
  | setting {name value : String} {span : Span} {s' : Session}
      (here : s.frames.block? = some (.properties .model))
      (set : s.build span (Builder.addModelProperty name value) = .ok s') :
      s.Enacts identifier (none, s')
  | environment {name : String} {s' : Session}
      (named : s.nameEnvironment identifier name = .ok s') :
      s.Enacts identifier (some (.deploymentEnvironment name),
        { s' with environments := s'.environments.insert name name })
  | relationship {source destination : ElementId} {description technology : String} {span : Span}
      {id : RelationshipId} {s₁ s₂ s' : Session}
      (added : s.buildWith span
        (Builder.addRelationship source destination description technology) = .ok (id, s₁))
      (tagged : s₁.Quiet s₂) (bound : s₂.bindRelationship identifier id = .ok s') :
      s.Enacts identifier (some (.relationship id), s')
  | element {kind : ElementKind} {block : Block} {id : ElementId} {s₁ s₂ s' : Session}
      (here : s.frames.block? = some block) (entered : s.Entered id s₁)
      (described : s₁.Quiet s₂) (bound : s₂.bindElement identifier id = .ok s') :
      s.Enacts identifier (some (bodyOf kind block id), s')

variable {s s' s'' : Session}

theorem Quiet.refl : s.Quiet s :=
  ⟨.refl, rfl, rfl, rfl⟩

theorem Quiet.trans (first : s.Quiet s') (second : s'.Quiet s'') : s.Quiet s'' where
  run := first.run.trans second.run
  registry := second.registry.trans first.registry
  environments := second.environments.trans first.environments
  frames := second.frames.trans first.frames

theorem Quiet.done (quiet : s.Quiet s') : Gives s'.done s.Silent :=
  .ok ⟨quiet, fun _ opened => nomatch opened⟩

theorem Quiet.opening (quiet : s.Quiet s') {block : Block}
    (shapeless : block.shapesModel = false) : Gives (s'.opening block) s.Silent := by
  refine .ok ⟨quiet, ?_⟩
  rintro _ ⟨⟩
  exact shapeless

/-- A statement that changes nothing but opens a block. -/
theorem silent_opening {block : Block} (shapeless : block.shapesModel = false) :
    Gives (s.opening block) s.Silent :=
  Quiet.refl.opening shapeless

/-- What answers without a declaration enacts nothing. -/
theorem enacts_of_silent {x : Execution} {identifier : Option Token} (silent : Gives x s.Silent) :
    Gives x (s.Enacts identifier) :=
  fun answer executed => .silent (silent answer executed)

/-- A statement that opens a block in which the model goes on. -/
theorem enacts_opening {identifier : Option Token} (quiet : s.Quiet s') {block : Block}
    (plain : block.element? = none) : Gives (s'.opening block) (s.Enacts identifier) := by
  rintro _ ⟨⟩
  exact .opens quiet plain

/-! ### Changes -/

/-- An element that a session finds is one of its model. -/
theorem element_eq_ok {id : ElementId} {span : Span} {e : Element} :
    s.element id span = .ok e ↔ s.builder.model.element? id = some e := by
  rw [← Builder.element_eq_ok, Session.element]
  split
  case h_1 found => simp [found]
  case h_2 missing => simp [missing]

theorem buildWith_eq_ok {α : Type} {c : Change Builder α} {span : Span} {a : α} :
    s.buildWith span c = .ok (a, s') ↔
      ∃ b, c s.builder = .ok a b ∧ s' = s.withBuilder b := by
  unfold buildWith
  split
  case h_1 a' b ran => simp [ran, eq_comm]
  case h_2 e b ran => simp [ran]

theorem build_eq_ok {c : Change Builder Unit} {span : Span} :
    s.build span c = .ok s' ↔ ∃ b, c s.builder = .ok () b ∧ s' = s.withBuilder b := by
  unfold build
  cases built : s.buildWith span c with
  | error d =>
    have refused : ¬ ∃ b, c s.builder = .ok () b ∧ s' = s.withBuilder b := by
      intro ran
      rw [buildWith_eq_ok.mpr ran] at built
      cases built
    simp [Except.map, refused]
  | ok answer =>
    obtain ⟨⟨⟩, s₁⟩ := answer
    rw [← buildWith_eq_ok, built]
    simp [Except.map]

theorem quiet_buildWith {α : Type} {c : Change Builder α} (moves : c.Moves LeadsSilent)
    (span : Span) : Gives (s.buildWith span c) fun answer => s.Quiet answer.2 := by
  intro answer built
  obtain ⟨b, ran, own⟩ := buildWith_eq_ok.mp built
  rw [own]
  exact ⟨moves _ _ _ ran, rfl, rfl, rfl⟩

theorem quiet_build {c : Change Builder Unit} (moves : c.Moves LeadsSilent) (span : Span) :
    Gives (s.build span c) s.Quiet :=
  .map (quiet_buildWith moves span)

/-- One silent call. -/
theorem quiet_call (c : Call) (silent : c.isSilent = true) (span : Span) :
    Gives (s.buildWith span c.perform) fun answer => s.Quiet answer.2 :=
  quiet_buildWith (c.moves_silent silent) span

/-- A change by silent calls after others. -/
theorem Quiet.build (quiet : s.Quiet s') {c : Change Builder Unit} (moves : c.Moves LeadsSilent)
    (span : Span) : Gives (s'.build span c) s.Quiet :=
  fun _ answer => quiet.trans (quiet_build moves span _ answer)

/-- A statement that makes one change by silent calls. -/
theorem silent_build {c : Change Builder Unit} (moves : c.Moves LeadsSilent) (span : Span) :
    Gives (s.build span c >>= Session.done) s.Silent :=
  .bind (quiet_build moves span) fun _ quiet => quiet.done

/-- One call that is never refused. -/
theorem quiet_withBuilder {f : Builder → Builder}
    (moves : (modify f : Change Builder Unit).Moves LeadsSilent) :
    s.Quiet (s.withBuilder (f s.builder)) :=
  ⟨moves s.builder () (f s.builder) rfl, rfl, rfl, rfl⟩

/-! ### Names -/

/-- Binding a name changes nothing else. -/
theorem same_register (t : Token) (binding : Binding) (scope : Scope) :
    Gives (s.register t binding scope) fun s' => s' = { s with registry := s'.registry } := by
  unfold register
  refine .ite .error ?_
  split
  · exact .ok rfl
  · exact .error

theorem same_bindElement (identifier : Option Token) (id : ElementId) :
    Gives (s.bindElement identifier id) fun s' => s' = { s with registry := s'.registry } := by
  cases identifier with
  | none => exact .ok rfl
  | some t => exact same_register t _ _

theorem same_bindRelationship (identifier : Option Token) (id : RelationshipId) :
    Gives (s.bindRelationship identifier id) fun s' =>
      s' = { s with registry := s'.registry } := by
  cases identifier with
  | none => exact .ok rfl
  | some t => exact same_register t _ _

/-- Naming an environment changes nothing else. -/
theorem same_nameEnvironment (identifier : Option Token) (name : String) :
    Gives (s.nameEnvironment identifier name) fun s' =>
      s' = { s with environments := s'.environments } := by
  cases identifier with
  | none => exact .ok rfl
  | some t => exact .ite .error (.ite .error (.ok rfl))

end Session

open Session

variable {s : Session} {colors : ColorReader}

/-! ### Items -/

theorem silent_executeItem (ref : ItemRef) (st : Statement) :
    Gives (executeItem s ref st) s.Silent := by
  unfold executeItem
  split
  · refine .unless (.bind (P := s.Quiet) (.foldlM ?_ .refl) fun _ quiet => quiet.done)
    exact fun t _ quiet => quiet.build (Call.moves_silent (.addTags ref t.text) rfl) t.span
  · exact .after fun _ => silent_build (Call.moves_silent (.setUrl ref _) rfl) _
  · exact .after fun _ => silent_opening rfl
  · exact .after fun _ => silent_opening rfl
  · exact .error

theorem moves_addPropertyTo {target : PropertyTarget} (other : target ≠ .model)
    (name value : String) : (addPropertyTo target name value).Moves LeadsSilent := by
  cases target with
  | workspace => exact Call.moves_silent (.addWorkspaceProperty name value) rfl
  | model => exact absurd rfl other
  | item ref => exact Call.moves_silent (.addProperty ref name value) rfl
  | view key => exact Call.moves_silent (.addViewProperty key name value) rfl
  | views => exact Call.moves_silent (.addViewsProperty name value) rfl
  | elementStyle tag => exact Call.moves_silent (.updateElementStyle tag _) rfl
  | relationshipStyle tag => exact Call.moves_silent (.updateRelationshipStyle tag _) rfl

theorem silent_executeProperty {target : PropertyTarget} (other : target ≠ .model)
    (st : Statement) : Gives (executeProperty s target st) s.Silent :=
  .after fun _ => silent_build (moves_addPropertyTo other _ _) _

theorem enacts_executeProperty {target : PropertyTarget} (identifier : Option Token)
    (st : Statement) (here : s.frames.block? = some (.properties target)) :
    Gives (executeProperty s target st) (s.Enacts identifier) := by
  by_cases other : target = .model
  · subst other
    refine .after fun _ answer executed => ?_
    obtain ⟨s', set, executed⟩ := bind_eq_ok.mp executed
    obtain rfl := Except.ok.inj executed
    exact .setting here set
  · exact enacts_of_silent (silent_executeProperty other st)

theorem silent_executePerspective (ref : ItemRef) (st : Statement) :
    Gives (executePerspective s ref st) s.Silent :=
  .after fun _ => silent_build (Call.moves_silent (.addPerspective ref _) rfl) _

/-! ### Relationships -/

theorem quiet_tagRelationship (id : RelationshipId) (tags : Option Token) :
    Gives (s.tagRelationship id tags) s.Quiet := by
  cases tags with
  | none => exact .ok .refl
  | some t =>
    exact .ite (.ok .refl) (quiet_build (Call.moves_silent (.addTags (.relationship id) _) rfl) _)

/-- The declaration of a relationship adds it, tags it and binds it, one after the other. -/
theorem steps_executeRelationship (identifier : Option Token) (st : Statement) :
    Gives (executeRelationship s identifier st) fun answer =>
      ∃ source rest destination description technology id s₁ s₂,
        resolveSource s st.tokens = .ok (source, rest) ∧
          s.buildWith st.span (Builder.addRelationship source destination description technology) =
            .ok (id, s₁) ∧
          s₁.Quiet s₂ ∧ s₂.bindRelationship identifier id = .ok answer.2 ∧
            answer.1 = some (.relationship id) := by
  intro answer executed
  obtain ⟨⟨source, rest⟩, resolved, executed⟩ := bind_eq_ok.mp executed
  cases rest with
  | nil => cases executed
  | cons t rest =>
    obtain ⟨destination, -, executed⟩ := bind_eq_ok.mp executed
    obtain ⟨⟨id, s₁⟩, added, executed⟩ := bind_eq_ok.mp executed
    obtain ⟨s₂, tagged, executed⟩ := bind_eq_ok.mp executed
    obtain ⟨s₃, bound, executed⟩ := bind_eq_ok.mp executed
    obtain rfl := Except.ok.inj executed
    exact ⟨source, _, destination, _, _, id, s₁, s₂, resolved, added,
      quiet_tagRelationship id _ s₂ tagged, bound, rfl⟩

theorem enacts_executeRelationship (identifier : Option Token) (st : Statement) :
    Gives (executeRelationship s identifier st) (s.Enacts identifier) := by
  rintro ⟨_, s₃⟩ executed
  obtain ⟨source, rest, destination, description, technology, id, s₁, s₂, -, added, quiet, bound,
    rfl⟩ := steps_executeRelationship identifier st _ executed
  exact .relationship added quiet bound

/-! ### Elements -/

theorem quiet_setInstances (id : ElementId) (t : Token) :
    Gives (s.setInstances id t) s.Quiet :=
  .ite (quiet_build (Call.moves_silent (.setInstances id t.text) rfl) _) .error

theorem quiet_describe (id : ElementId) (detail : Detail × Token) :
    Gives (s.describe id detail) s.Quiet := by
  refine .ite (.ok .refl) ?_
  split
  · exact .ok .refl
  · exact quiet_build (Call.moves_silent (.setElementDescription id _) rfl) _
  · exact quiet_build (Call.moves_silent (.setElementTechnology id _) rfl) _
  · exact quiet_build (Call.moves_silent (.addTags (.element id) _) rfl) _
  · exact quiet_setInstances id _

/-- A call that answers with the element it declares. -/
theorem entered_buildWith {c : Call} {declared : c.Answer → ElementId}
    (entered : ∀ a, c.entered a = [declared a]) (span : Span) :
    Gives (s.buildWith span c.perform) fun answer => s.Entered (declared answer.1) answer.2 := by
  intro answer built
  obtain ⟨b, ran, own⟩ := buildWith_eq_ok.mp built
  rw [own]
  exact ⟨⟨c, answer.1, ran, entered _⟩, rfl⟩

/-- A declaration is one call, made with the scope and the group that the open blocks give. -/
theorem entered_declare (kind : ElementKind) (block : Block) (ts : Tokens) :
    Gives (declare s kind block ts) fun answer => s.Entered answer.1 answer.2 := by
  have entered : ∀ {c : Call} {declared : c.Answer → ElementId},
      (∀ a, c.entered a = [declared a]) → Gives (s.buildWith (ts.span 1) c.perform)
        fun answer => s.Entered (declared answer.1) answer.2 := fun own =>
    entered_buildWith own _
  unfold declare
  split
  · exact entered (c := .addPerson _ _) fun _ => rfl
  · exact entered (c := .addPerson _ _) fun _ => rfl
  · exact entered (c := .addSoftwareSystem _ _) fun _ => rfl
  · exact entered (c := .addSoftwareSystem _ _) fun _ => rfl
  · exact entered (c := .addCustomElement _ _ _) fun _ => rfl
  · exact entered (c := .addCustomElement _ _ _) fun _ => rfl
  · exact entered (c := .addContainer _ _ _) fun _ => rfl
  · exact entered (c := .addContainer _ _ _) fun _ => rfl
  · exact entered (c := .addComponent _ _ _) fun _ => rfl
  · exact entered (c := .addComponent _ _ _) fun _ => rfl
  · exact entered (c := .addDeploymentNode _ none _) fun _ => rfl
  · exact entered (c := .addDeploymentNode _ (some _) _) fun _ => rfl
  · exact entered (c := .addInfrastructureNode _ _) fun _ => rfl
  · exact .after fun _ => entered (c := .addInstance _ _) fun _ => rfl
  · exact .after fun _ => entered (c := .addInstance _ _) fun _ => rfl
  · exact .error

/-- The declaration of an element declares it, describes it and binds it, one after the
other. -/
theorem steps_executeElement (kind : ElementKind) (identifier : Option Token) (st : Statement)
    (block : Block) :
    Gives (executeElement s kind identifier st block) fun answer =>
      ∃ id s₁ s₂, declare s kind block st.tokens = .ok (id, s₁) ∧ s₁.Quiet s₂ ∧
        s₂.bindElement identifier id = .ok answer.2 ∧
          answer.1 = some (bodyOf kind block id) := by
  refine .after fun _ answer executed => ?_
  obtain ⟨⟨id, s₁⟩, declared, executed⟩ := bind_eq_ok.mp executed
  obtain ⟨s₂, described, executed⟩ := bind_eq_ok.mp executed
  obtain ⟨s₃, bound, executed⟩ := bind_eq_ok.mp executed
  obtain rfl := Except.ok.inj executed
  have quiet : s₁.Quiet s₂ := by
    refine Gives.foldlM (fun detail s quiet s' described => ?_) .refl s₂ described
    exact quiet.trans (quiet_describe id detail s' described)
  exact ⟨id, s₁, s₂, declared, quiet, bound, rfl⟩

theorem enacts_executeElement (kind : ElementKind) (identifier : Option Token) (st : Statement)
    {block : Block} (here : s.frames.block? = some block) :
    Gives (executeElement s kind identifier st block) (s.Enacts identifier) := by
  rintro ⟨_, s₃⟩ executed
  obtain ⟨id, s₁, s₂, declared, quiet, bound, rfl⟩ :=
    steps_executeElement kind identifier st block _ executed
  exact .element here (entered_declare kind block _ _ declared) quiet bound

theorem enacts_executeGroup (identifier : Option Token) (st : Statement) (block : Block) :
    Gives (executeGroup s st block) (s.Enacts identifier) := by
  refine .after fun _ => .after fun _ => ?_
  split
  · exact enacts_opening .refl rfl
  · exact .after fun _ => .ite (enacts_opening .refl rfl) .error
  · split
    · exact enacts_opening .refl rfl
    · exact .error
  · exact .error

theorem enacts_executeEnvironment (identifier : Option Token) (st : Statement) (block : Block) :
    Gives (executeEnvironment s identifier st block) (s.Enacts identifier) := by
  unfold executeEnvironment
  refine .unless (.after fun _ => .after fun _ => .unless fun answer executed => ?_)
  obtain ⟨s₁, named, executed⟩ := bind_eq_ok.mp executed
  obtain rfl := Except.ok.inj executed
  exact .environment named

theorem silent_executeElementBody (id : ElementId) (st : Statement) (block : Block) :
    Gives (executeElementBody s id st block) s.Silent := by
  unfold executeElementBody
  split
  · exact .after fun _ => silent_build (Call.moves_silent (.setElementDescription id _) rfl) _
  · exact .after fun _ => silent_build (Call.moves_silent (.setElementTechnology id _) rfl) _
  · refine .after fun _ => ?_
    split
    · exact .bind (quiet_setInstances id _) fun _ quiet => quiet.done
    · exact Quiet.refl.done
  · exact silent_executeItem _ st
  · exact silent_executeItem _ st
  · exact silent_executeItem _ st
  · exact silent_executeItem _ st
  · exact .error

/-- Where the model is described, each form of statement enacts what its form says. -/
theorem enacts_executeDeclaration (identifier : Option Token) (st : Statement) {block : Block}
    (here : s.frames.block? = some block) :
    Gives (executeDeclaration s identifier st block) (s.Enacts identifier) := by
  unfold executeDeclaration
  refine .ite (enacts_executeRelationship identifier st) ?_
  split
  · exact enacts_executeElement _ identifier st here
  · refine .ite (enacts_executeEnvironment identifier st block) (.ite .error ?_)
    refine .ite (enacts_executeGroup identifier st block) ?_
    refine .ite (.after fun _ => enacts_opening .refl rfl) ?_
    split
    · exact enacts_of_silent (silent_executeElementBody _ st block)
    · exact .error

theorem enacts_executeModel (st : Statement) {block : Block}
    (here : s.frames.block? = some block) :
    Gives (executeModel s st block) (s.Enacts st.identifier?) := by
  unfold executeModel Statement.identifier?
  split
  · exact .ite .error (enacts_executeDeclaration _ _ here)
  · exact enacts_executeDeclaration none st here

/-! ### Views -/

theorem quiet_titleView (key : String) (title : Option Token) :
    Gives (s.titleView key title) s.Quiet := by
  cases title with
  | none => exact .ok .refl
  | some t => exact quiet_build (Call.moves_silent (.setViewTitle key _) rfl) _

theorem quiet_describeView (key : String) (description : Option Token) :
    Gives (s.describeView key description) s.Quiet := by
  cases description with
  | none => exact .ok .refl
  | some t => exact quiet_build (Call.moves_silent (.setViewDescription key _) rfl) _

theorem silent_executeView (kind : ViewKind) (st : Statement) :
    Gives (executeView s kind st) s.Silent := by
  refine .after fun _ => .after fun _ => .after fun scope => .after fun environment => ?_
  refine .bind (quiet_call (.addView kind _ scope environment) rfl _) fun (key, _) added => ?_
  refine .bind (quiet_titleView key _) fun _ titled => ?_
  refine .bind (quiet_describeView key _) fun _ described => ?_
  apply (added.trans (titled.trans described)).opening
  unfold viewBody
  split <;> rfl

theorem quiet_addThemes (ts : Tokens) : Gives (s.addThemes ts) s.Quiet :=
  .foldlM (fun t _ quiet => quiet.build (Call.moves_silent (.addTheme t.text) rfl) t.span) .refl

theorem silent_executeViews (st : Statement) : Gives (executeViews s st) s.Silent := by
  unfold executeViews
  split
  · exact silent_executeView _ st
  · split
    · exact .after fun _ => silent_opening rfl
    · exact .after fun _ => .bind (quiet_addThemes _) fun _ quiet => quiet.done
    · exact .unless (.bind (quiet_addThemes _) fun _ quiet => quiet.done)
    · exact .after fun _ => silent_opening rfl
    · exact .error

theorem silent_executeViewSetting (key : String) (st : Statement) (block : Block) :
    Gives (executeViewSetting s key st block) s.Silent := by
  have layout : ∀ layout, (Builder.setAutoLayout key layout).Moves LeadsSilent := fun layout =>
    Call.moves_silent (.setAutoLayout key layout) rfl
  unfold executeViewSetting
  split
  · exact .after fun _ => silent_build (Call.moves_silent (.setViewTitle key _) rfl) _
  · exact .after fun _ => silent_build (Call.moves_silent (.setViewDescription key _) rfl) _
  · exact .after fun _ => .after fun _ => silent_build (layout _) _
  · exact .after fun _ => .after fun _ => silent_build (layout _) _
  · exact .after fun _ => silent_opening rfl
  · exact .error

theorem quiet_includeAll (key : String) (ts : Tokens) : Gives (s.includeAll key ts) s.Quiet :=
  .after fun _ => .foldlM (fun (selection, span) _ quiet =>
    quiet.build (Builder.moves_includeSelection key selection) span) .refl

theorem quiet_excludeAll (key : String) (ts : Tokens) : Gives (s.excludeAll key ts) s.Quiet :=
  .after fun _ => .foldlM (fun (selection, span) _ quiet =>
    quiet.build (Builder.moves_excludeSelection key selection) span) .refl

theorem silent_executeStaticView (key : String) (st : Statement) :
    Gives (executeStaticView s key st) s.Silent := by
  unfold executeStaticView
  split
  · exact .unless (.bind (quiet_includeAll key _) fun _ quiet => quiet.done)
  · exact .unless (.bind (quiet_excludeAll key _) fun _ quiet => quiet.done)
  · exact silent_executeViewSetting key st _

theorem silent_executeParallel (key : String) (st : Statement) :
    Gives (executeParallel s key st) s.Silent :=
  .bind (quiet_build (Call.moves_silent (.startParallel key) rfl) _) fun _ quiet =>
    quiet.opening rfl

theorem quiet_executeInteraction (key : String) (order : Option String) (ts : Tokens) :
    Gives (executeInteraction s key order ts) s.Quiet := by
  unfold executeInteraction
  refine .unless ?_
  split
  · exact .after fun source => .after fun destination =>
      quiet_build (Call.moves_silent (.addInteraction key source destination _ _ order) rfl) _
  · exact .error

theorem quiet_executeRelationshipLine (key : String) (order : Option String) (ts : Tokens) :
    Gives (executeRelationshipLine s key order ts) s.Quiet := by
  unfold executeRelationshipLine
  split
  · exact .error
  · exact .unless (.after fun id =>
      quiet_build (Call.moves_silent (.addRelationshipLine key id _ order) rfl) _)

theorem silent_executeDynamicLine (key : String) (st : Statement) :
    Gives (executeDynamicLine s key st) s.Silent := by
  unfold executeDynamicLine
  split
  exact .ite (.bind (quiet_executeInteraction key _ _) fun _ quiet => quiet.done)
    (.bind (quiet_executeRelationshipLine key _ _) fun _ quiet => quiet.done)

theorem silent_executeDynamicView (key : String) (st : Statement) :
    Gives (executeDynamicView s key st) s.Silent := by
  refine .ite (silent_executeDynamicLine key st) ?_
  split
  · exact .error
  · exact .error
  · exact silent_executeViewSetting key st _
  · exact silent_executeViewSetting key st _
  · exact silent_executeViewSetting key st _
  · exact silent_executeViewSetting key st _
  · exact silent_executeViewSetting key st _
  · exact silent_executeDynamicLine key st

/-! ### Styles -/

theorem silent_executeStyles (st : Statement) : Gives (executeStyles s st) s.Silent := by
  unfold executeStyles
  split
  · refine .after fun _ => .after fun _ => Quiet.opening ?_ rfl
    exact quiet_withBuilder (Call.moves_silent (.updateElementStyle _ id) rfl)
  · refine .after fun _ => .after fun _ => Quiet.opening ?_ rfl
    exact quiet_withBuilder (Call.moves_silent (.updateRelationshipStyle _ id) rfl)
  · exact .error

/-- A statement in a style declares nothing where entering a setting is silent and the free
properties are not those of the model. -/
theorem silent_executeStyle {α : Type} {enter : Builder → α → Builder}
    {properties : PropertyTarget} (shapeless : (Block.properties properties).shapesModel = false)
    (enters : ∀ setting, (modify (enter · setting) : Change Builder Unit).Moves LeadsSilent)
    (read : Tokens → Except Diagnostic (Option α)) (st : Statement) :
    Gives (executeStyle read enter properties s st) s.Silent := by
  refine .ite (.after fun _ => silent_opening shapeless) (.after fun _ => .after fun setting => ?_)
  cases setting with
  | none => exact Quiet.refl.done
  | some setting => exact (quiet_withBuilder (enters setting)).done

/-! ### Workspaces -/

theorem quiet_entitle (name description : Option String) :
    s.Quiet (s.entitle name description) := by
  have named : ∀ b name, LeadsSilent b (b.setName name) := fun b name =>
    Call.moves_silent (.setName name) rfl b () _ rfl
  have described : ∀ b text, LeadsSilent b (b.setDescription text) := fun b text =>
    Call.moves_silent (.setDescription text) rfl b () _ rfl
  refine ⟨?_, rfl, rfl, rfl⟩
  cases name <;> cases description
  · exact .refl
  · exact described _ _
  · exact named _ _
  · exact (named _ _).trans (described _ _)

theorem enacts_executeRoot (identifier : Option Token) (st : Statement) :
    Gives (executeRoot s st) (s.Enacts identifier) := by
  unfold executeRoot
  refine .unless ?_
  refine .unless ?_
  exact .after fun _ => .after fun _ => enacts_opening (quiet_entitle _ _) rfl

theorem enacts_executeWorkspace (identifier : Option Token) (st : Statement) :
    Gives (executeWorkspace s st) (s.Enacts identifier) := by
  have model : s.Quiet { s with hasModel := true } := ⟨.refl, rfl, rfl, rfl⟩
  have views : s.Quiet { s with hasViews := true } := ⟨.refl, rfl, rfl, rfl⟩
  unfold executeWorkspace
  split
  · exact enacts_of_silent (.after fun _ => (quiet_entitle _ _).done)
  · exact enacts_of_silent (.after fun _ => (quiet_entitle _ _).done)
  · exact enacts_of_silent (.after fun _ => silent_opening rfl)
  · exact .after fun _ => .unless (enacts_opening model rfl)
  · exact enacts_of_silent (.after fun _ => .unless (views.opening rfl))
  · exact enacts_of_silent (.after fun _ => silent_opening rfl)
  · exact .error

theorem silent_executeConfiguration (st : Statement) :
    Gives (executeConfiguration s st) s.Silent := by
  unfold executeConfiguration
  split
  · exact .after fun _ => .after fun scope =>
      (quiet_withBuilder (Call.moves_silent (.setScope scope) rfl)).done
  · exact .after fun _ => .after fun visibility =>
      (quiet_withBuilder (Call.moves_silent (.setVisibility visibility) rfl)).done
  · exact .after fun _ => silent_opening rfl
  · exact .error

theorem silent_executeUser (st : Statement) : Gives (executeUser s st) s.Silent :=
  .after fun _ => .after fun _ => (quiet_withBuilder (Call.moves_silent (.addUser _) rfl)).done

/-! ### Statements -/

theorem silent_executeBrace (st : Statement) : Gives (executeBrace s st) s.Silent := by
  unfold executeBrace
  split
  · exact silent_executeParallel _ st
  · exact silent_executeParallel _ st
  · exact .error

/-- Where nothing of the model stands, a statement does nothing to it. -/
theorem silent_executeStatement (st : Statement) {block : Block}
    (here : s.frames.block? = some block) (shapeless : block.shapesModel = false) :
    Gives (executeStatement colors s st) s.Silent := by
  unfold executeStatement executeWords
  rw [here]
  refine .ite (silent_executeBrace st) ?_
  cases block with
  | workspace | model | group | element | deploymentEnvironment | deploymentNode =>
    cases shapeless
  | relationship id => exact silent_executeItem _ st
  | properties target =>
    refine silent_executeProperty ?_ st
    rintro rfl
    cases shapeless
  | perspectives ref => exact silent_executePerspective ref st
  | views => exact silent_executeViews st
  | staticView key => exact silent_executeStaticView key st
  | dynamicView key | parallel key => exact silent_executeDynamicView key st
  | styles => exact silent_executeStyles st
  | elementStyle tag =>
    exact silent_executeStyle rfl
      (fun _ => Call.moves_silent (.updateElementStyle tag _) rfl) _ st
  | relationshipStyle tag =>
    exact silent_executeStyle rfl
      (fun _ => Call.moves_silent (.updateRelationshipStyle tag _) rfl) _ st
  | configuration => exact silent_executeConfiguration st
  | users => exact silent_executeUser st

/-- A statement declares or sets one thing, or nothing. -/
theorem enacts_executeStatement (st : Statement) :
    Gives (executeStatement colors s st) (s.Enacts st.identifier?) := by
  by_cases shapeless : ∃ block, s.frames.block? = some block ∧ block.shapesModel = false
  · obtain ⟨block, here, shapeless⟩ := shapeless
    exact enacts_of_silent (silent_executeStatement st here shapeless)
  unfold executeStatement executeWords
  refine .ite (enacts_of_silent (silent_executeBrace st)) ?_
  split
  case h_1 => exact enacts_executeRoot _ st
  case h_2 block here =>
    cases block with
    | model | group | element | deploymentEnvironment | deploymentNode =>
      exact enacts_executeModel st here
    | workspace => exact enacts_executeWorkspace _ st
    | properties target => exact enacts_executeProperty _ st here
    | _ => exact absurd ⟨_, here, rfl⟩ shapeless

end Edifice.Language
