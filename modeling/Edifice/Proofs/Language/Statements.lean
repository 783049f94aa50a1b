import Edifice.Proofs.Language.Coherence

/-!
Statements in coherent sessions.

Whatever a statement says in a coherent session, it is refused, if at all, for a fault of
the source, and the session after it is coherent and can open the block that the statement
opens (`behaves_executeStatement`).  There is one lemma for each form of statement: what
the statement refers to is there, because its block is about it, because a name resolved to
it or because the statement has just declared it.
-/

namespace Edifice.Language

open Check Session
open Builder (Call Safe)
open Diagnostic.Ordinary (of_code)

variable {s s₁ : Session} {key : String} {id : ElementId} {colors : ColorReader}

/-! ### Items -/

theorem behaves_executeItem (coherent : s.Coherent) (ref : ItemRef)
    (has : s.builder.Has ref.referent) (st : Statement) : s.Behaves (executeItem s ref st) := by
  have known := List.forall_mem_singleton.mpr has
  unfold executeItem
  split
  · refine .unless (fun _ => of_code rfl) fun _ => ?_
    refine .bind (P := s.Follows) (.foldlM (fun t _ s₁ follows => ?_) coherent.follows)
      fun _ follows => follows.done
    have known₁ := List.forall_mem_singleton.mpr (follows.has coherent has)
    exact follows.build (follows.coherent.safe (.addTags ref t.text) known₁ rfl) t.span
  · exact .after (fair_checkTokens _ _ _ _) fun _ =>
      coherent.behaves (coherent.safe (.setUrl ref _) known rfl) _
  · exact coherent.bare st known trivial
  · exact coherent.bare st known trivial
  · exact .error (of_code rfl)

/-- A property goes to what the block is about, which is there. -/
theorem safe_addPropertyTo (coherent : s.Coherent) {target : PropertyTarget}
    (has : ∀ x ∈ target.referents, s.builder.Has x) (name value : String) :
    Safe (addPropertyTo target name value) s.builder := by
  cases target with
  | workspace => exact coherent.safe (.addWorkspaceProperty name value) has rfl
  | model => exact coherent.safe (.addModelProperty name value) has rfl
  | item ref => exact coherent.safe (.addProperty ref name value) has rfl
  | view key => exact coherent.safe (.addViewProperty key name value) has rfl
  | views => exact coherent.safe (.addViewsProperty name value) has rfl
  | elementStyle tag => exact coherent.safe (.updateElementStyle tag _) has rfl
  | relationshipStyle tag => exact coherent.safe (.updateRelationshipStyle tag _) has rfl

theorem behaves_executeProperty (coherent : s.Coherent) {target : PropertyTarget}
    (has : ∀ x ∈ target.referents, s.builder.Has x) (st : Statement) :
    s.Behaves (executeProperty s target st) :=
  .after (fair_checkTokens _ _ _ _) fun _ =>
    coherent.behaves (safe_addPropertyTo coherent has _ _) _

theorem behaves_executePerspective (coherent : s.Coherent) {ref : ItemRef}
    (has : s.builder.Has ref.referent) (st : Statement) :
    s.Behaves (executePerspective s ref st) :=
  .after (fair_checkTokens _ _ _ _) fun _ =>
    coherent.behaves (coherent.safe (.addPerspective ref _) (List.forall_mem_singleton.mpr has) rfl)
      _

/-! ### Relationships -/

/-- The source of a relationship is an element that is there, named or of the block. -/
theorem yields_resolveSource (coherent : s.Coherent) (ts : Tokens) :
    Yields (resolveSource s ts) (fun answer => s.builder.Has (.element answer.1))
      Diagnostic.Ordinary := by
  unfold resolveSource
  refine .ite (fun _ => .after (fair_checkTokens _ _ _ _) fun _ => ?_)
    fun _ => .after (fair_checkTokens _ _ _ _) fun _ => ?_
  · split
    case h_1 source around => exact .ok (coherent.has_around around)
    · exact .error (of_code rfl)
  · split
    · exact .error (of_code rfl)
    · exact .bind (coherent.resolveElement _ _) fun _ has => .ok has

theorem yields_tagRelationship (coherent : s.Coherent) {id : RelationshipId}
    (has : s.builder.Has (.relationship id)) (tags : Option Token) :
    Yields (s.tagRelationship id tags) s.Follows Diagnostic.Ordinary := by
  cases tags with
  | none => exact .ok coherent.follows
  | some t =>
    refine .ite (fun _ => .ok coherent.follows) fun _ => ?_
    exact coherent.build (coherent.safe (.addTags (.relationship id) t.text)
      (List.forall_mem_singleton.mpr has) rfl) _

/-- Both ends of a relationship are there when it is added, so that it is refused by faults of
the source only. -/
theorem behaves_executeRelationship (coherent : s.Coherent) (identifier : Option Token)
    (st : Statement) : s.Behaves (executeRelationship s identifier st) := by
  refine .bind (yields_resolveSource coherent st.tokens) fun answer has => ?_
  obtain ⟨source, rest⟩ := answer
  cases rest with
  | nil => exact .error (of_code rfl)
  | cons t rest =>
    refine .bind (coherent.resolveElement t _) fun destination has' => ?_
    have known := List.forall_mem_cons.mpr ⟨has, List.forall_mem_singleton.mpr has'⟩
    refine .bind (coherent.call (.addRelationship source destination _ _) known rfl _) ?_
    rintro ⟨id, s₁⟩ ⟨added, answered⟩
    have has₁ : s₁.builder.Has (.relationship id) := answered _ (List.mem_singleton_self _)
    refine .bind (yields_tagRelationship added.coherent has₁ _) fun s₂ tagged => ?_
    have has₂ := tagged.has added.coherent has₁
    refine .bind (tagged.coherent.bindRelationship identifier has₂) fun s₃ bound => ?_
    exact (added.trans (tagged.trans bound)).opening
      (List.forall_mem_singleton.mpr (bound.has tagged.coherent has₂)) trivial

/-! ### Elements -/

theorem yields_setInstances (coherent : s.Coherent) (has : s.builder.Has (.element id))
    (t : Token) : Yields (s.setInstances id t) s.Follows Diagnostic.Ordinary := by
  refine .ite (fun _ => ?_) fun _ => .error (of_code rfl)
  exact coherent.build (coherent.safe (.setInstances id t.text)
    (List.forall_mem_singleton.mpr has) rfl) _

theorem yields_describe (coherent : s.Coherent) (has : s.builder.Has (.element id))
    (detail : Detail × Token) : Yields (s.describe id detail) s.Follows Diagnostic.Ordinary := by
  have known := List.forall_mem_singleton.mpr has
  refine .ite (fun _ => .ok coherent.follows) fun _ => ?_
  split
  · exact .ok coherent.follows
  · exact coherent.build (coherent.safe (.setElementDescription id _) known rfl) _
  · exact coherent.build (coherent.safe (.setElementTechnology id _) known rfl) _
  · exact coherent.build (coherent.safe (.addTags (.element id) _) known rfl) _
  · exact yields_setInstances coherent has _

theorem yields_resolveDeployable (coherent : s.Coherent) (kind : ElementKind) (ts : Tokens) :
    Yields (resolveDeployable s kind ts) (fun id => s.builder.Has (.element id))
      Diagnostic.Ordinary := by
  unfold resolveDeployable
  split
  · exact .error (of_code rfl)
  · refine .bind (coherent.resolveElement _ _) fun id has => ?_
    refine .after (yields_element has _) fun e => ?_
    exact .ite (fun _ => .ok has) fun _ => .error (of_code rfl)

/-- An element is declared with what its body is about. -/
theorem yields_declare (coherent : s.Coherent) (kind : ElementKind) {block : Block}
    (here : ∀ x ∈ block.referents, s.builder.Has x) (ts : Tokens) :
    Yields (declare s kind block ts)
      (fun answer => s.Follows answer.2 ∧
        ∀ x ∈ (bodyOf kind block answer.1).referents, answer.2.builder.Has x)
      Diagnostic.Ordinary := by
  unfold declare
  split
  · exact coherent.call (.addPerson _ _) (List.forall_mem_nil _) rfl _
  · exact coherent.call (.addPerson _ _) (List.forall_mem_nil _) rfl _
  · exact coherent.call (.addSoftwareSystem _ _) (List.forall_mem_nil _) rfl _
  · exact coherent.call (.addSoftwareSystem _ _) (List.forall_mem_nil _) rfl _
  · exact coherent.call (.addCustomElement _ _ _) (List.forall_mem_nil _) rfl _
  · exact coherent.call (.addCustomElement _ _ _) (List.forall_mem_nil _) rfl _
  · exact coherent.call (.addContainer _ _ _) here rfl _
  · exact coherent.call (.addContainer _ _ _) here rfl _
  · exact coherent.call (.addComponent _ _ _) here rfl _
  · exact coherent.call (.addComponent _ _ _) here rfl _
  · exact coherent.call (.addDeploymentNode _ none _) (List.forall_mem_nil _) rfl _
  · exact coherent.call (.addDeploymentNode _ (some _) _) (List.forall_mem_cons.mp here).2 rfl _
  · have node := (List.forall_mem_cons.mp here).1
    exact coherent.call (.addInfrastructureNode _ _) (List.forall_mem_singleton.mpr node) rfl _
  · have node := (List.forall_mem_cons.mp here).1
    refine .bind (yields_resolveDeployable coherent _ ts) fun deployed has => ?_
    exact coherent.call (.addInstance _ deployed)
      (List.forall_mem_cons.mpr ⟨node, List.forall_mem_singleton.mpr has⟩) rfl _
  · have node := (List.forall_mem_cons.mp here).1
    refine .bind (yields_resolveDeployable coherent _ ts) fun deployed has => ?_
    exact coherent.call (.addInstance _ deployed)
      (List.forall_mem_cons.mpr ⟨node, List.forall_mem_singleton.mpr has⟩) rfl _
  · exact .error (of_code rfl)

theorem element_mem_bodyOf (kind : ElementKind) (block : Block) (id : ElementId) :
    .element id ∈ (bodyOf kind block id).referents := by
  unfold bodyOf
  split <;> exact List.mem_cons_self ..

theorem counts_bodyOf (kind : ElementKind) (block : Block) (id : ElementId) :
    s.Counts (bodyOf kind block id) := by
  unfold bodyOf
  split <;> exact trivial

/-- An element is declared where its block allows it, and is there for its name and for its
body. -/
theorem behaves_executeElement (coherent : s.Coherent) (kind : ElementKind)
    (identifier : Option Token) (st : Statement) {block : Block}
    (here : ∀ x ∈ block.referents, s.builder.Has x) :
    s.Behaves (executeElement s kind identifier st block) := by
  refine .after (fair_checkTokens _ _ _ _) fun _ => .bind (yields_declare coherent kind here _) ?_
  rintro ⟨id, s₁⟩ ⟨declared, body⟩
  have coherent₁ := declared.coherent
  have has₁ : s₁.builder.Has (.element id) := body _ (element_mem_bodyOf kind block id)
  refine .bind (P := s₁.Follows) (.foldlM (fun detail _ s₂ described => ?_) coherent₁.follows)
    fun s₂ described => ?_
  · have has₂ := described.has coherent₁ has₁
    exact (yields_describe described.coherent has₂ detail).mono fun _ further =>
      described.trans further
  · have has₂ := described.has coherent₁ has₁
    refine .bind (described.coherent.bindElement identifier has₂) fun s₃ bound => ?_
    have later := described.trans bound
    exact (declared.trans later).opening (fun x listed => later.has coherent₁ (body x listed))
      (counts_bodyOf kind block id)

theorem behaves_executeGroup (coherent : s.Coherent) (st : Statement) {block : Block}
    (here : ∀ x ∈ block.referents, s.builder.Has x) : s.Behaves (executeGroup s st block) := by
  refine .after (fair_checkTokens _ _ _ _) fun _ => .after (fair_requireBlock _ _) fun _ => ?_
  split
  · exact coherent.follows.opening (List.forall_mem_nil _) trivial
  · refine .after (yields_element (List.forall_mem_singleton.mp here) _) fun e => ?_
    exact .ite (fun _ => coherent.follows.opening here trivial) fun _ => .error (of_code rfl)
  · split
    · exact coherent.follows.opening here trivial
    · exact .error (of_code rfl)
  · exact .error (of_code rfl)

theorem yields_nameEnvironment (coherent : s.Coherent) (identifier : Option Token)
    (name : String) :
    Yields (s.nameEnvironment identifier name) s.Follows Diagnostic.Ordinary := by
  cases identifier with
  | none => exact .ok coherent.follows
  | some t =>
    refine .ite (fun _ => .error (RegistryError.ordinary _ _)) fun _ => ?_
    refine .ite (fun _ => .error (RegistryError.ordinary _ _)) fun _ => ?_
    exact .ok (coherent.follows_of_same rfl rfl rfl)

theorem behaves_executeEnvironment (coherent : s.Coherent) (identifier : Option Token)
    (st : Statement) (block : Block) :
    s.Behaves (executeEnvironment s identifier st block) := by
  unfold executeEnvironment
  refine .unless (fun _ => of_code rfl) fun _ => ?_
  refine .after (fair_checkTokens _ _ _ _) fun _ => .after (fair_requireBlock _ _) fun _ => ?_
  refine .unless (fun _ => of_code rfl) fun _ => ?_
  refine .bind (yields_nameEnvironment coherent identifier _) fun s₁ named => ?_
  have entered : ∀ name, s₁.Follows { s₁ with environments := s₁.environments.insert name name } :=
    fun _ => named.coherent.follows_of_same rfl rfl rfl
  exact (named.trans (entered _)).opening (List.forall_mem_nil _) trivial

/-- In the body of an element all settings are of an element that is there. -/
theorem behaves_executeElementBody (coherent : s.Coherent) (has : s.builder.Has (.element id))
    (st : Statement) (block : Block) : s.Behaves (executeElementBody s id st block) := by
  have known := List.forall_mem_singleton.mpr has
  unfold executeElementBody
  split
  · exact .after (fair_checkTokens _ _ _ _) fun _ =>
      coherent.behaves (coherent.safe (.setElementDescription id _) known rfl) _
  · exact .after (fair_checkTokens _ _ _ _) fun _ =>
      coherent.behaves (coherent.safe (.setElementTechnology id _) known rfl) _
  · refine .after (fair_checkTokens _ _ _ _) fun _ => ?_
    split
    · exact .bind (yields_setInstances coherent has _) fun _ follows => follows.done
    · exact coherent.follows.done
  · exact behaves_executeItem coherent (.element id) has st
  · exact behaves_executeItem coherent (.element id) has st
  · exact behaves_executeItem coherent (.element id) has st
  · exact behaves_executeItem coherent (.element id) has st
  · exact .error (of_code rfl)

theorem behaves_executeDeclaration (coherent : s.Coherent) (identifier : Option Token)
    (st : Statement) {block : Block} (here : ∀ x ∈ block.referents, s.builder.Has x) :
    s.Behaves (executeDeclaration s identifier st block) := by
  unfold executeDeclaration
  refine .ite (fun _ => behaves_executeRelationship coherent identifier st) fun _ => ?_
  split
  · exact behaves_executeElement coherent _ identifier st here
  · refine .ite (fun _ => behaves_executeEnvironment coherent identifier st block) fun _ => ?_
    refine .ite (fun _ => .error (of_code rfl)) fun _ => ?_
    refine .ite (fun _ => behaves_executeGroup coherent st here) fun _ => ?_
    refine .ite (fun _ => coherent.bare st (List.forall_mem_nil _) trivial) fun _ => ?_
    split
    case h_1 id own =>
      have has := here _ (Block.element_mem_referents own)
      exact behaves_executeElementBody coherent has st block
    · exact .error (of_code rfl)

theorem behaves_executeModel (coherent : s.Coherent) (st : Statement) {block : Block}
    (here : ∀ x ∈ block.referents, s.builder.Has x) : s.Behaves (executeModel s st block) := by
  refine .ite (fun _ => .ite (fun _ => .error (of_code rfl)) fun _ => ?_) fun _ => ?_
  · exact behaves_executeDeclaration coherent _ _ here
  · exact behaves_executeDeclaration coherent none st here

/-! ### Expressions -/

theorem yields_readReference (coherent : s.Coherent) (t : Token) :
    Yields (readReference s t) (fun selection => ∀ x ∈ selection.referents, s.builder.Has x)
      Diagnostic.Ordinary := by
  unfold readReference
  split
  · refine .map ((coherent.resolveElement _ _).mono fun id has => ?_)
    exact List.forall_mem_singleton.mpr has
  · split
    case h_1 id found => exact .ok (List.forall_mem_singleton.mpr (coherent.has_resolve found))
    case h_2 id found => exact .ok (List.forall_mem_singleton.mpr (coherent.has_resolve found))
    · exact .error (of_code rfl)

/-- What an expression selects by name is there. -/
theorem yields_readExpression (coherent : s.Coherent) (t : Token) :
    Yields (readExpression s t) (fun selection => ∀ x ∈ selection.referents, s.builder.Has x)
      Diagnostic.Ordinary := by
  have free : ∀ {selection : Selection}, selection.referents = [] →
      ∀ x ∈ selection.referents, s.builder.Has x := by
    intro selection none
    rw [none]
    exact List.forall_mem_nil _
  unfold readExpression
  refine .ite (fun _ => .ok (free rfl)) fun _ => .ite (fun _ => .ok (free rfl)) fun _ => ?_
  split
  · exact .map ((fair_readTags t _).mono fun _ _ => free rfl)
  · split
    · split
      · exact .ok (free rfl)
      · exact .error (of_code rfl)
    · split
      · exact .map ((fair_readTags t _).mono fun _ _ => free rfl)
      · refine .ite (fun _ => .error (of_code rfl)) fun _ => ?_
        exact yields_readReference coherent t

theorem fair_readEnd (coherent : s.Coherent) (t : Token) (role : String) :
    Fair (readEnd s t role) :=
  .ite (fun _ => .ok trivial) fun _ =>
    .map ((coherent.resolveElement t role).mono fun _ _ => trivial)

/-- Expressions are read as selections of what is there. -/
theorem yields_readExpressions (coherent : s.Coherent) (ts : Tokens) :
    Yields (readExpressions s ts)
      (fun selections => ∀ i ∈ selections, ∀ x ∈ i.1.referents, s.builder.Has x)
      Diagnostic.Ordinary := by
  have each : ∀ t, Yields (do return (← readExpression s t, t.span) : Except Diagnostic _)
      (fun i : Selection × Span => ∀ x ∈ i.1.referents, s.builder.Has x) Diagnostic.Ordinary :=
    fun t => .bind (yields_readExpression coherent t) fun _ has => .ok has
  unfold readExpressions
  split
  · refine .ite (fun _ => ?_) fun _ => .mapM each
    refine .after (fair_readEnd coherent _ _) fun _ => ?_
    refine .after (fair_readEnd coherent _ _) fun _ => ?_
    exact .ok (List.forall_mem_singleton.mpr (List.forall_mem_nil _))
  · exact .mapM each

/-! ### Views -/

theorem yields_readViewScope (coherent : s.Coherent) (kind : ViewKind) (ts : Tokens) :
    Yields (readViewScope s kind ts)
      (fun scope => ∀ x ∈ scope.toList.map Referent.element, s.builder.Has x)
      Diagnostic.Ordinary := by
  unfold readViewScope
  split
  · exact .ok (List.forall_mem_nil _)
  · refine .ite (fun _ => .ok (List.forall_mem_nil _)) fun _ => ?_
    refine .map ((coherent.resolveElement _ _).mono fun id has => ?_)
    exact List.forall_mem_singleton.mpr has

theorem fair_readEnvironment (s : Session) (kind : ViewKind) (ts : Tokens) :
    Fair (readEnvironment s kind ts) := by
  unfold readEnvironment
  split
  · exact .ok trivial
  · split
    · exact .ok trivial
    · exact .error (of_code rfl)

theorem yields_titleView (coherent : s.Coherent) (has : s.builder.Has (.view key))
    (title : Option Token) : Yields (s.titleView key title) s.Follows Diagnostic.Ordinary := by
  cases title with
  | none => exact .ok coherent.follows
  | some t =>
    exact coherent.build (coherent.safe (.setViewTitle key _) (List.forall_mem_singleton.mpr has)
      rfl) _

theorem yields_describeView (coherent : s.Coherent) (has : s.builder.Has (.view key))
    (description : Option Token) :
    Yields (s.describeView key description) s.Follows Diagnostic.Ordinary := by
  cases description with
  | none => exact .ok coherent.follows
  | some t =>
    exact coherent.build (coherent.safe (.setViewDescription key _)
      (List.forall_mem_singleton.mpr has) rfl) _

/-- A view is added, and what its block is about is the view that has been added. -/
theorem behaves_executeView (coherent : s.Coherent) (kind : ViewKind) (st : Statement) :
    s.Behaves (executeView s kind st) := by
  refine .after (fair_checkTokens _ _ _ _) fun _ => .after (fair_requireBlock _ _) fun _ => ?_
  refine .bind (yields_readViewScope coherent kind _) fun scope known => ?_
  refine .after (fair_readEnvironment s kind _) fun environment => ?_
  refine .bind (coherent.call (.addView kind _ scope environment) known rfl _) ?_
  rintro ⟨key, s₁⟩ ⟨added, answered⟩
  have has₁ : s₁.builder.Has (.view key) := answered _ (List.mem_singleton_self _)
  refine .bind (yields_titleView added.coherent has₁ _) fun s₂ titled => ?_
  have has₂ := titled.has added.coherent has₁
  refine .bind (yields_describeView titled.coherent has₂ _) fun s₃ described => ?_
  have known₃ := List.forall_mem_singleton.mpr (described.has titled.coherent has₂)
  have follows := added.trans (titled.trans described)
  unfold viewBody
  split
  · exact follows.opening known₃ trivial
  · exact follows.opening known₃ trivial

theorem yields_addThemes (coherent : s.Coherent) (ts : Tokens) :
    Yields (s.addThemes ts) s.Follows Diagnostic.Ordinary := by
  refine .foldlM (fun t _ s₁ follows => ?_) coherent.follows
  exact follows.build (follows.coherent.safe (.addTheme t.text) (List.forall_mem_nil _) rfl) _

theorem behaves_executeViews (coherent : s.Coherent) (st : Statement) :
    s.Behaves (executeViews s st) := by
  unfold executeViews
  split
  · exact behaves_executeView coherent _ st
  · split
    · exact coherent.bare st (List.forall_mem_nil _) trivial
    · exact .after (fair_checkTokens _ _ _ _) fun _ =>
        .bind (yields_addThemes coherent _) fun _ follows => follows.done
    · refine .unless (fun _ => of_code rfl) fun _ => ?_
      exact .bind (yields_addThemes coherent _) fun _ follows => follows.done
    · exact coherent.bare st (List.forall_mem_nil _) trivial
    · exact .error (of_code rfl)

theorem behaves_executeViewSetting (coherent : s.Coherent) (has : s.builder.Has (.view key))
    (st : Statement) (block : Block) : s.Behaves (executeViewSetting s key st block) := by
  have known := List.forall_mem_singleton.mpr has
  have layout : s.Behaves (do
      let layout ← readAutoLayout st.tokens
      (← s.build st.span (Builder.setAutoLayout key layout)).done) :=
    .after (fair_readAutoLayout _) fun _ =>
      coherent.behaves (coherent.safe (.setAutoLayout key _) known rfl) _
  unfold executeViewSetting
  split
  · exact .after (fair_checkTokens _ _ _ _) fun _ =>
      coherent.behaves (coherent.safe (.setViewTitle key _) known rfl) _
  · exact .after (fair_checkTokens _ _ _ _) fun _ =>
      coherent.behaves (coherent.safe (.setViewDescription key _) known rfl) _
  · exact .after (fair_checkTokens _ _ _ _) fun _ => layout
  · exact .after (fair_checkTokens _ _ _ _) fun _ => layout
  · exact coherent.bare st known trivial
  · exact .error (of_code rfl)

theorem yields_includeAll (coherent : s.Coherent) (has : s.builder.Has (.view key))
    (ts : Tokens) : Yields (s.includeAll key ts) s.Follows Diagnostic.Ordinary := by
  refine .bind (yields_readExpressions coherent ts) fun selections known => ?_
  refine .foldlM (fun i listed s₁ follows => ?_) coherent.follows
  refine follows.build (Builder.safe_includeSelection follows.coherent.grown
    (follows.has coherent has) fun x referent => ?_) _
  exact follows.has coherent (known i listed x referent)

theorem yields_excludeAll (coherent : s.Coherent) (has : s.builder.Has (.view key))
    (ts : Tokens) : Yields (s.excludeAll key ts) s.Follows Diagnostic.Ordinary := by
  refine .bind (yields_readExpressions coherent ts) fun selections _ => ?_
  refine .foldlM (fun i _ s₁ follows => ?_) coherent.follows
  exact follows.build (Builder.safe_excludeSelection follows.coherent.reachable
    (follows.has coherent has)) _

theorem behaves_executeStaticView (coherent : s.Coherent) (has : s.builder.Has (.view key))
    (st : Statement) : s.Behaves (executeStaticView s key st) := by
  unfold executeStaticView
  split
  · refine .unless (fun _ => of_code rfl) fun _ => ?_
    exact .bind (yields_includeAll coherent has _) fun _ follows => follows.done
  · refine .unless (fun _ => of_code rfl) fun _ => ?_
    exact .bind (yields_excludeAll coherent has _) fun _ follows => follows.done
  · exact behaves_executeViewSetting coherent has st _

/-! ### Dynamic views -/

/-- A parallel block is counted before it is opened. -/
theorem behaves_executeParallel (coherent : s.Coherent) (has : s.builder.Has (.view key))
    (st : Statement) : s.Behaves (executeParallel s key st) := by
  have safe := coherent.safe (.startParallel key) (List.forall_mem_singleton.mpr has) rfl
  have started : Yields (s.build st.span (Builder.startParallel key))
      (fun s₁ => s.Follows s₁ ∧ Builder.startParallel key s.builder = .ok () s₁.builder)
      Diagnostic.Ordinary := .map (coherent.buildWith safe st.span)
  refine .bind started ?_
  rintro s₁ ⟨follows, started⟩
  have known₁ := List.forall_mem_singleton.mpr (follows.has coherent has)
  refine follows.opening known₁ fun v₁ found₁ => ?_
  obtain ⟨v, found, -, -, put⟩ := Builder.editDynamic_eq_ok.mp started
  rw [← put, Builder.view_putView_self] at found₁
  obtain rfl := Except.ok.inj found₁
  rw [follows.frames]
  exact Nat.lt_succ_of_le (coherent.counted key v found)

theorem yields_readParticipant (coherent : s.Coherent) (t : Token) (role : String) :
    Yields (readParticipant s t role) (fun p => s.builder.Has (.element p.id))
      Diagnostic.Ordinary := by
  refine .bind (coherent.resolveElement t role) fun id has => ?_
  refine .after (yields_element has t.span) fun e => ?_
  refine .ite (fun _ => .ok has) fun _ => .ite (fun _ => .ok has) fun _ => ?_
  exact .error (of_code rfl)

theorem yields_executeInteraction (coherent : s.Coherent) (has : s.builder.Has (.view key))
    (order : Option String) (ts : Tokens) :
    Yields (executeInteraction s key order ts) s.Follows Diagnostic.Ordinary := by
  unfold executeInteraction
  refine .unless (fun _ => of_code rfl) fun _ => ?_
  split
  · refine .bind (yields_readParticipant coherent _ _) fun source has' => ?_
    refine .bind (yields_readParticipant coherent _ _) fun destination has'' => ?_
    have known := List.forall_mem_cons.mpr
      ⟨has, List.forall_mem_cons.mpr ⟨has', List.forall_mem_singleton.mpr has''⟩⟩
    exact coherent.build (coherent.safe (.addInteraction key source destination _ _ order) known
      rfl) _
  · exact .error (of_code rfl)

theorem yields_executeRelationshipLine (coherent : s.Coherent) (has : s.builder.Has (.view key))
    (order : Option String) (ts : Tokens) :
    Yields (executeRelationshipLine s key order ts) s.Follows Diagnostic.Ordinary := by
  unfold executeRelationshipLine
  split
  · exact .error (of_code rfl)
  · refine .unless (fun _ => of_code rfl) fun _ => ?_
    refine .bind (coherent.resolveRelationship _) fun id has' => ?_
    have known := List.forall_mem_cons.mpr ⟨has, List.forall_mem_singleton.mpr has'⟩
    exact coherent.build (coherent.safe (.addRelationshipLine key id _ order) known rfl) _

theorem behaves_executeDynamicLine (coherent : s.Coherent) (has : s.builder.Has (.view key))
    (st : Statement) : s.Behaves (executeDynamicLine s key st) := by
  unfold executeDynamicLine
  split
  refine .ite (fun _ => ?_) fun _ => ?_
  · exact .bind (yields_executeInteraction coherent has _ _) fun _ follows => follows.done
  · exact .bind (yields_executeRelationshipLine coherent has _ _) fun _ follows => follows.done

theorem behaves_executeDynamicView (coherent : s.Coherent) (has : s.builder.Has (.view key))
    (st : Statement) : s.Behaves (executeDynamicView s key st) := by
  refine .ite (fun _ => behaves_executeDynamicLine coherent has st) fun _ => ?_
  split
  · exact .error (of_code rfl)
  · exact .error (of_code rfl)
  · exact behaves_executeViewSetting coherent has st _
  · exact behaves_executeViewSetting coherent has st _
  · exact behaves_executeViewSetting coherent has st _
  · exact behaves_executeViewSetting coherent has st _
  · exact behaves_executeViewSetting coherent has st _
  · exact behaves_executeDynamicLine coherent has st

/-! ### Styles -/

/-- A call that refers to nothing, as a function of the workspace. -/
theorem follows_withBuilder (coherent : s.Coherent) {f : Builder → Builder}
    (safe : Safe (modify f : Change Builder Unit) s.builder) :
    s.Follows (s.withBuilder (f s.builder)) :=
  coherent.follows_run (safe.proceeds () (f s.builder) rfl)

theorem follows_updateElementStyle (coherent : s.Coherent) (tag : String)
    (f : ElementStyle → ElementStyle) :
    s.Follows (s.withBuilder (s.builder.updateElementStyle tag f)) :=
  follows_withBuilder coherent
    (coherent.safe (.updateElementStyle tag f) (List.forall_mem_nil _) rfl)

theorem follows_updateRelationshipStyle (coherent : s.Coherent) (tag : String)
    (f : RelationshipStyle → RelationshipStyle) :
    s.Follows (s.withBuilder (s.builder.updateRelationshipStyle tag f)) :=
  follows_withBuilder coherent
    (coherent.safe (.updateRelationshipStyle tag f) (List.forall_mem_nil _) rfl)

theorem behaves_executeStyles (coherent : s.Coherent) (st : Statement) :
    s.Behaves (executeStyles s st) := by
  unfold executeStyles
  split
  · exact .after (fair_checkTokens _ _ _ _) fun _ => .after (fair_requireBlock _ _) fun _ =>
      (follows_updateElementStyle coherent _ id).opening (List.forall_mem_nil _) trivial
  · exact .after (fair_checkTokens _ _ _ _) fun _ => .after (fair_requireBlock _ _) fun _ =>
      (follows_updateRelationshipStyle coherent _ id).opening (List.forall_mem_nil _) trivial
  · exact .error (of_code rfl)

/-- A statement in a style behaves where entering a setting does and the free properties
belong to nothing that has to exist. -/
theorem behaves_executeStyle {α : Type} {read : Tokens → Except Diagnostic (Option α)}
    {enter : Builder → α → Builder} {properties : PropertyTarget} (coherent : s.Coherent)
    (st : Statement) (own : properties.referents = []) (fair : Fair (read st.tokens))
    (enters : ∀ setting, s.Follows (s.withBuilder (enter s.builder setting))) :
    s.Behaves (executeStyle read enter properties s st) := by
  have has : ∀ x ∈ (Block.properties properties).referents, s.builder.Has x := by
    rw [Block.referents, own]
    exact List.forall_mem_nil _
  refine .ite (fun _ => coherent.bare st has trivial) fun _ => ?_
  refine .after (fair_checkTokens _ _ _ _) fun _ => .after fair fun setting => ?_
  cases setting with
  | none => exact coherent.follows.done
  | some setting => exact (enters setting).done

/-! ### Workspaces -/

/-- Giving a workspace its name and description leads on to a coherent session. -/
theorem follows_entitle (coherent : s.Coherent) (name description : Option String) :
    s.Follows (s.entitle name description) := by
  have named : ∀ {s : Session} name, s.Coherent →
      s.Follows (s.withBuilder (s.builder.setName name)) := by
    intro s name coherent
    exact follows_withBuilder coherent
      (coherent.safe (.setName name) (List.forall_mem_nil _) rfl)
  have described : ∀ {s : Session} text, s.Coherent →
      s.Follows (s.withBuilder (s.builder.setDescription text)) := by
    intro s text coherent
    exact follows_withBuilder coherent
      (coherent.safe (.setDescription text) (List.forall_mem_nil _) rfl)
  cases name with
  | none =>
    cases description with
    | none => exact coherent.follows
    | some text => exact described text coherent
  | some name =>
    cases description with
    | none => exact named name coherent
    | some text =>
      have first := named name coherent
      exact first.trans (described text first.coherent)

theorem behaves_executeRoot (coherent : s.Coherent) (st : Statement) :
    s.Behaves (executeRoot s st) := by
  unfold executeRoot
  refine .unless (fun _ => of_code rfl) fun _ => .unless (fun _ => of_code rfl) fun _ => ?_
  refine .after (fair_checkTokens _ _ _ _) fun _ => .after (fair_requireBlock _ _) fun _ => ?_
  exact (follows_entitle coherent _ _).opening (List.forall_mem_nil _) trivial

theorem behaves_executeWorkspace (coherent : s.Coherent) (st : Statement) :
    s.Behaves (executeWorkspace s st) := by
  unfold executeWorkspace
  split
  · exact .after (fair_checkTokens _ _ _ _) fun _ => (follows_entitle coherent _ _).done
  · exact .after (fair_checkTokens _ _ _ _) fun _ => (follows_entitle coherent _ _).done
  · exact coherent.bare st (List.forall_mem_nil _) trivial
  · refine .after (fair_checkBare st) fun _ => .unless (fun _ => of_code rfl) fun _ => ?_
    have entered : s.Follows { s with hasModel := true } := coherent.follows_of_same rfl rfl rfl
    exact entered.opening (List.forall_mem_nil _) trivial
  · refine .after (fair_checkBare st) fun _ => .unless (fun _ => of_code rfl) fun _ => ?_
    have entered : s.Follows { s with hasViews := true } := coherent.follows_of_same rfl rfl rfl
    exact entered.opening (List.forall_mem_nil _) trivial
  · exact coherent.bare st (List.forall_mem_nil _) trivial
  · exact .error (of_code rfl)

theorem behaves_executeConfiguration (coherent : s.Coherent) (st : Statement) :
    s.Behaves (executeConfiguration s st) := by
  unfold executeConfiguration
  split
  · exact .after (fair_checkTokens _ _ _ _) fun _ => .after (fair_readScope _ _) fun scope =>
      (follows_withBuilder coherent
        (coherent.safe (.setScope scope) (List.forall_mem_nil _) rfl)).done
  · exact .after (fair_checkTokens _ _ _ _) fun _ => .after (fair_readWord _ _ _) fun visibility =>
      (follows_withBuilder coherent
        (coherent.safe (.setVisibility visibility) (List.forall_mem_nil _) rfl)).done
  · exact coherent.bare st (List.forall_mem_nil _) trivial
  · exact .error (of_code rfl)

theorem behaves_executeUser (coherent : s.Coherent) (st : Statement) :
    s.Behaves (executeUser s st) :=
  .after (fair_checkTokens _ _ _ _) fun _ => .after (fair_readWord _ _ _) fun _ =>
    (follows_withBuilder coherent (coherent.safe (.addUser _) (List.forall_mem_nil _) rfl)).done

/-! ### Every statement -/

/-- Every statement behaves: it is refused only for a fault of the source, and leaves a
coherent session in which its block can be opened. -/
theorem behaves_executeStatement (coherent : s.Coherent) (st : Statement) :
    s.Behaves (executeStatement colors s st) := by
  refine .ite (fun _ => ?_) fun _ => ?_
  · unfold executeBrace
    split
    case h_1 key here =>
      exact behaves_executeParallel coherent (coherent.here here _ (List.mem_singleton_self _)) st
    case h_2 key here =>
      exact behaves_executeParallel coherent (coherent.here here _ (List.mem_singleton_self _)) st
    case h_3 => exact .error (of_code rfl)
  · unfold executeWords
    split
    · exact behaves_executeRoot coherent st
    case h_2 block here =>
      have known := coherent.here here
      cases block with
      | workspace => exact behaves_executeWorkspace coherent st
      | model | group | element | deploymentEnvironment | deploymentNode =>
        exact behaves_executeModel coherent st known
      | relationship id =>
        have has := List.forall_mem_singleton.mp known
        exact behaves_executeItem coherent (.relationship id) has st
      | properties => exact behaves_executeProperty coherent known st
      | perspectives =>
        exact behaves_executePerspective coherent (List.forall_mem_singleton.mp known) st
      | views => exact behaves_executeViews coherent st
      | staticView =>
        exact behaves_executeStaticView coherent (List.forall_mem_singleton.mp known) st
      | dynamicView | parallel =>
        exact behaves_executeDynamicView coherent (List.forall_mem_singleton.mp known) st
      | styles => exact behaves_executeStyles coherent st
      | elementStyle tag =>
        exact behaves_executeStyle coherent st rfl (fair_readElementSetting colors _) fun _ =>
          follows_updateElementStyle coherent tag _
      | relationshipStyle tag =>
        exact behaves_executeStyle coherent st rfl (fair_readRelationshipSetting colors _) fun _ =>
          follows_updateRelationshipStyle coherent tag _
      | configuration => exact behaves_executeConfiguration coherent st
      | users => exact behaves_executeUser coherent st

/-- The session after a statement, with its block open, is coherent. -/
theorem yields_runStatement (coherent : s.Coherent) (st : Statement) (line : Nat) :
    Yields (runStatement colors s st line) s.Reads Diagnostic.Ordinary := by
  refine .bind (behaves_executeStatement coherent st) ?_
  rintro ⟨block, s₁⟩ ⟨follows, can⟩
  have reads := follows.reads coherent
  refine .ite (fun _ => ?_) fun _ => .ok reads
  split
  case h_1 block => exact .ok ⟨reads.coherent.openBlock (can block rfl) line st.span, reads.run⟩
  case h_2 => exact .error (of_code rfl)

end Edifice.Language
