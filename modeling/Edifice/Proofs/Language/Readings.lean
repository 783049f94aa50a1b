import Edifice.Proofs.Language.Runs
import Edifice.Proofs.Language.Statements

/-!
Readings of coherent sessions.

A directive keeps a session coherent as a statement does, so a reading does, line after
line and through all that it includes (`yields_readSource`).  From there two results about
whole readings follow.  No reading ends in an internal error or warns of one
(`no_internal_errors`): its diagnostics report faults of the source.  And the calls that a
reading makes of the builder refer only to what is there, so nested deployment nodes share
their environment, and the views of the workspaces that are read are well formed
(`views_well_formed`).
-/

namespace Edifice

open Check

/-- Every diagnostic of the failure reports a fault of the source. -/
def Failure.Ordinary (f : Failure) : Prop :=
  ∀ d ∈ f.diagnostics, d.Ordinary

namespace Language

open Session
open Builder (LeadsKnown LeadsMatching)
open Diagnostic.Ordinary (of_code)

variable {s s' : Session} {setting : Setting}

/-! ### Directives -/

theorem yields_executeConstant (coherent : s.Coherent) (ts : Tokens) :
    Yields (executeConstant s ts) s.Follows Diagnostic.Ordinary :=
  .after (fair_checkTokens _ _ _ _) fun _ => .unless (fun _ => of_code rfl) fun _ =>
    .ok (coherent.follows_of_same rfl rfl rfl)

theorem fair_requireWorkspaceOrModel (s : Session) (ts : Tokens) :
    Fair (requireWorkspaceOrModel s ts) := by
  unfold requireWorkspaceOrModel
  split
  · exact .ok trivial
  · exact .ok trivial
  · exact .error (of_code rfl)

/-- Choosing how identifiers work binds nothing, and is refused by faults of the source only.
-/
theorem yields_executeIdentifiers (coherent : s.Coherent) (ts : Tokens) :
    Yields (executeIdentifiers s ts) s.Follows Diagnostic.Ordinary := by
  refine .after (fair_checkTokens _ _ _ _) fun _ =>
    .after (fair_requireWorkspaceOrModel s ts) fun _ => .after (fair_readWord _ _ _) fun mode => ?_
  split
  case h_1 r chosen =>
    refine .ok (coherent.follows_registry fun binding binds => coherent.bound binding ?_)
    unfold Registry.setMode? at chosen
    split at chosen
    · obtain rfl := Option.some.inj chosen
      exact binds
    · split at chosen
      · obtain rfl := Option.some.inj chosen
        exact binds
      · cases chosen
  case h_2 => exact .error (of_code rfl)

theorem yields_executeImplied (coherent : s.Coherent) (ts : Tokens) :
    Yields (executeImplied s ts) s.Follows Diagnostic.Ordinary :=
  .after (fair_checkTokens _ _ _ _) fun _ => .after (fair_requireWorkspaceOrModel s ts) fun _ =>
    .after (fair_readBool _ _) fun enabled => .ok (follows_withBuilder coherent
      (coherent.safe (.setImpliedRelationships enabled) (List.forall_mem_nil _) rfl))

theorem fair_resolved {α : Type} (ts : Tokens) (answer : Except String α) :
    Fair (resolved ts answer) := by
  unfold resolved
  split
  · exact .ok trivial
  · exact .error (of_code rfl)

theorem fair_executeInclude (ts : Tokens) (file : Option String) :
    Fair (executeInclude setting ts file) :=
  .after (fair_checkTokens _ _ _ _) fun _ => .unless (fun _ => of_code rfl) fun _ =>
    .after (fair_resolved ts _) fun _ => .ok trivial

/-- Decisions are recorded against the element of the block, which is there. -/
theorem yields_decisionScope (coherent : s.Coherent) (ts : Tokens) :
    Yields (decisionScope s ts)
      (fun element => ∀ x ∈ element.toList.map Referent.element, s.builder.Has x)
      Diagnostic.Ordinary := by
  unfold decisionScope
  split
  · exact .ok (List.forall_mem_nil _)
  case h_2 id here => exact .ok (coherent.here here)
  · exact .error (of_code rfl)

/-- Decisions that are read from files are recorded, or refused by faults of the files. -/
theorem yields_executeDecisions (coherent : s.Coherent) (ts : Tokens) (file : Option String) :
    Yields (executeDecisions setting s ts file) s.Follows Diagnostic.Ordinary := by
  have made : ∀ d, Yields (readRecord ts d) Decision.Made Diagnostic.Ordinary := by
    intro d
    unfold readRecord
    split
    case h_1 decision read => exact .ok (made_read _ _ decision read)
    case h_2 => exact .error (of_code rfl)
  refine .after (fair_checkTokens _ _ _ _) fun _ =>
    .bind (yields_decisionScope coherent ts) fun element known => ?_
  refine .unless (fun _ => of_code rfl) fun _ => .after (fair_resolved ts _) fun documents => ?_
  refine .bind (.mapM made) fun batch made => ?_
  exact coherent.build (coherent.safe (.addDecisions element batch made) known rfl) _

/-- Every directive leads on to a coherent session, directive by directive. -/
theorem yields_executeDirective (coherent : s.Coherent) (ts : Tokens) (file : Option String) :
    Yields (executeDirective setting s ts file) (fun answer => s.Follows answer.1)
      Diagnostic.Ordinary := by
  unfold executeDirective
  split
  · exact .bind (yields_executeConstant coherent ts) fun _ follows => .ok follows
  · exact .bind (yields_executeConstant coherent ts) fun _ follows => .ok follows
  · exact .after (fair_executeInclude ts file) fun _ => .ok coherent.follows
  · exact .bind (yields_executeDecisions coherent ts file) fun _ follows => .ok follows
  · exact .bind (yields_executeIdentifiers coherent ts) fun _ follows => .ok follows
  · exact .bind (yields_executeImplied coherent ts) fun _ follows => .ok follows
  · exact .error (of_code rfl)

/-! ### Lines -/

namespace Progress

variable {p p' p'' : Progress} {d : Diagnostic}

/-- The session is coherent, and the warnings report faults of the source. -/
structure Sound (p : Progress) : Prop where
  coherent : p.session.Coherent
  ordinary : ∀ d ∈ p.warnings, d.Ordinary

/-- The reading has come from `p` to `p'`, which is sound, by calls that refer to what is
there. -/
structure Reads (p p' : Progress) : Prop where
  sound : p'.Sound
  run : LeadsKnown p.session.builder p'.session.builder

theorem Sound.reads (sound : p.Sound) : p.Reads p :=
  ⟨sound, .refl⟩

theorem Reads.trans (first : p.Reads p') (second : p'.Reads p'') : p.Reads p'' :=
  ⟨second.sound, first.run.trans second.run⟩

theorem Sound.failure (sound : p.Sound) (ordinary : d.Ordinary) : (p.failure d).Ordinary :=
  List.forall_mem_cons.mpr ⟨ordinary, sound.ordinary⟩

/-- A fault of the source on a line is one in the failure of the reading. -/
theorem Sound.check (sound : p.Sound) {α : Type} {P : α → Prop} {answer : Except Diagnostic α}
    (yields : Yields answer P Diagnostic.Ordinary) (line : SourceLine) :
    Yields (p.check line answer) P Failure.Ordinary := by
  cases yields with
  | ok holds => exact .ok holds
  | error ordinary => exact .error (sound.failure (ordinary.withLine line))

/-- Warnings are kept with those before them. -/
theorem Sound.warnAll (sound : p.Sound) (strict : Bool) (line : SourceLine)
    {ds : List Diagnostic} (ordinary : ∀ d ∈ ds, d.Ordinary) :
    Yields (p.warnAll strict line ds)
      (fun p' => p'.session = p.session ∧ ∀ d ∈ p'.warnings, d.Ordinary) Failure.Ordinary := by
  refine .foldlM (fun d listed p' kept => ?_) ⟨rfl, sound.ordinary⟩
  obtain ⟨same, earlier⟩ := kept
  have next : (d.withLine line).Ordinary := (ordinary d listed).withLine line
  refine .ite (fun _ => .error ?_) fun _ => .ok ⟨same, ?_⟩
  · exact List.forall_mem_cons.mpr ⟨next.asError, earlier⟩
  · intro d' member
    rcases List.mem_append.mp member with member | member
    · exact earlier d' member
    · obtain rfl := List.mem_singleton.mp member
      exact next

end Progress

variable {p : Progress} {file : Option String} {line : SourceLine}

theorem fair_lineTokens (l : Source.LogicalLine) : Fair (lineTokens l) := by
  unfold lineTokens
  split
  · exact .ok trivial
  · exact .error (of_code rfl)

/-- A line of tokens keeps the reading sound, whatever the line is. -/
theorem yields_readTokens (sound : p.Sound) (l : Source.LogicalLine) (ts : Tokens) :
    Yields (readTokens setting file l line ts p) (fun answer => p.Reads answer.1)
      Failure.Ordinary := by
  unfold readTokens
  refine .unless (fun _ => sound.failure (of_code rfl)) fun _ => ?_
  refine .ite (fun _ => ?_) fun _ => .ite (fun _ => ?_) fun _ => ?_
  · refine .bind (sound.check (sound.coherent.closeBlock ts) line) fun s' reads => ?_
    exact .ok ⟨⟨reads.coherent, sound.ordinary⟩, reads.run⟩
  · refine .bind (sound.check (yields_executeDirective sound.coherent ts file) line) ?_
    rintro ⟨s', inclusion⟩ follows
    have reads := follows.reads sound.coherent
    exact .ok ⟨⟨reads.coherent, sound.ordinary⟩, reads.run⟩
  · refine .bind (sound.warnAll _ line ordinary_of_advice) ?_
    rintro p₁ ⟨same, ordinary⟩
    have sound₁ : p₁.Sound := ⟨same ▸ sound.coherent, ordinary⟩
    refine .bind (sound₁.check (yields_runStatement sound.coherent _ l.number) line) ?_
    exact fun s' reads => .ok ⟨⟨reads.coherent, ordinary⟩, reads.run⟩

theorem yields_readLine (sound : p.Sound) (l : Source.LogicalLine) :
    Yields (readLine setting file l p) (fun answer => p.Reads answer.1) Failure.Ordinary := by
  unfold readLine
  refine .after (sound.check (fair_lineTokens l) _) fun raw => ?_
  refine .ite (fun _ => .ok sound.reads) fun _ => ?_
  refine .bind (sound.warnAll _ _ ordinary_of_constantAdvice) ?_
  rintro p₁ ⟨same, ordinary⟩
  have sound₁ : p₁.Sound := ⟨same ▸ sound.coherent, ordinary⟩
  refine (yields_readTokens sound₁ l _).mono fun answer reads => ⟨reads.sound, ?_⟩
  exact same ▸ reads.run

/-! ### Sources -/

def Includer.Sound (includer : Includer) : Prop :=
  ∀ line span d (p : Progress), p.Sound → Yields (includer line span d p) p.Reads Failure.Ordinary

variable {includer : Includer}

/-- Lines and what they include keep the reading sound, by induction on the lines. -/
theorem yields_readLines (sound : p.Sound) (includes : includer.Sound)
    (ls : List Source.LogicalLine) :
    Yields (readLines setting file includer ls p) p.Reads Failure.Ordinary := by
  induction ls generalizing p with
  | nil => exact .ok sound.reads
  | cons l rest ih =>
    refine .bind (yields_readLine sound l) ?_
    rintro ⟨p₁, inclusion⟩ read
    have included : ∀ {p₂}, p.Reads p₂ →
        Yields (readLines setting file includer rest p₂) p.Reads Failure.Ordinary :=
      fun reads => (ih reads.sound).mono fun _ later => reads.trans later
    cases inclusion with
    | none => exact included read
    | some i =>
      refine .bind (P := p.Reads) (.foldlM (fun d _ p₂ reads => ?_) read) fun p₂ => included
      exact (includes _ i.span d p₂ reads.sound).mono fun _ later => reads.trans later

theorem yields_readContent (sound : p.Sound) (includes : includer.Sound) (content : String) :
    Yields (readContent setting file includer content p) p.Reads Failure.Ordinary := by
  unfold readContent
  split
  · exact yields_readLines sound includes _
  · exact .error (sound.failure (of_code rfl))

/-- Reading a source with all that it includes keeps the reading sound, however deep the
includes go. -/
theorem yields_readSource (sound : p.Sound) (depth : Nat) (opened : List (Option String))
    (content : String) :
    Yields (readSource setting depth opened file content p) p.Reads Failure.Ordinary := by
  have cycle : ∀ {p : Progress} line span d, p.Sound → (includeCycle line span d p).Ordinary :=
    fun _ _ _ sound => sound.failure (of_code rfl)
  induction depth generalizing opened file content p with
  | zero =>
    exact yields_readContent sound (fun line span d _ sound => .error (cycle line span d sound))
      content
  | succ depth ih =>
    refine yields_readContent sound (fun line span d p sound => ?_) content
    exact .ite (fun _ => .error (cycle line span d sound)) fun _ => ih sound _ _

theorem fair_checkAllClosed (s : Session) : Fair s.checkAllClosed := by
  unfold checkAllClosed
  split
  · exact .ok trivial
  · exact .error (of_code rfl)

/-- What a reading answers, and how it fails. -/
theorem yields_interpret (coherent : s.Coherent) (setting : Setting) (name : Option String)
    (source : String) :
    Yields (interpret setting s name source)
      (fun parsed => (∀ d ∈ parsed.warnings, d.Ordinary) ∧
        ∃ b, LeadsKnown s.builder b ∧ parsed.workspace = b.finish)
      Failure.Ordinary := by
  have sound : ({ session := s } : Progress).Sound := ⟨coherent, List.forall_mem_nil _⟩
  unfold interpret
  refine .bind (yields_readSource sound _ [name] source) fun p reads => ?_
  have closed := fair_checkAllClosed p.session
  split
  · exact .ok ⟨reads.sound.ordinary, p.session.builder, reads.run, rfl⟩
  case h_2 d unclosed =>
    rw [unclosed] at closed
    cases closed with
    | error ordinary => exact .error (reads.sound.failure ordinary)

/-! ### Prepared sessions -/

/-- The sessions on which a source is read: without contents or on top of a reachable
builder, with names bound to elements that are there. -/
inductive Session.Prepared : Session → Prop where
  | start (options : Options) : Prepared (.start options)
  | ofBuilder {b : Builder} (reachable : b.Reachable) (options : Options) :
      Prepared (.ofBuilder b options)
  | bindExternal {s s' : Session} (earlier : Prepared s) {name : String} {id : ElementId}
      (bound : s.bindExternal name id = .ok s') : Prepared s'

/-- Where no name is bound and no block is open, there is nothing to refer to. -/
theorem coherent_ofBuilder {b : Builder} (reachable : b.Reachable) (options : Options) :
    (Session.ofBuilder b options).Coherent where
  reachable := reachable
  bound := by
    rintro binding ⟨e, ⟨⟩, -⟩
  blocks := List.forall_mem_nil _
  counted := fun _ _ _ => Nat.zero_le _

/-- An element is bound to a name only if it is there. -/
theorem coherent_bindExternal (coherent : s.Coherent) {name : String} {id : ElementId}
    (bound : s.bindExternal name id = .ok s') : s'.Coherent := by
  obtain ⟨e, found, rest⟩ := Check.bind_eq_ok.mp bound
  have has : s.builder.Has (.element id) := by
    unfold Session.element at found
    split at found
    case h_1 e known =>
      exact ⟨e, Model.element?_eq_some (Builder.element_eq_ok.mp known)⟩
    case h_2 => cases found
  unfold Registry.registerExternal at rest
  split at rest
  case h_1 r registered =>
    split at registered
    · cases registered
    · obtain rfl := Except.ok.inj registered
      obtain rfl := Except.ok.inj rest
      have has' : s.builder.Has (Binding.element id).referent := has
      exact (coherent.follows_bind name [] has').coherent
  case h_2 => cases rest

theorem Session.Prepared.coherent (prepared : s.Prepared) : s.Coherent := by
  induction prepared with
  | start options => exact coherent_ofBuilder (reachable_start options) options
  | ofBuilder reachable options => exact coherent_ofBuilder reachable options
  | bindExternal _ bound coherent => exact coherent_bindExternal coherent bound

/-! ### Every reading -/

/-- **No reading ends in an internal error.**  Whatever the source, the options and the
resolver are, and on whichever prepared session it is read: no diagnostic of its failure,
and no warning about it, reports a fault of the reader. -/
theorem no_internal_errors (prepared : s.Prepared) (setting : Setting) (name : Option String)
    (source : String) :
    (∀ failure, interpret setting s name source = .error failure →
      ∀ d ∈ failure.diagnostics, ¬ d.IsInternal) ∧
    ∀ parsed, interpret setting s name source = .ok parsed →
      ∀ d ∈ parsed.warnings, ¬ d.IsInternal := by
  have yields := yields_interpret prepared.coherent setting name source
  constructor
  · intro failure failed
    rw [failed] at yields
    cases yields with
    | error ordinary => exact ordinary
  · intro parsed read
    rw [read] at yields
    cases yields with
    | ok holds => exact holds.1

/-- A view of orders with two parallel blocks, one inside the other, and a constant that is
not defined, as a source for a workspace with a shop and a customer. -/
def ordersSource : String :=
  "workspace \x7b\n views \x7b\n  dynamic * Orders \x7b\n   customer -> shop Orders\n" ++
    "   \x7b\n    customer -> shop $\x7bmeans\x7d\n    \x7b\n     customer -> shop Pays\n" ++
    "    \x7d\n   \x7d\n  \x7d\n \x7d\n\x7d\n"

def namedShop : Except Diagnostic Session :=
  (Session.ofBuilder Builder.shop {}).bindExternal "customer" ⟨3⟩ >>= (·.bindExternal "shop" ⟨1⟩)

theorem prepared_of_namedShop {s : Session} (named : namedShop = .ok s) : s.Prepared := by
  obtain ⟨s₁, first, second⟩ := Check.bind_eq_ok.mp named
  exact .bindExternal (.bindExternal (.ofBuilder Builder.reachable_shop {}) first) second

/-- The orders are read on top of the shop, with a warning about the constant; a brace by
itself is refused. -/
theorem orders_of_shop :
    ∃ s parsed failure, namedShop = .ok s ∧ interpret {} s none ordersSource = .ok parsed ∧
      parsed.warnings.length = 1 ∧ (∀ d ∈ parsed.warnings, ¬ d.IsInternal) ∧
        interpret {} s none "\x7d" = .error failure ∧
          ∀ d ∈ failure.diagnostics, ¬ d.IsInternal := by
  have read : (do
      let s ← namedShop.toOption
      let parsed ← (interpret {} s none ordersSource).toOption
      let failed := (interpret {} s none "\x7d").isOk
      return (parsed.warnings.length, failed)) = some (1, false) := by decide +kernel
  simp only [Option.bind_eq_bind, Option.bind_eq_some_iff, Check.toOption_eq_some,
    Option.pure_def, Option.some.injEq, Prod.mk.injEq] at read
  obtain ⟨s, named, parsed, answer, one, failed⟩ := read
  have ordinary := no_internal_errors (prepared_of_namedShop named) {} none
  cases refused : interpret {} s none "\x7d" with
  | ok parsed' =>
    rw [refused] at failed
    cases failed
  | error failure =>
    exact ⟨s, parsed, failure, named, answer, one, (ordinary ordersSource).2 parsed answer,
      refused, (ordinary _).1 failure refused⟩

/-- A reading makes calls that add every nested deployment node in the environment of its
parent. -/
theorem leadsMatching_interpret (coherent : s.Coherent) (setting : Setting)
    (name : Option String) (source : String) {parsed : Parsed}
    (read : interpret setting s name source = .ok parsed) :
    ∃ b, LeadsMatching s.builder b ∧ parsed.workspace = b.finish := by
  have yields := yields_interpret coherent setting name source
  rw [read] at yields
  cases yields with
  | ok holds =>
    obtain ⟨b, run, same⟩ := holds.2
    exact ⟨b, run.matching coherent.grown, same⟩

/-- **Every view is well formed** in every builder that is reached by calls that add each
nested deployment node in the environment of its parent.  Every reading makes such calls,
so the views of every workspace that is read are well formed. -/
theorem views_well_formed :
    (∀ name description b, LeadsMatching (.new name description) b →
      ∀ v ∈ b.views.views, v.WellFormed b) ∧
    (∀ setting (s : Session) name source parsed, s.Prepared →
      interpret setting s name source = .ok parsed →
        ∃ b, LeadsMatching s.builder b ∧ parsed.workspace = b.finish) ∧
    ∀ setting name source parsed, parse setting name source = .ok parsed →
      ∃ b : Builder, b.Reachable ∧ parsed.workspace = b.finish ∧
        ∀ v ∈ b.views.views, v.WellFormed b := by
  have formed : ∀ name description b, LeadsMatching (.new name description) b →
      ∀ v ∈ b.views.views, v.WellFormed b := by
    intro name description b run v member
    have grown : (Builder.new name description).Grown := ⟨name, description, .refl⟩
    have reachable : b.Reachable := ⟨name, description, run.leads⟩
    have blank : (Builder.new name description).model.OneEnvironment := by
      rintro p ⟨⟩
    exact reachable.wellFormed (run.oneEnvironment grown blank) member
  refine ⟨formed, ?_, ?_⟩
  · intro setting s name source parsed prepared read
    exact leadsMatching_interpret prepared.coherent setting name source read
  · intro setting name source parsed read
    have coherent := (Session.Prepared.start setting.options).coherent
    obtain ⟨b, run, same⟩ := leadsMatching_interpret coherent setting name source read
    have begun : LeadsMatching (.new "Workspace" "") (Session.start setting.options).builder :=
      .call .refl (.setImpliedRelationships setting.options.impliedRelationships) trivial
    have whole := begun.trans run
    exact ⟨b, ⟨"Workspace", "", whole.leads⟩, same, formed _ _ b whole⟩

/-- A shop that is deployed on a server inside another one, with a view of its deployment. -/
def deployedSource : String :=
  "workspace \x7b\n model \x7b\n  shop = softwareSystem Shop\n" ++
    "  deploymentEnvironment Live \x7b\n   deploymentNode Site \x7b\n" ++
    "    deploymentNode Server \x7b\n     softwareSystemInstance shop\n    \x7d\n   \x7d\n" ++
    "  \x7d\n \x7d\n views \x7b\n  deployment * Live \x7b\n   include *\n  \x7d\n \x7d\n\x7d\n"

/-- The view shows the instance with the two servers around it. -/
theorem views_of_deployed :
    ∃ parsed b v, parse {} none deployedSource = .ok parsed ∧ parsed.workspace = Builder.finish b ∧
      v ∈ b.views.views ∧ v.elements.length = 3 ∧ v.WellFormed b := by
  have three : (parse {} none deployedSource).toOption.map
      (·.workspace.views.views.map (·.elements.length)) = some [3] := by decide +kernel
  obtain ⟨parsed, answer, shown⟩ := Check.toOption_map_eq_some.mp three
  obtain ⟨-, -, formed⟩ := views_well_formed
  obtain ⟨b, -, same, formed⟩ := formed {} none deployedSource parsed answer
  rw [same] at shown
  have member : 3 ∈ b.views.views.map (·.elements.length) := shown ▸ List.mem_singleton_self _
  obtain ⟨v, listed, own⟩ := List.mem_map.mp member
  exact ⟨parsed, b, v, answer, same, listed, own, formed v listed⟩

end Language

end Edifice
