import Edifice.Proofs.Language.Forms

/-!
Nesting.

The open blocks of a session carry what is around them by hand: a group the element that
holds it and the names of the groups around it, a deployment node its environment.  They
agree with the blocks that the lines show (`Shown`), because every block that opens takes
over what is said of the one around it, and every line that declares something takes it
from the innermost block.  So after every line the model is what the outline of the lines
tells (`Outline.Tells`), and a reading makes of its source what the outline of the source
says (`model_mirrors_source`).
-/

namespace Edifice

/-- What contains an element of a kind is deployed if it is. -/
theorem ElementKind.isDeployment_of_canContain {parent child : ElementKind}
    (contains : parent.canContain child) : parent.isDeployment = child.isDeployment := by
  cases parent <;> cases child <;> first | rfl | cases contains

/-- Groups are declared inside of nothing that is deployed. -/
theorem ElementKind.isDeployment_of_supportsGroups {kind : ElementKind}
    (supports : kind.supportsGroups = true) : kind.isDeployment = false := by
  cases kind <;> first | rfl | cases supports

namespace Language

open Check Session
open Builder (LeadsSilent)

/-! ### Open blocks -/

theorem Frames.block?_eq_head? (frames : Frames) :
    frames.block? = (frames.map (·.block)).head? :=
  List.head?_map.symm

/-- The open blocks are those that lines show, and carry what is around them; `elements`
are those of the model. -/
inductive Shown (elements : List Element) (separator : Option String) :
    List Block → List Enclosure → Prop where
  | outside : Shown elements separator [] []
  | workspace : Shown elements separator [.workspace] [.workspace]
  | model : Shown elements separator [.model, .workspace] [.model, .workspace]
  | settings : Shown elements separator [.properties .model, .model, .workspace]
      [.settings, .model, .workspace]
  | environment (name : String) :
      Shown elements separator [.deploymentEnvironment name, .model, .workspace]
        [.environment name, .model, .workspace]
  | group {blocks : List Block} {around : List Enclosure} {own name : String}
      {parent : Option ElementId} (outer : Shown elements separator blocks around)
      (named : Site.group? ⟨.group own :: around, separator⟩ = some name)
      (held : Site.Within ⟨around, separator⟩ elements parent)
      (static : Site.environment? ⟨around, separator⟩ = none) :
      Shown elements separator (.group name parent :: blocks) (.group own :: around)
  | element {blocks : List Block} {around : List Enclosure} {count : Nat} {e : Element}
      (outer : Shown elements separator blocks around) (found : elements[count]? = some e)
      (near : e.kind.isDeployment = (Site.environment? ⟨around, separator⟩).isSome) :
      Shown elements separator (.element e.id :: blocks) (.element count :: around)
  | node {blocks : List Block} {around : List Enclosure} {count : Nat} {e : Element}
      {name : String} (outer : Shown elements separator blocks around)
      (found : elements[count]? = some e) (placed : e.environment = some name)
      (near : Site.environment? ⟨around, separator⟩ = some name) :
      Shown elements separator (.deploymentNode e.id name :: blocks) (.element count :: around)
  | other {blocks : List Block} {around : List Enclosure} {block : Block}
      (outer : Shown elements separator blocks around) (shapeless : block.shapesModel = false) :
      Shown elements separator (block :: blocks) (.other :: around)

variable {elements : List Element} {separator : Option String} {blocks : List Block}
  {around : List Enclosure} {block : Block} {m : Model} {kind : ElementKind}
  {parent : Option ElementId} {environment : Option String}

namespace Shown

/-- A larger model shows the same blocks. -/
theorem append (shown : Shown elements separator blocks around) (more : List Element) :
    Shown (elements ++ more) separator blocks around := by
  have kept : ∀ {count : Nat} {e : Element}, elements[count]? = some e →
      (elements ++ more)[count]? = some e := by
    intro count e found
    rw [List.getElem?_append_left (List.getElem?_eq_some_iff.mp found).1]
    exact found
  induction shown with
  | outside => exact .outside
  | workspace => exact .workspace
  | model => exact .model
  | settings => exact .settings
  | environment name => exact .environment name
  | group _ named held static outer => exact .group outer named (held.append more) static
  | element _ found near outer => exact .element outer (kept found) near
  | node _ found placed near outer => exact .node outer (kept found) placed near
  | other _ shapeless outer => exact .other outer shapeless

/-- The blocks around the innermost one. -/
theorem tail (shown : Shown elements separator (block :: blocks) around) :
    Shown elements separator blocks around.tail := by
  cases shown with
  | workspace => exact .outside
  | model => exact .workspace
  | settings => exact .model
  | environment => exact .model
  | group outer | element outer | node outer | other outer => exact outer

/-- The nearest body of an element is that of the nearest element around. -/
theorem within (shown : Shown elements separator blocks around) :
    Site.Within ⟨around, separator⟩ elements (blocks.findSome? Block.element?) := by
  induction shown with
  | outside | workspace | model | settings | environment => exact .none
  | group _ _ _ _ outer => exact outer
  | element _ found | node _ found => exact .some (by simp [found])
  | other _ shapeless outer =>
    rw [List.findSome?_cons, Block.element?_of_shapeless shapeless]
    exact outer

/-- The innermost block is a group if the line shows one, and carries the joined names. -/
theorem group?_eq {frames : Frames}
    (shown : Shown elements separator (frames.map (·.block)) around) :
    frames.group? = Site.group? ⟨around, separator⟩ := by
  unfold Frames.group?
  rw [frames.block?_eq_head?]
  generalize frames.map (·.block) = blocks at shown
  cases shown with
  | group _ named =>
    rw [named]
    rfl
  | @other _ _ block _ shapeless => cases block <;> first | rfl | cases shapeless
  | _ => rfl

/-! ### Declared elements -/

/-- The element under an id has the core that the list of elements has for it. -/
theorem core_eq {next : Nat} (numbered : m.Numbered next) {count : Nat} {e p : Element}
    (listed : m.skeleton.elements[count]? = some e) (found : m.element? e.id = some p) :
    p.core = e := by
  have member : e ∈ m.skeleton.elements := List.mem_of_getElem? listed
  have known := (Model.numbered_skeleton.mpr numbered).element?_of_mem member
  rw [Model.element?_skeleton, found] at known
  exact Option.some.inj known

/-- Around an element that is not deployed there is no environment. -/
theorem outside_of_static {next : Nat} (numbered : m.Numbered next) {count : Nat} {e p : Element}
    (listed : m.skeleton.elements[count]? = some e) (found : m.element? e.id = some p)
    (static : p.kind.isDeployment = false)
    (near : e.kind.isDeployment = (Site.environment? ⟨around, separator⟩).isSome) :
    Site.environment? ⟨around, separator⟩ = none := by
  have same := congrArg Element.kind (core_eq numbered listed found)
  rw [Element.core_kind] at same
  rw [← same, static] at near
  exact Option.isNone_iff_eq_none.mp (Option.isSome_eq_false_iff.mp near.symm)

/-- What a block says of an element that is declared in it is what is around. -/
theorem holds (shown : Shown m.skeleton.elements separator (block :: blocks) around) {next : Nat}
    (numbered : m.Numbered next) (holds : block.Holds m kind parent environment)
    (checked : m.checkPlace kind parent = .ok ()) :
    Site.Within ⟨around, separator⟩ m.skeleton.elements parent ∧
      environment = Site.environment? ⟨around, separator⟩ ∧
        kind.isDeployment = environment.isSome := by
  cases holds with
  | model static =>
    cases shown with
    | model => exact ⟨.none, rfl, static⟩
    | other _ shapeless => cases shapeless
  | group static =>
    cases shown with
    | group _ _ held static' => exact ⟨held, static'.symm, static⟩
    | other _ shapeless => cases shapeless
  | element static =>
    cases shown with
    | other _ shapeless => cases shapeless
    | element _ found near =>
      refine ⟨.some (by rw [found]; rfl), ?_, static⟩
      -- Only what is deployed lies in an environment, and that holds nothing static.
      rcases Model.checkPlace_eq_ok.mp checked with ⟨top, -⟩ | ⟨id, p, inside, known, contains⟩
      · cases top
      · obtain rfl := Option.some.inj inside
        have above := (ElementKind.isDeployment_of_canContain contains).trans static
        exact (outside_of_static numbered found known above near).symm
  | environment name =>
    cases shown with
    | environment => exact ⟨.none, rfl, rfl⟩
    | other _ shapeless => cases shapeless
  | node =>
    cases shown with
    | node _ found _ near => exact ⟨.some (by rw [found]; rfl), near.symm, rfl⟩
    | other _ shapeless => cases shapeless
  | deployed deployment other known =>
    cases shown with
    | other _ shapeless => cases shapeless
    | node _ found placed near =>
      have same := congrArg Element.environment (core_eq numbered found known)
      rw [Element.core_environment, placed] at same
      rw [same]
      exact ⟨.some (by rw [found]; rfl), near.symm, deployment⟩

/-- The body of an element that has been declared shows the element. -/
theorem body (shown : Shown elements separator (block :: blocks) around) {e : Element}
    (holds : block.Holds m kind parent environment) (own : e.kind = kind)
    (placed : e.environment = environment)
    (near : environment = Site.environment? ⟨around, separator⟩)
    (deployment : kind.isDeployment = environment.isSome) :
    Shown (elements ++ [e]) separator (bodyOf kind block e.id :: block :: blocks)
      (.element elements.length :: around) := by
  have outer := shown.append [e]
  have found : (elements ++ [e])[elements.length]? = some e := List.getElem?_concat_length
  have plain : bodyOf kind block e.id = .element e.id →
      Shown (elements ++ [e]) separator (bodyOf kind block e.id :: block :: blocks)
        (.element elements.length :: around) := by
    intro same
    rw [same]
    exact .element outer found (by rw [own, deployment, near])
  cases holds with
  | environment | node => exact .node outer found placed near.symm
  | deployed _ other =>
    refine plain ?_
    cases kind <;> first | rfl | exact absurd rfl other
  | _ =>
    refine plain ?_
    cases kind <;> rfl

end Shown

/-! ### What an outline tells -/

/-- What the outline tells of a workspace that started from the model `before`. -/
structure Outline.Tracks (o : Outline) (before : Model) (b : Builder) : Prop where
  numbered : b.Numbered
  first : o.first = before.elements.length
  elements : ∃ added, b.model.skeleton.elements = before.skeleton.elements ++ added ∧
    List.Forall₂ (fun d e => d.Describes b.model.skeleton.elements e) o.elements added
  relationships : ∃ added, b.model.skeleton.authored = before.skeleton.authored ++ added ∧
    List.Forall₂ (LeadsFrom b.model.skeleton.elements) o.sources added
  separator : b.model.groupSeparator? = o.site.separator

structure Outline.Tells (o : Outline) (before : Model) (s : Session) : Prop where
  tracks : o.Tracks before s.builder
  shown : Shown s.builder.model.skeleton.elements o.site.separator (s.frames.map (·.block))
    o.site.around

/-- What an outline tells of the session after a statement, and what its block shows. -/
structure Outline.Foretells (before : Model) (told : Outline × Enclosure)
    (answer : Option Block × Session) : Prop where
  tells : told.1.Tells before answer.2
  opens : ∀ block, answer.1 = some block →
    Shown answer.2.builder.model.skeleton.elements told.1.site.separator
      (block :: answer.2.frames.map (·.block)) (told.2 :: told.1.site.around)

variable {o : Outline} {before : Model} {b b' : Builder} {s s' : Session} {setting : Setting}
  {colors : ColorReader}
  {ts : Tokens} {file : Option String} {inclusion : Option Inclusion}

namespace Outline.Tracks

variable (tracks : o.Tracks before b)
include tracks

theorem length_elements :
    b.model.skeleton.elements.length = o.first + o.elements.length := by
  obtain ⟨added, elements, described⟩ := tracks.elements
  rw [elements, List.length_append, described.length_eq, tracks.first]
  simp

/-- Which blocks are open is no matter of the workspace. -/
theorem within (around : List Enclosure) :
    { o with site := { o.site with around } }.Tracks before b :=
  ⟨tracks.numbered, tracks.first, tracks.elements, tracks.relationships, tracks.separator⟩

/-- Silent calls change nothing that an outline tells. -/
theorem silent (run : LeadsSilent b b') : o.Tracks before b' := by
  have skeleton := run.skeleton_eq
  have separator : b'.model.groupSeparator? = b.model.groupSeparator? := by
    unfold Model.groupSeparator?
    rw [run.modelProperties_eq]
  obtain ⟨numbered, first, elements, relationships, own⟩ := tracks
  refine ⟨(run.leads.evolves numbered).numbered numbered, first, ?_, ?_, separator.trans own⟩
  · rw [skeleton]
    exact elements
  · rw [skeleton]
    exact relationships

/-- An element has been declared. -/
theorem enters {draft : Element} {d : Declaration} (enters : b.Enters draft b')
    (describes : d.Describes b'.model.skeleton.elements (b.newElement draft).core) :
    { o with elements := o.elements ++ [d] }.Tracks before b' where
  numbered := enters.numbered
  first := tracks.first
  elements := by
    obtain ⟨added, elements, described⟩ := tracks.elements
    refine ⟨added ++ [(b.newElement draft).core], ?_, ?_⟩
    · rw [enters.elements, elements, List.append_assoc]
    · refine List.rel_append (described.imp fun d e holds => ?_) (.cons describes .nil)
      rw [enters.elements]
      exact holds.append _
  relationships := by
    obtain ⟨added, relationships, led⟩ := tracks.relationships
    refine ⟨added, enters.authored.trans relationships, led.imp fun place r leads => ?_⟩
    intro site left_out
    rw [enters.elements]
    exact (leads site left_out).append _
  separator := by
    rw [← tracks.separator, Model.groupSeparator?, enters.properties]
    rfl

/-- A relationship has been declared. -/
theorem relates {source : ElementId} {place : Option Site} (relates : b.Relates source b')
    (within : ∀ site, place = some site → site.Within b.model.skeleton.elements (some source)) :
    { o with sources := o.sources ++ [place] }.Tracks before b' where
  numbered := relates.numbered
  first := tracks.first
  elements := by
    rw [relates.elements]
    exact tracks.elements
  relationships := by
    obtain ⟨added, relationships, led⟩ := tracks.relationships
    obtain ⟨r, rfl, authored⟩ := relates.authored
    refine ⟨added ++ [r], ?_, ?_⟩
    · rw [authored, relationships, List.append_assoc]
    · rw [relates.elements]
      exact List.rel_append led (.cons within .nil)
  separator := by
    rw [← tracks.separator, Model.groupSeparator?, relates.properties]
    rfl

/-- A property of the model has been set. -/
theorem sets {name value : String} (set : Builder.addModelProperty name value b = .ok () b') :
    (o.set name value).Tracks before b' := by
  obtain ⟨_, -, modified⟩ := Change.ask_bind_eq_ok.mp set
  obtain rfl := Change.modify_eq_ok.mp modified
  obtain ⟨numbered, first, elements, relationships, separator⟩ := tracks
  have inserted : (b.model.properties.insert name value).get? groupSeparatorProperty =
      if groupSeparatorProperty = name then some value
      else b.model.properties.get? groupSeparatorProperty := Dictionary.get?_insert ..
  unfold Outline.set
  split
  case isTrue own =>
    refine ⟨numbered.of_stock_eq rfl, first, elements, relationships, ?_⟩
    rw [if_pos own.symm] at inserted
    exact congrArg (Option.filter (· != "")) inserted
  case isFalse other =>
    refine ⟨numbered.of_stock_eq rfl, first, elements, relationships, ?_⟩
    rw [if_neg (Ne.symm other)] at inserted
    exact (congrArg (Option.filter (· != "")) inserted).trans separator

end Outline.Tracks

namespace Outline.Tells

variable {answer : Option Block × Session}

/-- Silent calls change nothing that an outline tells, where the same blocks stay open. -/
theorem silent (tells : o.Tells before s) (run : LeadsSilent s.builder s'.builder)
    (frames : s'.frames = s.frames) : o.Tells before s' where
  tracks := tells.tracks.silent run
  shown := by
    rw [run.skeleton_eq, frames]
    exact tells.shown

/-- A statement that does nothing to the model opens a block in which nothing of it stands. -/
theorem quiet (tells : o.Tells before s) (silent : s.Silent answer) :
    Foretells before (o, .other) answer where
  tells := tells.silent silent.quiet.run silent.quiet.frames
  opens block opened :=
    .other (tells.silent silent.quiet.run silent.quiet.frames).shown (silent.shapeless block opened)

/-- The innermost block, as the line shows it. -/
theorem head (tells : o.Tells before s) (here : s.frames.block? = some block) :
    ∃ blocks, s.frames.map (·.block) = block :: blocks ∧
      Shown s.builder.model.skeleton.elements o.site.separator (block :: blocks)
        o.site.around := by
  rw [Frames.block?_eq_head?] at here
  obtain ⟨blocks, stack⟩ := List.head?_eq_some_iff.mp here
  exact ⟨blocks, stack, stack ▸ tells.shown⟩

/-! ### Declarations -/

/-- A relationship leads from the nearest element, if its source is left out. -/
theorem of_relationship (tells : o.Tells before s) {identifier : Option Token} {st : Statement}
    (executed : executeRelationship s identifier st = .ok answer) :
    Foretells before (o.declare (.relationship (st.tokens.isAt 0 arrow))) answer := by
  obtain ⟨source, b, id, relates, nearest, opened, run, frames⟩ :=
    relates_executeRelationship tells.tracks.numbered st answer executed
  have within : ∀ site, (if st.tokens.isAt 0 arrow = true then some o.site else none) = some site →
      site.Within s.builder.model.skeleton.elements (some source) := by
    intro site left_out
    split at left_out
    case isTrue outgoing =>
      obtain rfl := Option.some.inj left_out
      have around := tells.shown.within
      rw [List.findSome?_map] at around
      rwa [← nearest outgoing]
    case isFalse => cases left_out
  have tells' : (o.declare (.relationship (st.tokens.isAt 0 arrow))).1.Tells before answer.2 := by
    refine ⟨(tells.tracks.relates relates within).silent run, ?_⟩
    rw [run.skeleton_eq, relates.elements, frames]
    exact tells.shown
  refine ⟨tells', fun block opens => ?_⟩
  obtain rfl := Option.some.inj (opened.symm.trans opens)
  exact .other tells'.shown rfl

/-- An element is declared in the place that the lines show. -/
theorem of_element (tells : o.Tells before s) (here : s.frames.block? = some block)
    {identifier : Option Token} {st : Statement}
    (executed : executeElement s kind identifier st block = .ok answer) :
    Foretells before (o.declare (.element kind (st.tokens.text 1))) answer := by
  obtain ⟨id, s₁, ⟨same, rfl, draft, enters, rfl, name, group, holds⟩, opened, run, frames⟩ :=
    houses_executeElement tells.tracks.numbered here st answer executed
  obtain ⟨blocks, stack, shown⟩ := tells.head here
  have checked := (Builder.checkElement_eq_ok.mp enters.checked).1
  obtain ⟨within, environment, deployment⟩ := shown.holds tells.tracks.numbered holds checked
  let e := s.builder.newElement draft
  let d : Declaration := { kind := draft.kind, name := st.tokens.text 1, site := o.site }
  have describes : d.Describes s₁.builder.model.skeleton.elements e.core := by
    refine ⟨rfl, name, ?_, environment, group.trans tells.shown.group?_eq⟩
    rw [enters.elements]
    exact within.append [e.core]
  have body : Shown s₁.builder.model.skeleton.elements o.site.separator
      (bodyOf draft.kind block e.id :: s.frames.map (·.block))
      (.element (o.first + o.elements.length) :: o.site.around) := by
    rw [enters.elements, stack, ← tells.tracks.length_elements]
    exact shown.body holds rfl rfl environment deployment
  refine ⟨⟨(tells.tracks.enters enters describes).silent run, ?_⟩, fun block opens => ?_⟩
  · rw [run.skeleton_eq, frames]
    exact body.tail
  · obtain rfl := Option.some.inj (opened.symm.trans opens)
    rw [run.skeleton_eq, frames]
    exact body

/-- An environment is opened under its name. -/
theorem of_environment (tells : o.Tells before s) (here : s.frames.block? = some block)
    {identifier : Option Token} {st : Statement}
    (executed : executeEnvironment s identifier st block = .ok answer) :
    Foretells before (o.declare (.environment (st.tokens.text 1))) answer := by
  obtain ⟨rfl, opened, builder, frames⟩ := opens_executeEnvironment st answer executed
  obtain ⟨blocks, stack, shown⟩ := tells.head here
  have run : LeadsSilent s.builder answer.2.builder := builder ▸ .refl
  refine ⟨tells.silent run frames, fun block opens => ?_⟩
  obtain rfl := Option.some.inj (opened.symm.trans opens)
  rw [frames, stack]
  dsimp only [declare]
  generalize o.site.around = around at shown
  cases shown with
  | model => exact .environment _
  | other _ shapeless => cases shapeless

/-- A group carries the names of the groups around it and its own. -/
theorem of_group (tells : o.Tells before s) (here : s.frames.block? = some block)
    {st : Statement} (executed : executeGroup s st block = .ok answer) :
    Foretells before (o.declare (.group (st.tokens.text 1))) answer := by
  obtain ⟨inner, groups, rfl⟩ := groups_executeGroup st answer executed
  obtain ⟨blocks, stack, shown⟩ := tells.head here
  refine ⟨tells, fun block opens => ?_⟩
  obtain rfl := Option.some.inj opens
  dsimp only [declare]
  rw [stack]
  have numbered := tells.tracks.numbered
  have own := tells.tracks.separator
  obtain ⟨first, ⟨around, separator⟩, elements, sources⟩ := o
  dsimp only at shown own ⊢
  cases groups with
  | model =>
    cases shown with
    | model => exact .group .model (Site.group?_group ..) .none rfl
    | other _ shapeless => cases shapeless
  | element known supports =>
    cases shown with
    | other _ shapeless => cases shapeless
    | element outer found near =>
      have static := ElementKind.isDeployment_of_supportsGroups supports
      exact .group (.element outer found near) (Site.group?_group ..)
        (.some (by rw [found]; rfl)) (Shown.outside_of_static numbered found known static near)
  | group separated =>
    cases shown with
    | other _ shapeless => cases shapeless
    | group outer named held static =>
      refine .group (.group outer named held static) ?_ held static
      rw [Site.group?_group, named, ← own, separated]
      rfl

/-- Where the model is described, a statement comes to what its form tells. -/
theorem of_model (tells : o.Tells before s) (here : s.frames.block? = some block)
    (st : Statement) :
    Gives (executeModel s st block) (Foretells before (o.declare st.form)) := by
  intro answer executed
  have states := states_executeModel st answer executed
  generalize st.form = form at states ⊢
  cases states with
  | relationship executed => exact tells.of_relationship executed
  | element executed => exact tells.of_element here executed
  | environment executed => exact tells.of_environment here executed
  | group executed => exact tells.of_group here executed
  | settings model =>
    subst model
    obtain ⟨blocks, stack, shown⟩ := tells.head here
    refine ⟨tells, fun block opens => ?_⟩
    obtain rfl := Option.some.inj opens
    dsimp only [declare]
    rw [stack]
    generalize o.site.around = around at shown
    cases shown with
    | model => exact .settings
    | other _ shapeless => cases shapeless
  | body inside silent =>
    obtain ⟨blocks, stack, shown⟩ := tells.head here
    have inner : o.site.around.head? ≠ some .model := by
      generalize o.site.around = around at shown
      cases shown with
      | element | node | other => simp
      | _ => cases inside
    have told : o.declare .other = (o, .other) := by
      rw [declare, if_neg inner]
    rw [told]
    exact tells.quiet silent

/-! ### Statements -/

/-- The first statement of all opens the workspace. -/
theorem of_root (tells : o.Tells before s) (outside : s.frames.map (·.block) = [])
    (none_around : o.site.around = []) (st : Statement) :
    Gives (executeRoot s st) (Foretells before (o, .workspace)) := by
  intro answer executed
  obtain ⟨quiet, opened⟩ := quiet_executeRoot st answer executed
  refine ⟨tells.silent quiet.run quiet.frames, fun block opens => ?_⟩
  obtain rfl := Option.some.inj (opened.symm.trans opens)
  rw [quiet.frames, outside]
  dsimp only
  rw [none_around]
  exact .workspace

/-- In the workspace block, one statement opens the model. -/
theorem of_workspace (tells : o.Tells before s)
    (inside : s.frames.map (·.block) = [.workspace]) (around : o.site.around = [.workspace])
    (st : Statement) :
    Gives (executeWorkspace s st)
      (Foretells before (o, if st.keyword = "model" then .model else .other)) := by
  intro answer executed
  obtain ⟨quiet, opened⟩ := quiet_executeWorkspace st answer executed
  refine ⟨tells.silent quiet.run quiet.frames, fun block opens => ?_⟩
  have shape := opened block opens
  rw [quiet.frames, inside]
  dsimp only
  rw [around]
  split at shape
  case isTrue model =>
    rw [if_pos model, shape]
    exact .model
  case isFalse other =>
    rw [if_neg other]
    exact .other .workspace shape

/-- A line of the properties of the model sets one of them. -/
theorem of_settings (tells : o.Tells before s) (st : Statement)
    (inside : s.frames.map (·.block) = [.properties .model, .model, .workspace])
    (around : o.site.around = [.settings, .model, .workspace]) :
    Gives (executeProperty s .model st)
      (Foretells before (o.set (st.tokens.text 0) (st.tokens.text 1), .other)) := by
  rintro ⟨opened, s'⟩ executed
  obtain ⟨rfl, b, set, rfl⟩ := sets_executeProperty st _ executed
  refine ⟨⟨tells.tracks.sets set, ?_⟩, fun block opens => nomatch opens⟩
  have same : (o.set (st.tokens.text 0) (st.tokens.text 1)).site.around = o.site.around := by
    unfold Outline.set
    split <;> rfl
  rw [same, around]
  exact inside ▸ .settings

/-- A statement comes to what the outline tells of it. -/
theorem of_statement (tells : o.Tells before s) (st : Statement) :
    Gives (executeStatement colors s st) (Foretells before (o.state st)) := by
  intro answer executed
  have shown := tells.shown
  have here := s.frames.block?_eq_head?
  unfold Outline.state
  generalize stack : s.frames.map (·.block) = blocks at shown here
  generalize enclosed : o.site.around = around at shown
  -- Only in blocks of other kinds can a brace stand by itself.
  have words : (∀ key, blocks.head? ≠ some (.dynamicView key) ∧
      blocks.head? ≠ some (.parallel key)) → executeWords colors s st = .ok answer := by
    rw [← here]
    intro plain
    unfold executeStatement executeBrace at executed
    split at executed
    · split at executed
      case h_1 key inner => exact absurd inner (plain key).1
      case h_2 key inner => exact absurd inner (plain key).2
      case h_3 => cases executed
    · exact executed
  unfold executeWords at words
  rw [here] at words
  cases shown with
  | outside => exact tells.of_root stack enclosed st answer (words (by simp))
  | workspace => exact tells.of_workspace stack enclosed st answer (words (by simp))
  | settings => exact tells.of_settings st stack enclosed answer (words (by simp))
  | model | environment | group | element | node =>
    exact tells.of_model here st answer (words (by simp))
  | other _ shapeless =>
    exact tells.quiet (silent_executeStatement st here shapeless answer executed)

/-! ### Lines -/

/-- A line leads to what the outline tells after it. -/
theorem after (tells : o.Tells before s) (performs : s.Performs setting file ts (s', inclusion)) :
    (o.after ts).Tells before s' := by
  unfold Outline.after
  cases performs with
  | closes closing closed =>
    rw [if_pos closing]
    obtain ⟨⟨frame, frames⟩, run, -, -⟩ := closes_closeBlock ts s' closed
    refine ⟨(tells.tracks.silent run).within _, ?_⟩
    have shown := tells.shown
    rw [frames] at shown
    rw [run.skeleton_eq]
    exact shown.tail
  | directs other directive executed =>
    rw [if_neg (Bool.eq_false_iff.mp other), if_pos directive]
    cases directs_executeDirective setting ts _ _ executed with
    | quiet quiet => exact tells.silent quiet.run quiet.frames
    | chooses chosen => exact ⟨tells.tracks, tells.shown⟩
  | runs other statement ran =>
    rw [if_neg (Bool.eq_false_iff.mp other), if_neg (Bool.eq_false_iff.mp statement)]
    obtain ⟨⟨block, s₁⟩, executed, ran⟩ := bind_eq_ok.mp ran
    obtain ⟨told, opens⟩ := tells.of_statement (.ofTokens ts) _ executed
    dsimp only at ran ⊢
    by_cases opening : (Statement.ofTokens ts).opensBlock = true
    · rw [if_pos opening] at ran ⊢
      cases block with
      | none => cases ran
      | some block =>
        obtain rfl := Except.ok.inj ran
        exact ⟨told.tracks.within _, opens block rfl⟩
    · rw [if_neg opening] at ran ⊢
      obtain rfl := Except.ok.inj ran
      exact told

/-- Lines lead to what the outline tells after them. -/
theorem run {lines : List Tokens} (tells : o.Tells before s)
    (passes : s.Passes setting lines s') : (lines.foldl Outline.after o).Tells before s' := by
  induction passes generalizing o with
  | nil => exact tells
  | cons advances _ ih =>
    obtain ⟨file, inclusion, performs⟩ := advances.performs
    exact ih (tells.after performs)

end Outline.Tells

/-- Before anything is read, the outline of no lines tells of the session. -/
theorem tells_start (prepared : s.Prepared) : (Outline.of s.builder.model []).Tells
    s.builder.model s where
  tracks :=
    { numbered := prepared.coherent.reachable.grown.numbered
      first := rfl
      elements := ⟨[], (List.append_nil _).symm, .nil⟩
      relationships := ⟨[], (List.append_nil _).symm, .nil⟩
      separator := rfl }
  shown := by
    rw [prepared.fresh.frames]
    exact .outside

/-- What has been added to a list, up to what is forgotten of it. -/
theorem map_drop_of_append {α β : Type} {f : α → β} {l l' : List α} {added : List β}
    (grown : l'.map f = l.map f ++ added) : (l'.drop l.length).map f = added := by
  rw [List.map_drop, grown]
  exact List.drop_left' (List.length_map f)

/-- What an outline tells of a workspace is what its model mirrors. -/
theorem Outline.Tracks.mirrors (tracks : o.Tracks before b) : o.Mirrors before b.model where
  elements := by
    obtain ⟨added, elements, described⟩ := tracks.elements
    rw [← map_drop_of_append elements, List.forall₂_map_right_iff] at described
    exact described.imp fun d e holds => Declaration.describes_core.mp holds
  relationships := by
    obtain ⟨added, relationships, led⟩ := tracks.relationships
    rw [Model.authored_skeleton, Model.authored_skeleton] at relationships
    rw [← map_drop_of_append relationships, List.forall₂_map_right_iff] at led
    exact led.imp fun place r leads site left_out => Site.within_map_core.mp (leads site left_out)
  separator := tracks.separator

/-- The lines that the source spells, with all that it includes, have an outline, and the
workspace that is read has been made of the model `before` as the outline tells. -/
def Mirrored (setting : Setting) (before : Model) (name : Option String) (source : String)
    (w : Workspace) : Prop :=
  ∃ lines, Writes setting name source lines ∧
    (∀ lines', Writes setting name source lines' → lines' = lines) ∧
      (Outline.of before lines).Mirrors before w.model

/-- What is read on top of a prepared session mirrors its source. -/
theorem mirrored_interpret (prepared : s.Prepared) (name : Option String) (source : String) :
    Gives (interpret setting s name source) fun parsed =>
      Mirrored setting s.builder.model name source parsed.workspace := by
  intro parsed read
  obtain ⟨lines, s', writes, passes, -, same⟩ :=
    passes_interpret prepared.fresh name source parsed read
  refine ⟨lines, writes, fun _ writes' => writes.unique writes', ?_⟩
  rw [same]
  exact ((tells_start prepared).run passes).tracks.mirrors

/-- **The model mirrors the block structure of its source.**  Of every source that is read,
on top of a prepared session or from the start, with all that it includes: the new elements
are those that its lines declare, in their order, each in the nearest element around it, in
the environment around it, and in the groups directly around it, joined with the separator
that the model has there; and each relationship that is declared without its source leads
from the nearest element around it. -/
theorem model_mirrors_source (setting : Setting) (name : Option String) (source : String) :
    (∀ s, s.Prepared → ∀ parsed, interpret setting s name source = .ok parsed →
      Mirrored setting s.builder.model name source parsed.workspace) ∧
    ∀ parsed, parse setting name source = .ok parsed →
      Mirrored setting {} name source parsed.workspace := by
  constructor
  · intro s prepared parsed read
    exact mirrored_interpret prepared name source parsed read
  · intro parsed read
    exact mirrored_interpret (.start setting.options) name source parsed read

/-- The separator of groups, a shop in nested groups with a container in a group of its own,
and a rack on a server. -/
def shopDocuments : List Document :=
  [{ name := "settings"
     content := "properties \x7b\nstructurizr.groupSeparator /\n\x7d" },
   { name := "shops"
     content := "group Shops \x7b\ngroup Web \x7b\nshop = softwareSystem Shop \x7b\n" ++
      "group Team \x7b\ncontainer Api\n\x7d\n-> customer\n\x7d\n\x7d\n\x7d" },
   { name := "live"
     content := "deploymentEnvironment Live \x7b\ndeploymentNode Server \x7b\n" ++
      "deploymentNode Rack\n\x7d\n\x7d" }]

def shopsSetting : Setting where
  resolver := .inMemory shopDocuments

/-- A root with a customer that includes the other sources. -/
def shopsSource : String :=
  "workspace \x7b\nmodel \x7b\n!include settings\ncustomer = person Customer\n" ++
    "!include shops\n!include live\n\x7d\n\x7d"

/-- A branch in a group, declared on top of the shop. -/
def branchSource : String :=
  "workspace \x7b\nmodel \x7b\ngroup Chain \x7b\nsoftwareSystem Branch \x7b\n" ++
    "-> customer\n\x7d\n\x7d\n\x7d\n\x7d"

/-- The customer, the shop, its container, the server and the rack are where the lines show
them, and the relationship leads from the shop; on top of another shop, so is a branch. -/
theorem mirrored_shops :
    (∃ parsed, parse shopsSetting none shopsSource = .ok parsed ∧
      Mirrored shopsSetting {} none shopsSource parsed.workspace ∧
      parsed.workspace.model.elements.map (fun e => (e.parent, e.environment, e.group)) =
        [(none, none, none), (none, none, some "Shops/Web"), (some ⟨2⟩, none, some "Team"),
          (none, some "Live", none), (some ⟨5⟩, some "Live", none)] ∧
      parsed.workspace.model.authored.map (·.source) = [⟨2⟩]) ∧
    ∃ s parsed, namedShop = .ok s ∧ s.Prepared ∧
      interpret {} s none branchSource = .ok parsed ∧
      Mirrored {} s.builder.model none branchSource parsed.workspace ∧
      parsed.workspace.model.elements.getLast?.map (fun e => (e.id, e.group)) =
        some (⟨12⟩, some "Chain") ∧
      parsed.workspace.model.authored.getLast?.map (·.source) = some ⟨12⟩ := by
  constructor
  · have read : (parse shopsSetting none shopsSource).toOption.map (fun parsed =>
        (parsed.workspace.model.elements.map fun e => (e.parent, e.environment, e.group),
          parsed.workspace.model.authored.map (·.source))) =
        some ([(none, none, none), (none, none, some "Shops/Web"), (some ⟨2⟩, none, some "Team"),
          (none, some "Live", none), (some ⟨5⟩, some "Live", none)], [⟨2⟩]) := by
      decide +kernel
    obtain ⟨parsed, answer, same⟩ := toOption_map_eq_some.mp read
    obtain ⟨places, sources⟩ := Prod.mk.inj same
    exact ⟨parsed, answer, (model_mirrors_source shopsSetting none shopsSource).2 parsed answer,
      places, sources⟩
  · have read : (namedShop.toOption.bind fun s =>
        (interpret {} s none branchSource).toOption).map (fun parsed =>
          (parsed.workspace.model.elements.getLast?.map fun e => (e.id, e.group),
            parsed.workspace.model.authored.getLast?.map (·.source))) =
        some (some (⟨12⟩, some "Chain"), some ⟨12⟩) := by
      decide +kernel
    simp only [Option.map_eq_some_iff, Option.bind_eq_some_iff, toOption_eq_some] at read
    obtain ⟨parsed, ⟨s, named, answer⟩, same⟩ := read
    obtain ⟨place, source⟩ := Prod.mk.inj same
    have prepared := prepared_of_namedShop named
    exact ⟨s, parsed, named, prepared, answer,
      (model_mirrors_source {} none branchSource).1 s prepared parsed answer, place, source⟩

end Language

end Edifice
