import Edifice.Proofs.Language.Naming
import Edifice.Proofs.Language.Runs

/-!
Paths to what is declared inside of elements.

With hierarchical identifiers the scope of a declaration is the list of the elements whose
bodies are open, and the path to it is made of their names.  Where nothing is bound from
outside, every element is bound once, in the scope in which its body opens, and no name is
a path (`Session.Charted`).  So following the path from the scope of the workspace passes
from each element into the scope in which the next one is bound (`follow_chain`), and it
goes on to do so, because what is bound stays bound.
-/

namespace Edifice.Language

open Check Identifier
open Builder (Call)

/-! ### What lines declare -/

namespace Session

/-- The line `ts` declares the element `id` and assigns it to `name`. -/
structure Declares (s : Session) (ts : Tokens) (s' : Session) (name : String) (id : ElementId) :
    Prop where
  assigned : (Statement.ofTokens ts).identifier?.map (·.text) = some name
  undeclared : ¬ s.builder.model.Declares id
  declared : s'.builder.model.Declares id

/-- On the way from `s₀` to `s` a line has declared the element `id` and assigned it to
`name`. -/
def Declared (setting : Setting) (s₀ s : Session) (name : String) (id : ElementId) : Prop :=
  ∃ u ts u', s₀.Course setting u ∧ u.Advances setting ts u' ∧ u.Declares ts u' name id ∧
    u'.Course setting s

variable {s s' : Session} {identifier : Option Token} {block : Option Block} {setting : Setting}
  {name : String} {id : ElementId}

theorem Quiet.ids_eq (quiet : s.Quiet s') : s'.builder.ids = s.builder.ids :=
  Builder.ids_of_stock_eq quiet.run.stock_eq

/-- A statement declares no element, or the one whose body its block is. -/
theorem Enacts.ids (enacts : s.Enacts identifier (block, s')) (numbered : s.builder.Numbered) :
    (s'.builder.ids = s.builder.ids ∧ ∀ b, block = some b → b.element? = none) ∨
      ∃ b id, block = some b ∧ b.element? = some id ∧
        s'.builder.ids = s.builder.ids ++ [id] := by
  cases enacts with
  | silent silent =>
    exact .inl ⟨silent.quiet.ids_eq, fun b opened =>
      Block.element?_of_shapeless (silent.shapeless b opened)⟩
  | opens quiet plain =>
    refine .inl ⟨quiet.ids_eq, ?_⟩
    rintro _ ⟨⟩
    exact plain
  | @setting name value _ _ here set =>
    obtain ⟨b, ran, rfl⟩ := build_eq_ok.mp set
    have same := (Call.addModelProperty name value).ids_eq numbered ran
    exact .inl ⟨same.trans (List.append_nil _), fun _ opened => nomatch opened⟩
  | environment named =>
    left
    rw [same_nameEnvironment _ _ _ named]
    refine ⟨rfl, ?_⟩
    rintro _ ⟨⟩
    rfl
  | @relationship source destination description technology _ id s₁ s₂ _ added tagged bound =>
    left
    have declared : s₁.builder.ids = s.builder.ids := by
      obtain ⟨b, ran, rfl⟩ := buildWith_eq_ok.mp added
      let c : Call := .addRelationship source destination description technology
      exact (c.ids_eq numbered ran).trans (List.append_nil _)
    rw [same_bindRelationship _ _ _ bound]
    refine ⟨tagged.ids_eq.trans declared, ?_⟩
    rintro _ ⟨⟩
    rfl
  | @element kind block id s₁ s₂ _ here entered described bound =>
    right
    obtain ⟨c, a, ran, own⟩ := entered.call
    have declared := c.ids_eq numbered ran
    rw [own] at declared
    refine ⟨_, id, rfl, element?_bodyOf kind block id, ?_⟩
    rw [same_bindElement _ _ _ bound]
    exact described.ids_eq.trans declared

/-- A statement that declares an element and assigns it to a name binds it in the scope of
the innermost block. -/
theorem Enacts.register (enacts : s.Enacts identifier (block, s'))
    (numbered : s.builder.Numbered) (assigned : identifier.map (·.text) = some name)
    (undeclared : id ∉ s.builder.ids) (declared : id ∈ s'.builder.ids) :
    s.registry.register name (.element id) s.frames.scope = .ok s'.registry := by
  rcases enacts.ids numbered with ⟨same, -⟩ | ⟨b, id', rfl, body, more⟩
  · rw [same] at declared
    exact absurd declared undeclared
  · obtain rfl : id = id' := by
      rw [more, List.mem_append, List.mem_singleton] at declared
      exact declared.resolve_left undeclared
    generalize registered : s'.registry = r
    have binds := enacts.binds.1
    rw [registered] at binds
    cases binds with
    | nothing plain =>
      rw [plain b rfl] at body
      cases body
    | relationship => cases body
    | named body' named =>
      obtain rfl := Option.some.inj assigned
      obtain rfl := Option.some.inj (body.symm.trans body')
      exact named
    | unnamed => cases assigned

/-- A line that declares an element and assigns it to a name binds it in the scope of the
innermost block. -/
theorem Advances.register {ts : Tokens} (advances : s.Advances setting ts s')
    (numbered : s.builder.Numbered) (declares : s.Declares ts s' name id) :
    s.registry.register name (.element id) s.frames.scope = .ok s'.registry := by
  obtain ⟨assigned, undeclared, declared⟩ := declares
  rw [← Builder.mem_ids] at undeclared declared
  have unchanged : s'.builder.ids = s.builder.ids → False := by
    intro same
    rw [same] at declared
    exact undeclared declared
  cases advances.acts with
  | closes _ _ run => exact (unchanged (Builder.ids_of_stock_eq run.stock_eq)).elim
  | quiet quiet => exact (unchanged quiet.ids_eq).elim
  | chooses => exact (unchanged rfl).elim
  | stays enacts => exact enacts.register numbered assigned undeclared declared
  | opens _ _ enacts => exact enacts.register numbered assigned undeclared declared

/-! ### Where elements are bound -/

/-- Every element is bound in one scope, that in which its body is opened, and no name is a
path. -/
structure Charted (s : Session) : Prop where
  numbered : s.builder.Numbered
  declared : ∀ e ∈ s.registry.entries, ∀ id, e.binding = .element id → id ∈ s.builder.ids
  single : ∀ e ∈ s.registry.entries, ∀ e' ∈ s.registry.entries, ∀ id,
    e.binding = .element id → e'.binding = .element id → e.scope = e'.scope
  opened : ∀ f (outer : Frames), f :: outer <:+ s.frames → ∀ id, f.block.element? = some id →
    ∃ e ∈ s.registry.entries, e.binding = .element id ∧ e.scope = outer.scope
  plain : ∀ e ∈ s.registry.entries, isPath e.name = false

/-- Where nothing is bound and no block is open yet, a session is charted. -/
theorem charted_ofBuilder {b : Builder} (reachable : b.Reachable) (options : Options) :
    (Session.ofBuilder b options).Charted where
  numbered := reachable.grown.numbered
  declared := List.forall_mem_nil _
  single := List.forall_mem_nil _
  opened := by
    intro f outer inside
    cases List.suffix_nil.mp inside
  plain := List.forall_mem_nil _

/-- With no more bindings, and no more open blocks, a session stays charted. -/
theorem Charted.of_entries (charted : s.Charted)
    (entries : s'.registry.entries = s.registry.entries) (frames : s'.frames <:+ s.frames)
    (numbered : s'.builder.Numbered) (more : s.builder.ids ⊆ s'.builder.ids) : s'.Charted where
  numbered := numbered
  declared := by
    rw [entries]
    exact fun e member id bound => more (charted.declared e member id bound)
  single := by
    rw [entries]
    exact charted.single
  opened := by
    rw [entries]
    exact fun f outer inside => charted.opened f outer (inside.trans frames)
  plain := by
    rw [entries]
    exact charted.plain

/-- Binding a name that is no path, and with it no element but a new one, keeps a session
charted. -/
theorem Charted.bind (charted : s.Charted) {e : RegistryEntry}
    (entries : s'.registry.entries = e :: s.registry.entries) (frames : s'.frames = s.frames)
    (numbered : s'.builder.Numbered) (more : s.builder.ids ⊆ s'.builder.ids)
    (plain : isPath e.name = false)
    (new : ∀ id, e.binding = .element id → id ∉ s.builder.ids ∧ id ∈ s'.builder.ids) :
    s'.Charted where
  numbered := numbered
  declared := by
    rw [entries]
    refine List.forall_mem_cons.mpr ⟨fun id own => (new id own).2, ?_⟩
    exact fun e member id bound => more (charted.declared e member id bound)
  single := by
    -- What is new was bound nowhere before.
    have unbound : ∀ e' ∈ s.registry.entries, ∀ id, e.binding = .element id →
        e'.binding = .element id → False := fun e' member id own bound =>
      (new id own).1 (charted.declared e' member id bound)
    rw [entries]
    intro e₁ member₁ e₂ member₂ id bound₁ bound₂
    rcases List.mem_cons.mp member₁ with rfl | earlier₁
    · rcases List.mem_cons.mp member₂ with rfl | earlier₂
      · rfl
      · exact (unbound e₂ earlier₂ id bound₁ bound₂).elim
    · rcases List.mem_cons.mp member₂ with rfl | earlier₂
      · exact (unbound e₁ earlier₁ id bound₂ bound₁).elim
      · exact charted.single e₁ earlier₁ e₂ earlier₂ id bound₁ bound₂
  opened := by
    rw [frames]
    intro f outer inside id body
    obtain ⟨e', member, bound⟩ := charted.opened f outer inside id body
    exact ⟨e', entries ▸ List.mem_cons_of_mem e member, bound⟩
  plain := by
    rw [entries]
    exact List.forall_mem_cons.mpr ⟨plain, charted.plain⟩

/-- A block can be opened where the element whose body it is has just been bound. -/
theorem Charted.openBlock (charted : s.Charted) {block : Block}
    (bound : ∀ id, block.element? = some id →
      ∃ e ∈ s.registry.entries, e.binding = .element id ∧ e.scope = s.frames.scope)
    (line : Nat) (span : Span) : (s.openBlock block line span).Charted where
  numbered := charted.numbered
  declared := charted.declared
  single := charted.single
  opened := by
    intro f outer inside
    rcases List.suffix_cons_iff.mp inside with same | inside
    · obtain ⟨rfl, rfl⟩ := List.cons.inj same
      exact bound
    · exact charted.opened f outer inside
  plain := charted.plain

/-- The element whose body the block of a statement is has just been declared. -/
theorem Enacts.new {b : Block} (enacts : s.Enacts identifier (some b, s'))
    (numbered : s.builder.Numbered) (numbered' : s'.builder.Numbered)
    (body : b.element? = some id) : id ∉ s.builder.ids ∧ id ∈ s'.builder.ids := by
  rcases enacts.ids numbered with ⟨-, plain⟩ | ⟨_, id', ⟨⟩, body', more⟩
  · rw [plain b rfl] at body
    cases body
  · obtain rfl := Option.some.inj (body.symm.trans body')
    have distinct : s'.builder.ids.Nodup := numbered'.nodup_elements
    rw [more] at distinct ⊢
    refine ⟨fun earlier => ?_, List.mem_append_right _ (List.mem_singleton_self id)⟩
    exact List.disjoint_of_nodup_append distinct earlier (List.mem_singleton_self id)

theorem Enacts.ids_subset (enacts : s.Enacts identifier (block, s'))
    (numbered : s.builder.Numbered) : s.builder.ids ⊆ s'.builder.ids := by
  rcases enacts.ids numbered with ⟨same, -⟩ | ⟨_, _, -, -, more⟩
  · rw [same]
    exact List.Subset.refl _
  · rw [more]
    exact List.subset_append_left _ _

/-- A statement keeps a session charted, and binds the element whose body its block is. -/
theorem Enacts.charted (enacts : s.Enacts identifier (block, s')) (charted : s.Charted) :
    s'.Charted ∧ ∀ b id, block = some b → b.element? = some id →
      ∃ e ∈ s'.registry.entries, e.binding = .element id ∧ e.scope = s'.frames.scope := by
  have numbered : s'.builder.Numbered :=
    (enacts.leads.evolves charted.numbered).numbered charted.numbered
  have more := enacts.ids_subset charted.numbered
  obtain ⟨binds, frames⟩ := enacts.binds
  have inside : s'.frames <:+ s.frames := frames ▸ List.suffix_refl _
  generalize registry : s'.registry = r at binds
  cases binds with
  | nothing plain =>
    refine ⟨charted.of_entries (congrArg _ registry) inside numbered more, ?_⟩
    intro b id opens body
    rw [plain b opens] at body
    cases body
  | relationship registered =>
    obtain ⟨valid, -, rfl⟩ := Registry.register_eq_ok.mp registered
    constructor
    · apply charted.bind (congrArg _ registry) frames numbered more (isPath_of_isValid valid)
      rintro _ ⟨⟩
    · rintro _ _ ⟨⟩ ⟨⟩
  | @named t b id _ body registered =>
    obtain ⟨valid, -, rfl⟩ := Registry.register_eq_ok.mp registered
    constructor
    · apply charted.bind (congrArg _ registry) frames numbered more (isPath_of_isValid valid)
      rintro _ ⟨⟩
      exact enacts.new charted.numbered numbered body
    · rintro _ id' ⟨⟩ body'
      obtain rfl := Option.some.inj (body.symm.trans body')
      rw [frames]
      let e : RegistryEntry := ⟨s.frames.scope, t.text, .element id⟩
      exact ⟨e, List.mem_cons_self, rfl, rfl⟩
  | @unnamed b id body =>
    constructor
    · apply charted.bind (congrArg _ registry) frames numbered more (isPath_anonymous _)
      rintro _ ⟨⟩
      exact enacts.new charted.numbered numbered body
    · rintro _ id' ⟨⟩ body'
      obtain rfl := Option.some.inj (body.symm.trans body')
      rw [frames]
      let e : RegistryEntry := ⟨s.frames.scope, anonymous id.index, .element id⟩
      exact ⟨e, List.mem_cons_self, rfl, rfl⟩

/-- A line keeps a session charted. -/
theorem Acts.charted (acts : s.Acts identifier s') (charted : s.Charted) : s'.Charted := by
  have numbered : s'.builder.Numbered :=
    (acts.leads.evolves charted.numbered).numbered charted.numbered
  cases acts with
  | closes frame frames run registry =>
    have same := Builder.ids_of_stock_eq run.stock_eq
    apply charted.of_entries (congrArg _ registry) _ numbered (same ▸ List.Subset.refl _)
    rw [frames]
    exact List.suffix_cons _ _
  | quiet quiet =>
    have inside : s'.frames <:+ s.frames := quiet.frames ▸ List.suffix_refl _
    exact charted.of_entries (congrArg _ quiet.registry) inside numbered
      (quiet.ids_eq ▸ List.Subset.refl _)
  | @chooses mode r chosen =>
    have entries : r.entries = s.registry.entries := by
      unfold Registry.setMode? at chosen
      split at chosen
      · obtain rfl := Option.some.inj chosen
        rfl
      · split at chosen
        · obtain rfl := Option.some.inj chosen
          rfl
        · cases chosen
    exact charted.of_entries entries (List.suffix_refl _) numbered (List.Subset.refl _)
  | stays enacts => exact (enacts.charted charted).1
  | @opens b s₁ line span enacts =>
    obtain ⟨charted₁, bound⟩ := enacts.charted charted
    exact charted₁.openBlock (fun id body => bound b id rfl body) line span

theorem Course.charted (course : s.Course setting s') (charted : s.Charted) : s'.Charted := by
  induction course with
  | refl => exact charted
  | tail _ step ih =>
    obtain ⟨ts, advances⟩ := step
    exact advances.acts.charted ih

/-! ### Paths -/

/-- What has been declared is bound somewhere to the name to which it was assigned. -/
theorem Declared.bound {s₀ : Session} (declared : Declared setting s₀ s name id)
    (charted : s₀.Charted) (faithful : s₀.registry.Faithful) :
    isValid name = true ∧ ∃ scope, ⟨scope, name, .element id⟩ ∈ s.registry.entries ∧
      s.registry.bound? scope name = some (.element id) := by
  obtain ⟨u, ts, u', before, advances, declares, further⟩ := declared
  have registered := advances.register (before.charted charted).numbered declares
  have faithful' : u'.registry.Faithful :=
    advances.acts.grows.faithful (before.evolves.faithful faithful)
  obtain ⟨valid, -, grown⟩ := Registry.register_eq_ok.mp registered
  have member : ⟨u.frames.scope, name, .element id⟩ ∈ u'.registry.entries := by
    rw [grown]
    exact List.mem_cons_self
  have bound : u'.registry.bound? u.frames.scope name = some (.element id) := by
    rw [grown, Registry.bound?_bind, if_pos ⟨rfl, rfl⟩]
  exact ⟨valid, u.frames.scope, further.evolves.entries_suffix.subset member,
    further.evolves.bound?_eq faithful' bound fun _ => isAnonymous_of_isValid valid⟩

/-- An element whose body is open, and that has been declared by its name, is bound to it in
the scope inside of the next. -/
theorem Charted.bound_around {s₀ : Session} (charted : s.Charted) (framed : s.Framed)
    (hierarchical : s.registry.mode = .hierarchical) {outer : Scope}
    (inside : id :: outer <:+ s.frames.around) (declared : Declared setting s₀ s name id)
    (charted₀ : s₀.Charted) (faithful₀ : s₀.registry.Faithful) :
    s.registry.bound? outer name = some (.element id) := by
  obtain ⟨inner, cut⟩ := inside
  obtain ⟨_, frames, whole, -, rest⟩ := List.filterMap_eq_append_iff.mp cut.symm
  obtain ⟨passed, f, around, rfl, -, body, rfl⟩ := List.filterMap_eq_cons_iff.mp rest
  have opened : f :: around <:+ s.frames := by
    rw [whole]
    exact (List.suffix_append passed _).trans (List.suffix_append _ _)
  obtain ⟨e, member, own, here⟩ := charted.opened f around opened id body
  have inward := framed.scopes around ((List.suffix_cons f around).trans opened)
  rw [hierarchical] at inward
  obtain ⟨-, scope, listed, bound⟩ := declared.bound charted₀ faithful₀
  obtain rfl : scope = scopeWithin .hierarchical (Frames.around around) :=
    (charted.single _ listed e member id rfl own).trans (here.trans inward)
  exact bound

/-- Of the names of the elements whose bodies are open, each is bound in the scope inside of
the next element. -/
theorem Charted.bound_names {s₀ : Session} (charted : s.Charted) (framed : s.Framed)
    (hierarchical : s.registry.mode = .hierarchical) (charted₀ : s₀.Charted)
    (faithful₀ : s₀.registry.Faithful) {names : List (String × ElementId)}
    (around : names.map Prod.snd = s.frames.around)
    (assigned : ∀ n ∈ names, Declared setting s₀ s n.1 n.2) {n : String × ElementId}
    {outer : List (String × ElementId)} (inside : n :: outer <:+ names) :
    s.registry.bound? (outer.map Prod.snd) n.1 = some (.element n.2) := by
  have body : n.2 :: outer.map Prod.snd <:+ s.frames.around := around ▸ inside.map Prod.snd
  have declared := assigned n (inside.subset List.mem_cons_self)
  exact charted.bound_around framed hierarchical body declared charted₀ faithful₀

/-- **Hierarchical paths reach what they name.**  In a course of lines, as every reading is
(`course_readSource`), before which nothing is bound, let a line declare the element `e` and
assign it to `x` inside of the bodies of one or more elements, which have been assigned to
`names`, outermost first; blocks of other kinds may be open between them.  In every later
state in which identifiers are hierarchical, the path made of these names and `x` stands for
`e` in every scope. -/
theorem hierarchical_paths_reach (setting : Setting) (b : Builder) (reachable : b.Reachable)
    (options : Options) (s s' t : Session) (ts : Tokens) (x : String) (e : ElementId)
    (names : List (String × ElementId)) (course : (ofBuilder b options).Course setting s)
    (advances : s.Advances setting ts s') (declares : s.Declares ts s' x e)
    (inside : names ≠ []) (around : names.map Prod.snd = s.frames.around.reverse)
    (assigned : ∀ n ∈ names, Declared setting (ofBuilder b options) s n.1 n.2)
    (further : s'.Course setting t) (hierarchical : t.registry.mode = .hierarchical) :
    ∀ place, t.registry.resolve (".".intercalate (names.map Prod.fst ++ [x])) place =
      some (.element e) := by
  intro place
  have charted₀ := charted_ofBuilder reachable options
  have faithful₀ : (ofBuilder b options).registry.Faithful := List.forall_mem_nil _
  have charted := course.charted charted₀
  have framed := course.framed (bare_ofBuilder b options).framed
  have faithful := course.evolves.faithful faithful₀
  have whole : s.registry.Evolves t.registry :=
    further.evolves.head advances.acts.grows
  have charted' : t.Charted := further.charted (advances.acts.charted charted)
  -- A body is open, so a name is bound and the mode is settled.
  have used : s.registry.entries ≠ [] := by
    intro unused
    rw [framed.unopened unused] at around
    exact inside (List.map_eq_nil_iff.mp around)
  have mode : s.registry.mode = .hierarchical := by
    rw [← whole.mode_eq used]
    exact hierarchical
  have scope : s.frames.scope = s.frames.around := by
    rw [framed.scope_eq, mode]
    rfl
  -- The names lead inside, each bound in the scope inside of the one before it.
  have chosen : ∀ n ∈ names, isValid n.1 = true :=
    fun n member => ((assigned n member).bound charted₀ faithful₀).1
  have inward : names.reverse.map Prod.snd = s.frames.around := by
    rw [List.map_reverse, around, List.reverse_reverse]
  have chain : ∀ n outer, n :: outer <:+ names.reverse →
      t.registry.bound? (outer.map Prod.snd) n.1 = some (.element n.2) := by
    intro n outer inside
    have member : n ∈ names := List.mem_reverse.mp (inside.subset List.mem_cons_self)
    have bound := charted.bound_names framed mode charted₀ faithful₀ inward
      (fun n member => assigned n (List.mem_reverse.mp member)) inside
    exact whole.bound?_eq faithful bound fun _ => isAnonymous_of_isValid (chosen n member)
  obtain ⟨valid, -, grown⟩ :=
    Registry.register_eq_ok.mp (advances.register charted.numbered declares)
  have innermost : t.registry.bound? s.frames.around x = some (.element e) := by
    have bound : s'.registry.bound? s.frames.around x = some (.element e) := by
      rw [grown, Registry.bound?_bind, if_pos ⟨scope, rfl⟩]
    exact further.evolves.bound?_eq (advances.acts.grows.faithful faithful) bound
      fun _ => isAnonymous_of_isValid valid
  have followed : t.registry.follow [] (names.map Prod.fst ++ [x]) = some (.element e) := by
    have led := Registry.follow_chain chain (List.cons_ne_nil x [])
    rw [inward, List.map_reverse, List.reverse_reverse] at led
    rw [led]
    exact innermost
  have plain : ∀ n ∈ names.map Prod.fst ++ [x], isPath n = false := by
    intro n member
    apply isPath_of_isValid
    rcases List.mem_append.mp member with listed | last
    · obtain ⟨n', listed', rfl⟩ := List.mem_map.mp listed
      exact chosen n' listed'
    · rw [List.mem_singleton.mp last]
      exact valid
  have several : 2 ≤ (names.map Prod.fst ++ [x]).length := by
    have surrounded := List.length_pos_of_ne_nil inside
    simp only [List.length_append, List.length_map, List.length_singleton]
    omega
  exact Registry.resolve_path hierarchical charted'.plain plain several followed place

/-! ### A component in a container in a system -/

def tokensOf (text : String) : Tokens :=
  (lineTokens ⟨1, 0, text.toList⟩).toOption.getD []

def readText (s : Session) (text : String) : Except Failure (Progress × Option Inclusion) :=
  readTokens {} none ⟨1, 0, text.toList⟩ ⟨none, 1, 0, text⟩ (tokensOf text) { session := s }

/-- The session after a line of text, if the line is accepted. -/
def afterText (s : Session) (text : String) : Session :=
  match s.readText text with
  | .ok (p, _) => p.session
  | .error _ => s

theorem advances_afterText {text : String} (accepted : (s.readText text).toOption.isSome) :
    s.Advances {} (tokensOf text) (s.afterText text) := by
  unfold afterText
  cases read : s.readText text with
  | error f =>
    rw [read] at accepted
    cases accepted
  | ok answer => exact ⟨none, _, _, _, answer.1, answer.2, read, rfl, rfl⟩

def bankTexts : List String :=
  ["workspace \x7b", "model \x7b", "bank = softwareSystem Bank \x7b", "group Team \x7b",
    "api = container Api \x7b", "signin = component Signin", "\x7d", "\x7d", "\x7d", "\x7d",
    "\x7d"]

def bankAfter (lines : Nat) : Session :=
  (bankTexts.take lines).foldl afterText (.start hierarchicalOptions)

/-- Each line of the bank leads on to the next session, line by line. -/
theorem advances_bank : ∀ i (inside : i < 11),
    (bankAfter i).Advances {} (tokensOf bankTexts[i]) (bankAfter (i + 1)) := by
  have accepted : ∀ i (inside : i < 11),
      ((bankAfter i).readText bankTexts[i]).toOption.isSome := by decide +kernel
  intro i inside
  have next : bankAfter (i + 1) = (bankAfter i).afterText bankTexts[i] := by
    unfold bankAfter
    rw [List.take_succ_eq_append_getElem (show i < bankTexts.length from inside),
      List.foldl_append]
    rfl
  rw [next]
  exact advances_afterText (accepted i inside)

theorem course_bank {i j : Nat} (later : i ≤ j) (bounded : j ≤ 11) :
    (bankAfter i).Course {} (bankAfter j) := by
  induction later with
  | refl => exact .refl
  | @step j _ ih => exact (ih (by omega)).tail ⟨_, advances_bank j (by omega)⟩

/-- The component of the bank can be named from everywhere, though a group is around its
container. -/
theorem path_of_signin :
    (bankAfter 5).frames.map (·.block) =
        [.element ⟨2⟩, .group "Team" (some ⟨1⟩), .element ⟨1⟩, .model, .workspace] ∧
      ∀ place, (bankAfter 11).registry.resolve "bank.api.signin" place =
        some (.element ⟨3⟩) := by
  have blocks : (bankAfter 5).frames.map (·.block) =
      [.element ⟨2⟩, .group "Team" (some ⟨1⟩), .element ⟨1⟩, .model, .workspace] := by
    decide +kernel
  have around : (bankAfter 5).frames.around = [⟨2⟩, ⟨1⟩] := by decide +kernel
  have declared : (bankAfter 2).builder.ids = [] ∧ (bankAfter 3).builder.ids = [⟨1⟩] ∧
      (bankAfter 4).builder.ids = [⟨1⟩] ∧ (bankAfter 5).builder.ids = [⟨1⟩, ⟨2⟩] ∧
      (bankAfter 6).builder.ids = [⟨1⟩, ⟨2⟩, ⟨3⟩] := by decide +kernel
  obtain ⟨ids₂, ids₃, ids₄, ids₅, ids₆⟩ := declared
  have bank : (bankAfter 2).Declares (tokensOf bankTexts[2]) (bankAfter 3) "bank" ⟨1⟩ :=
    ⟨by decide +kernel, by rw [← Builder.mem_ids, ids₂]; decide,
      by rw [← Builder.mem_ids, ids₃]; decide⟩
  have api : (bankAfter 4).Declares (tokensOf bankTexts[4]) (bankAfter 5) "api" ⟨2⟩ :=
    ⟨by decide +kernel, by rw [← Builder.mem_ids, ids₄]; decide,
      by rw [← Builder.mem_ids, ids₅]; decide⟩
  have signin : (bankAfter 5).Declares (tokensOf bankTexts[5]) (bankAfter 6) "signin" ⟨3⟩ :=
    ⟨by decide +kernel, by rw [← Builder.mem_ids, ids₅]; decide,
      by rw [← Builder.mem_ids, ids₆]; decide⟩
  have assigned : ∀ n ∈ [("bank", (⟨1⟩ : ElementId)), ("api", ⟨2⟩)],
      Declared {} (bankAfter 0) (bankAfter 5) n.1 n.2 := by
    simp only [List.mem_cons, List.not_mem_nil, or_false]
    rintro n (rfl | rfl)
    · exact ⟨bankAfter 2, _, bankAfter 3, course_bank (by decide) (by decide),
        advances_bank 2 (by decide), bank, course_bank (by decide) (by decide)⟩
    · exact ⟨bankAfter 4, _, bankAfter 5, course_bank (by decide) (by decide),
        advances_bank 4 (by decide), api, .refl⟩
  have path : ".".intercalate ["bank", "api", "signin"] = "bank.api.signin" := by decide +kernel
  refine ⟨blocks, fun place => ?_⟩
  rw [← path]
  have before : (bankAfter 0).Course {} (bankAfter 5) := course_bank (by decide) (by decide)
  have further : (bankAfter 6).Course {} (bankAfter 11) := course_bank (by decide) (by decide)
  exact hierarchical_paths_reach {} _ (reachable_start hierarchicalOptions) hierarchicalOptions
    (bankAfter 5) (bankAfter 6) (bankAfter 11) _ "signin" ⟨3⟩ [("bank", ⟨1⟩), ("api", ⟨2⟩)]
    before (advances_bank 5 (by decide)) signin (List.cons_ne_nil _ _)
    (by rw [around]; rfl) assigned further (by decide +kernel) place

end Session

end Edifice.Language
