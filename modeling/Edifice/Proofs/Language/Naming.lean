import Edifice.Proofs.Identifier.Resolution
import Edifice.Proofs.Language.Courses

/-!
Names in runs of the interpreter.

A run of the interpreter binds names to elements that were there before and then executes
line after line (`Session.Visits`).  Each line binds one name at most (`Session.Binds`), and
does with the names what a registry permits (`Acts.grows`); so what a name stands for at one
time in a run, it stands for ever after (`resolution_is_stable`).

Whether a name is free is looked up outwards only.  A name that is bound inside of an
element is therefore never bound again further inside, but it can still be bound further
outside, once the body of the element has been closed or by a relationship, whose name is
bound in the scope of the workspace from wherever it is declared (`inner_names_come_first`).
-/

namespace Edifice.Language

open Check Identifier

/-! ### What a line binds -/

namespace Session

/-- What a statement binds that may be assigned to an identifier and may open a block. -/
inductive Binds (s : Session) : Option Token → Option Block → Registry → Prop where
  | nothing {identifier : Option Token} {block : Option Block}
      (plain : ∀ b, block = some b → b.element? = none) : s.Binds identifier block s.registry
  | relationship {t : Token} {id : RelationshipId} {r : Registry}
      (registered : s.registry.register t.text (.relationship id) [] = .ok r) :
      s.Binds (some t) (some (.relationship id)) r
  | named {t : Token} {block : Block} {id : ElementId} {r : Registry}
      (body : block.element? = some id)
      (registered : s.registry.register t.text (.element id) s.frames.scope = .ok r) :
      s.Binds (some t) (some block) r
  | unnamed {block : Block} {id : ElementId} (body : block.element? = some id) :
      s.Binds none (some block)
        (s.registry.registerAnonymous id.index (.element id) s.frames.scope)

variable {s s' t : Session} {identifier : Option Token} {block : Option Block}
  {setting : Setting} {r : Registry}

/-- A name is registered with a session as it is with its registry. -/
theorem registry_register {token : Token} {binding : Binding} {scope : Scope} :
    Gives (s.register token binding scope) fun s' =>
      s.registry.register token.text binding scope = .ok s'.registry := by
  unfold Session.register
  refine .ite .error ?_
  split
  case h_1 r registered => exact .ok registered
  case h_2 => exact .error

theorem element?_bodyOf (kind : ElementKind) (block : Block) (id : ElementId) :
    (bodyOf kind block id).element? = some id := by
  unfold bodyOf
  split <;> rfl

/-- A statement binds one name at most, and leaves the open blocks alone. -/
theorem Enacts.binds (enacts : s.Enacts identifier (block, s')) :
    s.Binds identifier block s'.registry ∧ s'.frames = s.frames := by
  cases enacts with
  | silent silent =>
    refine ⟨?_, silent.quiet.frames⟩
    have same : s'.registry = s.registry := silent.quiet.registry
    rw [same]
    exact .nothing fun block opened => Block.element?_of_shapeless (silent.shapeless block opened)
  | opens quiet plain =>
    rw [quiet.registry]
    refine ⟨.nothing ?_, quiet.frames⟩
    rintro _ ⟨⟩
    exact plain
  | setting here set =>
    obtain ⟨b, -, rfl⟩ := build_eq_ok.mp set
    exact ⟨.nothing (fun _ opened => nomatch opened), rfl⟩
  | environment named =>
    rw [same_nameEnvironment _ _ _ named]
    refine ⟨.nothing ?_, rfl⟩
    rintro _ ⟨⟩
    rfl
  | @relationship _ _ _ _ _ id s₁ s₂ _ added tagged bound =>
    obtain ⟨b, -, rfl⟩ := buildWith_eq_ok.mp added
    have registry : s₂.registry = s.registry := tagged.registry
    have frames : s₂.frames = s.frames := tagged.frames
    constructor
    · cases identifier with
      | none =>
        obtain rfl := Except.ok.inj bound
        rw [registry]
        apply Binds.nothing
        rintro _ ⟨⟩
        rfl
      | some token =>
        have registered := registry_register s' bound
        rw [registry] at registered
        exact .relationship registered
    · rw [same_bindRelationship _ _ _ bound]
      exact frames
  | @element kind block id s₁ s₂ _ here entered described bound =>
    have registry : s₂.registry = s.registry := by
      rw [described.registry, entered.same]
      rfl
    have frames : s₂.frames = s.frames := by
      rw [described.frames, entered.same]
      rfl
    have body := element?_bodyOf kind block id
    constructor
    · cases identifier with
      | none =>
        obtain rfl := Except.ok.inj bound
        dsimp only
        rw [registry, frames]
        exact .unnamed body
      | some token =>
        have registered := registry_register s' bound
        rw [registry, frames] at registered
        exact .named body registered
    · rw [same_bindElement _ _ _ bound]
      exact frames

theorem Binds.grows (binds : s.Binds identifier block r) : s.registry.Grows r := by
  cases binds with
  | nothing => exact .same
  | relationship registered => exact .named registered
  | named _ registered => exact .named registered
  | @unnamed _ id => exact .unnamed id s.frames.scope

/-- A line does with the names what a registry permits. -/
theorem Acts.grows (acts : s.Acts identifier s') : s.registry.Grows s'.registry := by
  cases acts with
  | closes _ _ _ registry =>
    rw [registry]
    exact .same
  | quiet quiet =>
    rw [quiet.registry]
    exact .same
  | chooses chosen => exact Registry.grows_setMode? chosen
  | stays enacts => exact enacts.binds.1.grows
  | opens _ _ enacts => exact enacts.binds.1.grows

/-! ### Runs -/

/-- Binding names to elements that were there before leads from `s` to `s'`. -/
abbrev Introduces : Session → Session → Prop :=
  Relation.ReflTransGen fun s s' => ∃ name id, s.bindExternal name id = .ok s'

/-- A run of the interpreter from `s₀` on passes `s` and, then or later, `t`: names are bound
to elements that were there before, and then lines are read. -/
inductive Visits (setting : Setting) (s₀ s t : Session) : Prop where
  | introducing {u : Session} (before : Introduces s₀ s) (further : Introduces s u)
      (course : u.Course setting t)
  | reading {u : Session} (introduced : Introduces s₀ u) (before : u.Course setting s)
      (further : s.Course setting t)

/-- Everything is bound in the scope of the workspace, and no block is open. -/
structure Bare (s : Session) : Prop where
  root : ∀ e ∈ s.registry.entries, e.scope = []
  frames : s.frames = []

theorem bare_ofBuilder (b : Builder) (options : Options) : (Session.ofBuilder b options).Bare :=
  ⟨List.forall_mem_nil _, rfl⟩

theorem bindExternal_eq_ok {name : String} {id : ElementId}
    (bound : s.bindExternal name id = .ok s') :
    s.registry.registerExternal name (.element id) = .ok s'.registry ∧
      s' = { s with registry := s'.registry } := by
  obtain ⟨e, found, bound⟩ := bind_eq_ok.mp bound
  split at bound
  case h_1 registry registered =>
    obtain rfl := Except.ok.inj bound
    exact ⟨registered, rfl⟩
  case h_2 => cases bound

/-- Binding a name to an element that was there before is a step of the registry. -/
theorem Bare.bindExternal (bare : s.Bare) {name : String} {id : ElementId}
    (bound : s.bindExternal name id = .ok s') : s'.Bare ∧ s.registry.Grows s'.registry := by
  obtain ⟨registered, same⟩ := bindExternal_eq_ok bound
  refine ⟨⟨?_, ?_⟩, .external bare.root registered⟩
  · obtain ⟨-, -, grown⟩ := Registry.registerExternal_eq_ok.mp registered
    rw [grown]
    exact List.forall_mem_cons.mpr ⟨rfl, bare.root⟩
  · rw [same]
    exact bare.frames

/-- A name that is bound from outside makes the registry evolve, and leaves the session bare.
-/
theorem Introduces.evolves (introduced : Introduces s s') (bare : s.Bare) :
    s'.Bare ∧ s.registry.Evolves s'.registry := by
  induction introduced with
  | refl => exact ⟨bare, .refl⟩
  | tail _ step ih =>
    obtain ⟨name, id, bound⟩ := step
    obtain ⟨bare', grows⟩ := ih.1.bindExternal bound
    exact ⟨bare', ih.2.tail grows⟩

theorem Course.evolves (course : s.Course setting s') : s.registry.Evolves s'.registry := by
  induction course with
  | refl => exact .refl
  | tail _ step ih =>
    obtain ⟨ts, advances⟩ := step
    exact ih.tail advances.acts.grows

/-- In a run, the names evolve from one state to every later one. -/
theorem Visits.evolves {b : Builder} {options : Options}
    (visits : Visits setting (.ofBuilder b options) s t) :
    (Session.ofBuilder b options).registry.Evolves s.registry ∧
      s.registry.Evolves t.registry := by
  have bare := bare_ofBuilder b options
  cases visits with
  | introducing before further course =>
    obtain ⟨bare', run⟩ := before.evolves bare
    exact ⟨run, (further.evolves bare').2.trans course.evolves⟩
  | reading introduced before further =>
    exact ⟨(introduced.evolves bare).2.trans before.evolves, further.evolves⟩

/-- **What a chosen name or path stands for, it stands for ever after.**  Every reading of
lines, of a source or of what it includes is a course; in a run of the interpreter a name
or path that does not start with two underscores resolves from a scope, once it does, to
the same in every later state; and registering a name changes the resolution of no other
name that is no path, and that of the name itself only from the scope and those below it,
from where it did not resolve and now resolves to what is registered. -/
theorem resolution_is_stable (setting : Setting) (b : Builder) (options : Options) :
    (∀ depth opened file content p p', readSource setting depth opened file content p = .ok p' →
      p.session.Course setting p'.session) ∧
    (∀ s t, Visits setting (.ofBuilder b options) s t → ∀ name scope binding,
      isAnonymous name = false → s.registry.resolve name scope = some binding →
        t.registry.resolve name scope = some binding) ∧
    ∀ (r r' : Registry) name binding scope, r.register name binding scope = .ok r' →
      r.resolve name scope = none ∧ r'.resolve name scope = some binding ∧
        ∀ other place, isPath other = false → r'.resolve other place ≠ r.resolve other place →
          other = name ∧ scope <:+ place ∧ r.resolve other place = none ∧
            r'.resolve other place = some binding := by
  refine ⟨?_, ?_, ?_⟩
  · intro depth opened file content p p' read
    exact course_readSource depth opened file content p' read
  · intro s t visits name scope binding chosen found
    obtain ⟨before, further⟩ := visits.evolves
    exact further.resolve_eq (before.faithful (List.forall_mem_nil _)) chosen found
  · intro r r' name binding scope registered
    obtain ⟨valid, free, -⟩ := Registry.register_eq_ok.mp registered
    have plain := isPath_of_isValid valid
    have unresolved : r.resolve name scope = none := by
      rw [Registry.resolve_of_plain plain, free]
    refine ⟨unresolved, ?_, ?_⟩
    · rw [Registry.resolve_register registered plain, if_pos ⟨rfl, List.suffix_refl _⟩, unresolved]
      rfl
    · intro other place plain changed
      rw [Registry.resolve_register registered plain] at changed ⊢
      split at changed
      case isTrue own =>
        obtain ⟨rfl, below⟩ := own
        cases resolved : r.resolve other place with
        | none => exact ⟨rfl, below, rfl, by rw [if_pos ⟨rfl, below⟩]; rfl⟩
        | some b =>
          rw [resolved] at changed
          exact absurd rfl changed
      case isFalse => exact absurd rfl changed

def hierarchicalOptions : Options :=
  { identifiers := .hierarchical }

def introducedShop : Except Diagnostic Session :=
  (Session.ofBuilder Builder.shop hierarchicalOptions).bindExternal "customer" ⟨3⟩

/-- A system with a container `x` inside of it, and after it a system `x`, as a source. -/
def reusedSource : String :=
  "workspace \x7b\n model \x7b\n  a = softwareSystem A \x7b\n   x = container X\n  \x7d\n" ++
    "  x = softwareSystem X\n \x7d\n\x7d\n"

/-- The name of the customer stands for the customer after the source has been read. -/
theorem resolution_of_customer :
    ∃ s p, introducedShop = .ok s ∧
      readSource {} 0 [none] none reusedSource { session := s } = .ok p ∧
      s.registry.resolve "customer" [] = some (.element ⟨3⟩) ∧
      p.session.registry.resolve "customer" [] = some (.element ⟨3⟩) ∧
      ({} : Registry).register "x" (.element ⟨1⟩) [] =
        .ok (({} : Registry).bind "x" (.element ⟨1⟩) []) ∧
      (({} : Registry).bind "x" (.element ⟨1⟩) []).resolve "x" [] = some (.element ⟨1⟩) := by
  obtain ⟨courses, stable, local_⟩ := resolution_is_stable {} Builder.shop hierarchicalOptions
  have read : (do
      let s ← introducedShop.toOption
      let p ← (readSource {} 0 [none] none reusedSource { session := s }).toOption
      return (s.registry.resolve "customer" [], p.session.registry.entries.length)) =
        some (some (.element ⟨3⟩), 4) := by decide +kernel
  have registered : ({} : Registry).register "x" (.element ⟨1⟩) [] =
      .ok (({} : Registry).bind "x" (.element ⟨1⟩) []) := by decide +kernel
  obtain ⟨s, introduced, reading⟩ := Option.bind_eq_some_iff.mp read
  obtain ⟨p, answer, answered⟩ := Option.bind_eq_some_iff.mp reading
  rw [toOption_eq_some] at introduced answer
  have resolved : s.registry.resolve "customer" [] = some (.element ⟨3⟩) :=
    congrArg Prod.fst (Option.some.inj answered)
  have visits : Visits {} (.ofBuilder Builder.shop hierarchicalOptions) s p.session :=
    .introducing (.single ⟨"customer", ⟨3⟩, introduced⟩) .refl (courses _ _ _ _ _ p answer)
  have chosen : isAnonymous "customer" = false := by decide +kernel
  exact ⟨s, p, introduced, answer, resolved, stable s p.session visits _ _ _ chosen resolved,
    registered, (local_ _ _ _ _ _ registered).2.1⟩

end Session

/-! ### Open blocks and scopes -/

def Frames.around (frames : Frames) : Scope :=
  frames.filterMap (·.block.element?)

theorem Frames.around_cons (f : Frame) (frames : Frames) :
    Frames.around (f :: frames) = f.block.element?.toList ++ frames.around := by
  unfold Frames.around
  rw [List.filterMap_cons]
  cases f.block.element? <;> rfl

/-- Of fewer blocks, no element is the body. -/
theorem Frames.around_eq_nil {frames frames' : Frames} (inside : frames <:+ frames')
    (unopened : frames'.around = []) : frames.around = [] := by
  have fewer := inside.sublist.filterMap (·.block.element?)
  rw [show frames'.filterMap _ = [] from unopened] at fewer
  exact List.sublist_nil.mp fewer

/-- The scope of what is declared inside of `elements`, innermost first. -/
def scopeWithin : IdentifierMode → Scope → Scope
  | .flat, _ => []
  | .hierarchical, elements => elements

theorem scopeWithin_nil (mode : IdentifierMode) : scopeWithin mode [] = [] := by
  cases mode <;> rfl

/-- The scope inside of an element is that inside of the elements around it and itself. -/
theorem scopeOf_scopeWithin (r : Registry) (id : ElementId) (elements : Scope) :
    r.scopeOf id (scopeWithin r.mode elements) = scopeWithin r.mode (id :: elements) := by
  unfold Registry.scopeOf
  cases r.mode <;> rfl

namespace Session

variable {s s' : Session} {identifier : Option Token} {setting : Setting}

/-- Blocks have the scopes of the elements around them, and so have names. -/
structure Framed (s : Session) : Prop where
  scopes : ∀ frames : Frames, frames <:+ s.frames →
    frames.scope = scopeWithin s.registry.mode frames.around
  /-- Before any name is bound, the body of no element is open. -/
  unopened : s.registry.entries = [] → s.frames.around = []
  flat : s.registry.mode = .flat → ∀ e ∈ s.registry.entries, e.scope = []

theorem Bare.framed (bare : s.Bare) : s.Framed where
  scopes := by
    intro frames inside
    rw [bare.frames, List.suffix_nil] at inside
    subst inside
    exact (scopeWithin_nil _).symm
  unopened := by
    intro _
    rw [bare.frames]
    rfl
  flat := fun _ => bare.root

/-- The innermost block has the scope of the elements around it. -/
theorem Framed.scope_eq (framed : s.Framed) :
    s.frames.scope = scopeWithin s.registry.mode s.frames.around :=
  framed.scopes s.frames (List.suffix_refl _)

/-- Names are bound in the scope of the workspace or in that of the innermost block, and the
body of an element only opens once the element is bound. -/
structure Rebinds (s : Session) (block : Option Block) (r : Registry) : Prop where
  mode : r.mode = s.registry.mode
  entries : r.entries = s.registry.entries ∨
    ∃ e, r.entries = e :: s.registry.entries ∧ (e.scope = [] ∨ e.scope = s.frames.scope)
  plain : r.entries = [] → ∀ b, block = some b → b.element? = none

/-- What a statement binds is bound anew, in the scope of the blocks around it. -/
theorem Binds.rebinds {block : Option Block} {r : Registry} (binds : s.Binds identifier block r) :
    s.Rebinds block r := by
  cases binds with
  | nothing plain => exact ⟨rfl, .inl rfl, fun _ => plain⟩
  | relationship registered =>
    obtain ⟨-, -, rfl⟩ := Registry.register_eq_ok.mp registered
    exact ⟨rfl, .inr ⟨_, rfl, .inl rfl⟩, fun unused => nomatch unused⟩
  | named _ registered =>
    obtain ⟨-, -, rfl⟩ := Registry.register_eq_ok.mp registered
    exact ⟨rfl, .inr ⟨_, rfl, .inr rfl⟩, fun unused => nomatch unused⟩
  | unnamed => exact ⟨rfl, .inr ⟨_, rfl, .inr rfl⟩, fun unused => nomatch unused⟩

/-- A session that differs in nothing but the names of a statement is framed like the one
before it. -/
theorem Framed.rebinds (framed : s.Framed) {block : Option Block}
    (rebinds : s.Rebinds block s'.registry) (frames : s'.frames = s.frames) : s'.Framed where
  scopes := by
    rw [frames, rebinds.mode]
    exact framed.scopes
  unopened := by
    intro unused
    rw [frames]
    apply framed.unopened
    rcases rebinds.entries with same | ⟨e, more, -⟩
    · rw [← same, unused]
    · rw [more] at unused
      cases unused
  flat := by
    intro flat
    rw [rebinds.mode] at flat
    rcases rebinds.entries with same | ⟨e, more, scope⟩
    · rw [same]
      exact framed.flat flat
    · rw [more]
      apply List.forall_mem_cons.mpr ⟨_, framed.flat flat⟩
      rcases scope with root | inner
      · exact root
      · rw [inner, framed.scope_eq, flat]
        rfl

/-- A block that opens has the scope of the elements around it. -/
theorem Framed.openBlock (framed : s.Framed) {block : Block}
    (bound : s.registry.entries = [] → block.element? = none) (line : Nat) (span : Span) :
    (s.openBlock block line span).Framed where
  scopes := by
    intro frames inside
    rcases List.suffix_cons_iff.mp inside with rfl | inside
    · rw [Frames.around_cons]
      show s.scopeOf block = scopeWithin s.registry.mode (block.element?.toList ++ s.frames.around)
      unfold scopeOf
      cases block.element? with
      | none => exact framed.scope_eq
      | some id =>
        dsimp only
        rw [framed.scope_eq, scopeOf_scopeWithin]
        rfl
    · exact framed.scopes frames inside
  unopened := by
    intro unused
    have opened : (s.openBlock block line span).frames.around =
        block.element?.toList ++ s.frames.around := Frames.around_cons _ _
    rw [opened, bound unused, framed.unopened unused]
    rfl
  flat := framed.flat

/-- A line keeps the blocks framed. -/
theorem Acts.framed (acts : s.Acts identifier s') (framed : s.Framed) : s'.Framed := by
  cases acts with
  | closes frame frames run registry =>
    have fewer : s'.frames <:+ s.frames := by
      rw [frames]
      exact List.suffix_cons _ _
    constructor
    · rw [registry]
      exact fun inner inside => framed.scopes inner (inside.trans fewer)
    · rw [registry]
      exact fun unused => Frames.around_eq_nil fewer (framed.unopened unused)
    · rw [registry]
      exact framed.flat
  | quiet quiet =>
    constructor
    · rw [quiet.registry, quiet.frames]
      exact framed.scopes
    · rw [quiet.registry, quiet.frames]
      exact framed.unopened
    · rw [quiet.registry]
      exact framed.flat
  | @chooses mode r chosen =>
    have grows := Registry.grows_setMode? chosen
    unfold Registry.setMode? at chosen
    split at chosen
    case isTrue unused =>
      obtain rfl := Option.some.inj chosen
      have unopened := framed.unopened (List.isEmpty_iff.mp unused)
      constructor
      · intro frames inside
        have none_inside := Frames.around_eq_nil inside unopened
        rw [framed.scopes frames inside, none_inside, scopeWithin_nil, scopeWithin_nil]
      · exact fun _ => unopened
      · intro _ e member
        rw [List.isEmpty_iff.mp unused] at member
        cases member
    case isFalse =>
      split at chosen
      · obtain rfl := Option.some.inj chosen
        exact framed
      · cases chosen
  | stays enacts =>
    obtain ⟨binds, frames⟩ := enacts.binds
    exact framed.rebinds binds.rebinds frames
  | @opens block s₁ line span enacts =>
    obtain ⟨binds, frames⟩ := enacts.binds
    have framed₁ := framed.rebinds binds.rebinds frames
    exact framed₁.openBlock (fun unused => binds.rebinds.plain unused block rfl) line span

theorem Course.framed (course : s.Course setting s') (framed : s.Framed) : s'.Framed := by
  induction course with
  | refl => exact framed
  | tail _ step ih =>
    obtain ⟨ts, advances⟩ := step
    exact advances.acts.framed ih

/-! ### Names further inside and further outside -/

/-- **What an identifier names inside of an element was bound before what it names further
outside.**  In every state of a run, a chosen name that is bound twice is bound in two
different scopes, and where one of them lies inside of the other, the name was bound there
first.  With flat identifiers there is but one scope, so no chosen name is bound twice. -/
theorem inner_names_come_first (setting : Setting) (b : Builder) (options : Options)
    (u s : Session) (introduced : Introduces (.ofBuilder b options) u)
    (course : u.Course setting s) :
    (s.registry.entries.Pairwise fun later earlier =>
      later.name = earlier.name → isAnonymous later.name = false →
        ¬ earlier.scope <:+ later.scope) ∧
      (s.registry.mode = .flat → ∀ e ∈ s.registry.entries, e.scope = []) := by
  obtain ⟨bare, run⟩ := introduced.evolves (bare_ofBuilder b options)
  have whole := run.trans course.evolves
  have ordered := Registry.Evolves.ordered whole List.Pairwise.nil
  exact ⟨ordered, (course.framed bare.framed).flat⟩

def reusedReading : Except Failure Progress :=
  readSource {} 0 [none] none reusedSource { session := .start hierarchicalOptions }

/-- The container was bound to its name before the system outside was. -/
theorem names_of_reused :
    ∃ p, reusedReading = .ok p ∧
      p.session.registry.entries.map (fun e => (e.scope, e.name)) =
        [([], "x"), ([⟨1⟩], "x"), ([], "a")] ∧
      p.session.registry.entries.Pairwise fun later earlier =>
        later.name = earlier.name → isAnonymous later.name = false →
          ¬ earlier.scope <:+ later.scope := by
  have read : reusedReading.toOption.map
      (·.session.registry.entries.map fun e => (e.scope, e.name)) =
        some [([], "x"), ([⟨1⟩], "x"), ([], "a")] := by decide +kernel
  obtain ⟨p, answer, names⟩ := toOption_map_eq_some.mp read
  have course := course_readSource _ _ _ _ p answer
  obtain ⟨ordered, -⟩ := inner_names_come_first {} _ hierarchicalOptions _ p.session .refl course
  exact ⟨p, answer, names, ordered⟩

/-- **A name inside of an element can be bound once more outside**, so in some states a name
inside shadows one outside. -/
theorem names_are_shadowed :
    ¬ ∀ s, (Session.start hierarchicalOptions).Course {} s → ∀ name outer inner,
      isAnonymous name = false → outer <:+ inner → outer ≠ inner →
        (s.registry.bound? outer name).isSome → s.registry.bound? inner name = none := by
  intro unshadowed
  have read : reusedReading.toOption.map
      (fun p => (p.session.registry.bound? [] "x", p.session.registry.bound? [⟨1⟩] "x")) =
        some (some (.element ⟨3⟩), some (.element ⟨2⟩)) := by decide +kernel
  obtain ⟨p, answer, names⟩ := toOption_map_eq_some.mp read
  obtain ⟨outside, inside⟩ := Prod.mk.inj names
  have course := course_readSource _ _ _ _ p answer
  have free := unshadowed p.session course "x" [] [⟨1⟩] (by decide +kernel) List.nil_suffix
    (List.cons_ne_nil _ _).symm (by rw [outside]; rfl)
  rw [inside] at free
  cases free

end Session

end Edifice.Language
