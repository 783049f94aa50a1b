import Edifice.Proofs.Builder.Selections
import Edifice.Proofs.Language.Faults

/-!
Coherent sessions.

A session is coherent when what its identifiers stand for and what its open blocks are
about is there, and no view has more of its parallel blocks open than it counts
(`Session.Coherent`).  Then whatever a statement resolves can be referred to, and every
block that is opened can be closed again.  A statement takes a coherent session to a
coherent one (`Session.Follows`) in which the block that it may open can be opened
(`Session.CanOpen`), and is refused only for a fault of the source (`Session.Behaves`).
-/

namespace Edifice

open Check

/-! ### Referents -/

def Binding.referent : Binding → Referent
  | .element id => .element id
  | .relationship id => .relationship id

namespace Registry

variable {r : Registry} {name : String} {scope : Scope} {binding binding' : Binding}

/-- Some name stands for `binding`. -/
def Binds (r : Registry) (binding : Binding) : Prop :=
  ∃ e ∈ r.entries, e.binding = binding

theorem binds_of_bound? (found : r.bound? scope name = some binding) : r.Binds binding := by
  obtain ⟨e, first, own⟩ := Option.map_eq_some_iff.mp found
  exact ⟨e, List.mem_of_find?_eq_some first, own⟩

/-- A name that is found further out is bound in one of the scopes around. -/
theorem binds_of_resolveOutward (found : r.resolveOutward name scope = some binding) :
    r.Binds binding := by
  induction scope with
  | nil => exact binds_of_bound? found
  | cons e outer ih =>
    rcases Option.or_eq_some_iff.mp found with here | ⟨-, outward⟩
    · exact binds_of_bound? here
    · exact ih outward

/-- What the last name of a path leads to is bound, by induction on the path. -/
theorem binds_of_follow {segments : List String}
    (found : r.follow scope segments = some binding) : r.Binds binding := by
  induction segments generalizing scope with
  | nil => cases found
  | cons segment rest ih =>
    cases rest with
    | nil => exact binds_of_bound? found
    | cons next rest =>
      simp only [follow] at found
      split at found
      · exact ih found
      · cases found

/-- What a name resolves to is bound. -/
theorem binds_of_resolve (found : r.resolve name scope = some binding) : r.Binds binding := by
  unfold resolve at found
  split at found
  case h_1 outward =>
    obtain rfl := Option.some.inj found
    exact binds_of_resolveOutward outward
  case h_2 =>
    split at found
    · exact binds_of_follow found
    · cases found

/-- A binding adds what it binds and nothing else. -/
theorem binds_bind (binds : (r.bind name binding scope).Binds binding') :
    binding' = binding ∨ r.Binds binding' := by
  obtain ⟨e, member, rfl⟩ := binds
  rcases List.mem_cons.mp member with rfl | member
  · exact .inl rfl
  · exact .inr ⟨e, member, rfl⟩

end Registry

namespace Language

open Builder (Call Leads LeadsKnown Proceeds Safe)
open Diagnostic.Ordinary (of_code)

/-- What the lines of a `properties` block refer to. -/
def PropertyTarget.referents : PropertyTarget → List Referent
  | .item ref => [ref.referent]
  | .view key => [.view key]
  | _ => []

/-- What the statements of a block refer to by being in it. -/
def Block.referents : Block → List Referent
  | .group _ parent => parent.toList.map .element
  | .element id => [.element id]
  | .deploymentNode id environment => [.element id, .node id environment]
  | .relationship id => [.relationship id]
  | .properties target => target.referents
  | .perspectives ref => [ref.referent]
  | .staticView key | .dynamicView key | .parallel key => [.view key]
  | _ => []

theorem Block.element_mem_referents {block : Block} {id : ElementId}
    (own : block.element? = some id) : .element id ∈ block.referents := by
  cases block with
  | element | deploymentNode =>
    obtain rfl := Option.some.inj own
    exact List.mem_cons_self ..
  | _ => cases own

def Frames.parallels (frames : Frames) (key : String) : Nat :=
  frames.countP fun f => f.block = .parallel key

theorem Frames.parallels_cons (f : Frame) (frames : Frames) (key : String) :
    Frames.parallels (f :: frames) key =
      frames.parallels key + if f.block = .parallel key then 1 else 0 := by
  simp [Frames.parallels, List.countP_cons]

/-! ### Coherence -/

namespace Session

variable {s s' s'' : Session} {x : Referent} {key : String} {block : Block}

/-- What names and open blocks refer to is there, and every open parallel block is counted
by its view. -/
structure Coherent (s : Session) : Prop where
  reachable : s.builder.Reachable
  bound : ∀ binding, s.registry.Binds binding → s.builder.Has binding.referent
  blocks : ∀ f ∈ s.frames, ∀ x ∈ f.block.referents, s.builder.Has x
  counted : ∀ key v, s.builder.view key = .ok v → s.frames.parallels key ≤ v.depth

theorem Coherent.grown (coherent : s.Coherent) : s.builder.Grown :=
  coherent.reachable.grown

/-- What the innermost block is about is there. -/
theorem Coherent.here (coherent : s.Coherent) (here : s.frames.block? = some block) :
    ∀ x ∈ block.referents, s.builder.Has x := by
  obtain ⟨f, first, rfl⟩ := Option.map_eq_some_iff.mp here
  exact coherent.blocks f (List.mem_of_mem_head? first)

/-- A view that is not there has no open blocks. -/
theorem Coherent.parallels_eq_zero (coherent : s.Coherent)
    (absent : ¬ s.builder.Has (.view key)) : s.frames.parallels key = 0 := by
  refine List.countP_eq_zero.mpr fun f member parallel => absent ?_
  have own : f.block = .parallel key := of_decide_eq_true parallel
  refine coherent.blocks f member _ ?_
  rw [own]
  exact List.mem_singleton_self _

/-- An orderly run has led from `s` to `s'`, which is coherent and has the same blocks
open. -/
structure Follows (s s' : Session) : Prop where
  coherent : s'.Coherent
  run : Proceeds s.builder s'.builder
  frames : s'.frames = s.frames

theorem Follows.trans (first : s.Follows s') (second : s'.Follows s'') : s.Follows s'' where
  coherent := second.coherent
  run := first.run.trans second.run
  frames := second.frames.trans first.frames

/-- What is there is there after a statement. -/
theorem Follows.has (follows : s.Follows s') (coherent : s.Coherent) (has : s.builder.Has x) :
    s'.builder.Has x :=
  follows.run.has coherent.grown has

/-- A session in which no more than constants, environments and marks have changed. -/
theorem Coherent.follows_of_same (coherent : s.Coherent) (builder : s'.builder = s.builder)
    (registry : s'.registry = s.registry) (frames : s'.frames = s.frames) : s.Follows s' := by
  refine ⟨⟨?_, ?_, ?_, ?_⟩, ?_, frames⟩
  · exact builder ▸ coherent.reachable
  · exact builder ▸ registry ▸ coherent.bound
  · exact builder ▸ frames ▸ coherent.blocks
  · exact builder ▸ frames ▸ coherent.counted
  · exact builder ▸ .refl

theorem Coherent.follows (coherent : s.Coherent) : s.Follows s :=
  coherent.follows_of_same rfl rfl rfl

/-- A run keeps what names and blocks refer to, so it is left to count the blocks. -/
theorem Coherent.withBuilder (coherent : s.Coherent) {b : Builder} (run : Leads s.builder b)
    (counted : ∀ key v, b.view key = .ok v → s.frames.parallels key ≤ v.depth) :
    (s.withBuilder b).Coherent where
  reachable := coherent.reachable.leads run
  bound := fun binding binds => run.has coherent.grown (coherent.bound binding binds)
  blocks := fun f member x referent => run.has coherent.grown (coherent.blocks f member x referent)
  counted := counted

/-- An orderly run keeps a session coherent: a view that is new has no open blocks, and one
that is not has lost none. -/
theorem Coherent.follows_run (coherent : s.Coherent) {b : Builder}
    (run : Proceeds s.builder b) : s.Follows (s.withBuilder b) := by
  refine ⟨coherent.withBuilder run.leads fun key v found => ?_, run, rfl⟩
  by_cases present : s.builder.Has (.view key)
  · obtain ⟨v₀, found₀⟩ := present
    obtain ⟨v₁, found₁, -, deeper⟩ := run.stays coherent.grown found₀
    obtain rfl := Except.ok.inj (found.symm.trans found₁)
    exact Nat.le_trans (coherent.counted key v₀ found₀) deeper
  · rw [coherent.parallels_eq_zero present]
    exact Nat.zero_le _

/-! ### Changes -/

/-- A call whose referents are there and that closes no block. -/
theorem Coherent.safe (coherent : s.Coherent) (c : Call) (known : c.Known s.builder)
    (closes_none : c.closes = false) : Safe c.perform s.builder :=
  .call c coherent.grown ⟨known, closes_none⟩

/-- A safe change keeps the session coherent. -/
theorem Coherent.buildWith (coherent : s.Coherent) {α : Type} {c : Change Builder α}
    (safe : Safe c s.builder) (span : Span) :
    Yields (s.buildWith span c)
      (fun answer => s.Follows answer.2 ∧ c s.builder = .ok answer.1 answer.2.builder)
      Diagnostic.Ordinary := by
  unfold Session.buildWith
  split
  case h_1 a b ran => exact .ok ⟨coherent.follows_run (safe.proceeds a b ran), ran⟩
  case h_2 e b refused => exact .error (ModelError.ordinary (safe.grounded e b refused) span)

theorem Coherent.build (coherent : s.Coherent) {c : Change Builder Unit}
    (safe : Safe c s.builder) (span : Span) :
    Yields (s.build span c) s.Follows Diagnostic.Ordinary :=
  .map ((coherent.buildWith safe span).mono fun _ built => built.1)

/-- A safe change after others. -/
theorem Follows.build (follows : s.Follows s') {c : Change Builder Unit}
    (safe : Safe c s'.builder) (span : Span) :
    Yields (s'.build span c) s.Follows Diagnostic.Ordinary :=
  (follows.coherent.build safe span).mono fun _ further => follows.trans further

/-- What a call answers with is there in the session after it. -/
theorem Coherent.call (coherent : s.Coherent) (c : Call) (known : c.Known s.builder)
    (closes_none : c.closes = false) (span : Span) :
    Yields (s.buildWith span c.perform)
      (fun answer => s.Follows answer.2 ∧ ∀ x ∈ c.answered answer.1, answer.2.builder.Has x)
      Diagnostic.Ordinary := by
  refine (coherent.buildWith (coherent.safe c known closes_none) span).mono fun answer built => ?_
  obtain ⟨follows, done⟩ := built
  exact ⟨follows, c.has_answered coherent.grown done⟩

/-- The element that something refers to is found. -/
theorem yields_element {id : ElementId} (has : s.builder.Has (.element id)) (span : Span) :
    Fair (s.element id span) := by
  unfold Session.element
  split
  · exact .ok trivial
  case h_2 e refused =>
    exact .error (ModelError.ordinary (Builder.grounded_element has e refused) span)

/-! ### Identifiers -/

variable {t : Token} {binding : Binding}

/-- The element around a statement is there. -/
theorem Coherent.has_around (coherent : s.Coherent) {id : ElementId}
    (around : s.frames.element? = some id) : s.builder.Has (.element id) := by
  obtain ⟨f, member, own⟩ := List.exists_of_findSome?_eq_some around
  exact coherent.blocks f member _ (Block.element_mem_referents own)

/-- What a token stands for is there. -/
theorem Coherent.has_resolve (coherent : s.Coherent) (found : s.resolve t = some binding) :
    s.builder.Has binding.referent := by
  unfold Session.resolve at found
  split at found
  · obtain ⟨id, around, rfl⟩ := Option.map_eq_some_iff.mp found
    exact coherent.has_around around
  · exact coherent.bound binding (Registry.binds_of_resolve found)

/-- A token that resolves names an element that is there; one that does not is a fault of the
source. -/
theorem Coherent.resolveElement (coherent : s.Coherent) (t : Token) (role : String) :
    Yields (s.resolveElement t role) (fun id => s.builder.Has (.element id))
      Diagnostic.Ordinary := by
  unfold Session.resolveElement
  split
  case h_1 id found => exact .ok (coherent.has_resolve found)
  · exact .error (of_code rfl)
  · exact .error (of_code rfl)

/-- A token that resolves names a relationship that is there; one that does not is a fault of
the source. -/
theorem Coherent.resolveRelationship (coherent : s.Coherent) (t : Token) :
    Yields (s.resolveRelationship t) (fun id => s.builder.Has (.relationship id))
      Diagnostic.Ordinary := by
  unfold Session.resolveRelationship
  split
  case h_1 id found => exact .ok (coherent.has_resolve found)
  · exact .error (of_code rfl)
  · exact .error (of_code rfl)

/-- The names may change as long as they stand for what is there. -/
theorem Coherent.follows_registry (coherent : s.Coherent) {r : Registry}
    (bound : ∀ binding, r.Binds binding → s.builder.Has binding.referent) :
    s.Follows { s with registry := r } :=
  ⟨⟨coherent.reachable, bound, coherent.blocks, coherent.counted⟩, .refl, rfl⟩

/-- Binding a name to what is there keeps a session coherent. -/
theorem Coherent.follows_bind (coherent : s.Coherent) (name : String) (scope : Scope)
    (has : s.builder.Has binding.referent) :
    s.Follows { s with registry := s.registry.bind name binding scope } := by
  refine coherent.follows_registry fun binding' binds => ?_
  rcases Registry.binds_bind binds with rfl | earlier
  · exact has
  · exact coherent.bound binding' earlier

/-- A name may be bound to what is there: the only refusals are faults of the source. -/
theorem Coherent.register (coherent : s.Coherent) (t : Token) (scope : Scope)
    (has : s.builder.Has binding.referent) :
    Yields (s.register t binding scope) s.Follows Diagnostic.Ordinary := by
  unfold Session.register
  refine .ite (fun _ => .error (of_code rfl)) fun _ => ?_
  unfold Registry.register
  split
  case h_1 r bound =>
    split at bound
    · cases bound
    · split at bound
      · cases bound
      · obtain rfl := Except.ok.inj bound
        exact .ok (coherent.follows_bind _ scope has)
  case h_2 e refused => exact .error (e.ordinary t.span)

/-- An element may be given the name it is assigned to, if any. -/
theorem Coherent.bindElement (coherent : s.Coherent) (identifier : Option Token)
    {id : ElementId} (has : s.builder.Has (.element id)) :
    Yields (s.bindElement identifier id) s.Follows Diagnostic.Ordinary := by
  cases identifier with
  | none =>
    have has' : s.builder.Has (Binding.element id).referent := has
    exact .ok (coherent.follows_bind _ _ has')
  | some t => exact coherent.register t _ has

theorem Coherent.bindRelationship (coherent : s.Coherent) (identifier : Option Token)
    {id : RelationshipId} (has : s.builder.Has (.relationship id)) :
    Yields (s.bindRelationship identifier id) s.Follows Diagnostic.Ordinary := by
  cases identifier with
  | none => exact .ok coherent.follows
  | some t => exact coherent.register t _ has

/-! ### Blocks -/

/-- The view of a parallel block counts one that is not open yet. -/
def Counts (s : Session) : Block → Prop
  | .parallel key => ∀ v, s.builder.view key = .ok v → s.frames.parallels key < v.depth
  | _ => True

/-- The block can be opened: what it is about is there, and its view counts it. -/
structure CanOpen (s : Session) (block : Block) : Prop where
  has : ∀ x ∈ block.referents, s.builder.Has x
  counts : s.Counts block

/-- Calls that refer to what is there have led from `s` to `s'`, which is coherent. -/
structure Reads (s s' : Session) : Prop where
  coherent : s'.Coherent
  run : LeadsKnown s.builder s'.builder

theorem Follows.reads (follows : s.Follows s') (coherent : s.Coherent) : s.Reads s' :=
  ⟨follows.coherent, follows.run.mono coherent.grown fun _ _ _ orderly => orderly.known⟩

/-- A block that can be opened leaves the session coherent. -/
theorem Coherent.openBlock (coherent : s.Coherent) (can : s.CanOpen block) (line : Nat)
    (span : Span) : (s.openBlock block line span).Coherent := by
  refine ⟨coherent.reachable, coherent.bound, ?_, ?_⟩
  · exact List.forall_mem_cons.mpr ⟨can.has, coherent.blocks⟩
  · intro key v found
    have earlier := coherent.counted key v found
    show Frames.parallels (_ :: s.frames) key ≤ v.depth
    rw [Frames.parallels_cons]
    by_cases own : block = .parallel key
    · subst own
      rw [if_pos rfl]
      exact can.counts v found
    · rw [if_neg own]
      exact earlier

/-- Without its innermost block a session is still coherent. -/
theorem Coherent.tail (coherent : s.Coherent) {f : Frame} {frames : Frames}
    (opened : s.frames = f :: frames) : ({ s with frames } : Session).Coherent := by
  refine ⟨coherent.reachable, coherent.bound, ?_, ?_⟩
  · intro f' member
    exact coherent.blocks f' (opened ▸ List.mem_cons_of_mem f member)
  · intro key v found
    have counted := coherent.counted key v found
    rw [opened, Frames.parallels_cons] at counted
    exact Nat.le_trans (Nat.le_add_right _ _) counted

/-- Where a view counts a block that is not open, closing it succeeds. -/
theorem Coherent.endParallel (coherent : s.Coherent) (has : s.builder.Has (.view key))
    (counts : s.Counts (.parallel key)) (span : Span) :
    Yields (s.buildWith span (Builder.endParallel key))
      (fun answer => answer.1 = true ∧ s.Reads answer.2) Diagnostic.Ordinary := by
  have known : (Call.endParallel key).Known s.builder := List.forall_mem_singleton.mpr has
  unfold Session.buildWith
  split
  case h_2 e b refused =>
    exact .error (ModelError.ordinary ((Call.endParallel key).grounded coherent.grown known e b
      refused) span)
  case h_1 closed b ended =>
    obtain ⟨v, found, -, rfl, rfl⟩ := Builder.editDynamic_eq_ok.mp ended
    have run : LeadsKnown s.builder (s.builder.putView key v.endParallel.2) := by
      rw [← Change.after_of_ok ended]
      exact .call .refl (.endParallel key) known
    have deeper : s.frames.parallels key < v.depth := counts v found
    obtain ⟨closed, depth⟩ := v.endParallel_of_depth (Nat.zero_lt_of_lt deeper)
    refine .ok ⟨closed, coherent.withBuilder run.leads fun key' v' found' => ?_, run⟩
    rw [Builder.view_putView] at found'
    by_cases same : key = key'
    · subst same
      rw [if_pos rfl] at found'
      obtain rfl := Except.ok.inj found'
      omega
    · rw [if_neg same] at found'
      exact coherent.counted key' v' found'

/-- A block that is open can be closed. -/
theorem Coherent.closeBlock (coherent : s.Coherent) (ts : Tokens) :
    Yields (s.closeBlock ts) s.Reads Diagnostic.Ordinary := by
  unfold Session.closeBlock
  split
  · exact .error (of_code rfl)
  case h_2 f frames opened =>
    have rest := coherent.tail opened
    dsimp only
    split
    · have closed : Session.Follows { s with frames } { s with frames, closed := true } :=
        rest.follows_of_same rfl rfl rfl
      exact .ok ⟨closed.coherent, .refl⟩
    case h_2 key parallel =>
      have has : s.builder.Has (.view key) := by
        refine coherent.blocks f (opened ▸ List.mem_cons_self ..) _ ?_
        rw [parallel]
        exact List.mem_singleton_self _
      have counts : ({ s with frames } : Session).Counts (.parallel key) := by
        intro v found
        have counted := coherent.counted key v found
        rw [opened, Frames.parallels_cons, if_pos parallel] at counted
        exact counted
      have ended := rest.endParallel has counts (ts.span 0)
      split
      case h_1 s' answer =>
        rw [answer] at ended
        cases ended with
        | ok holds => exact .ok ⟨holds.2.coherent, holds.2.run⟩
      case h_2 answer =>
        rw [answer] at ended
        cases ended with
        | ok holds => cases holds.1
      case h_3 d answer =>
        rw [answer] at ended
        cases ended with
        | error holds => exact .error holds
    · exact .ok ⟨rest, .refl⟩

/-! ### Statements -/

/-- What an execution answers follows `s` and can open the block that it answers; what
refuses it is a fault of the source. -/
abbrev Behaves (s : Session) (x : Execution) : Prop :=
  Yields x
    (fun answer => s.Follows answer.2 ∧ ∀ block, answer.1 = some block → answer.2.CanOpen block)
    Diagnostic.Ordinary

theorem Follows.done (follows : s.Follows s') : s.Behaves s'.done := by
  refine .ok ⟨follows, ?_⟩
  rintro block ⟨⟩

/-- A block whose referents are there, and which its view counts, may be opened. -/
theorem Follows.opening (follows : s.Follows s') (has : ∀ x ∈ block.referents, s'.builder.Has x)
    (counts : s'.Counts block) : s.Behaves (s'.opening block) := by
  refine .ok ⟨follows, ?_⟩
  rintro _ ⟨⟩
  exact ⟨has, counts⟩

/-- A statement that does nothing but open a block. -/
theorem Coherent.bare (coherent : s.Coherent) (st : Statement)
    (has : ∀ x ∈ block.referents, s.builder.Has x) (counts : s.Counts block) :
    s.Behaves (checkBare st >>= fun _ => s.opening block) :=
  .after (fair_checkBare st) fun _ => coherent.follows.opening has counts

/-- A statement that makes one safe change. -/
theorem Coherent.behaves (coherent : s.Coherent) {c : Change Builder Unit}
    (safe : Safe c s.builder) (span : Span) : s.Behaves (s.build span c >>= Session.done) :=
  .bind (coherent.build safe span) fun _ follows => follows.done

end Session

end Language

end Edifice
