import Edifice.Identifier.Registry
import Edifice.Proofs.Identifier.Names
import Mathlib.Logic.Relation

/-!
How names resolve while more of them are bound.

A name that its author chose is bound only where it does not resolve yet, so it goes on to
resolve as it did wherever it did, and resolves to what it is bound to elsewhere below the
new scope (`resolve_register`).  Names of what is unnamed may be bound again, but where
paths can lead to them they always stand for the same element (`Faithful`).  Together this
makes resolution stable: what a name stands for once, it stands for whatever is bound
later (`Grows.resolve_eq`).
-/

namespace Edifice.Registry

open Identifier

variable {r r' : Registry} {name other : String} {scope place : Scope}
  {binding binding' : Binding}

/-! ### Looking up -/

theorem bound?_eq_none_iff :
    r.bound? scope name = none ↔ ∀ e ∈ r.entries, e.scope = scope → e.name ≠ name := by
  simp [bound?]

/-- A name is unknown in a scope exactly if it is bound in none of those around it. -/
theorem resolveOutward_eq_none_iff :
    r.resolveOutward name scope = none ↔
      ∀ e ∈ r.entries, e.name = name → ¬ e.scope <:+ scope := by
  induction scope with
  | nil =>
    rw [resolveOutward, bound?_eq_none_iff]
    simp only [List.suffix_nil]
    constructor
    · exact fun free e member own root => free e member root own
    · exact fun free e member root own => free e member own root
  | cons id outer ih =>
    rw [resolveOutward, Option.or_eq_none_iff, bound?_eq_none_iff, ih]
    simp only [List.suffix_cons_iff, not_or]
    constructor
    · rintro ⟨here, outward⟩ e member own
      exact ⟨fun same => here e member same own, outward e member own⟩
    · intro free
      constructor
      · exact fun e member same own => (free e member own).1 same
      · exact fun e member own => (free e member own).2

/-- A name that is no path is looked up outwards. -/
theorem resolve_of_plain (plain : isPath name = false) (scope : Scope) :
    r.resolve name scope = r.resolveOutward name scope := by
  unfold resolve
  rw [plain, Bool.and_false, if_neg Bool.false_ne_true]
  cases r.resolveOutward name scope <;> rfl

/-- A name resolves outwards, or else is a path that is followed from the scope of the
workspace. -/
theorem resolve_eq_some_iff :
    r.resolve name scope = some binding ↔
      r.resolveOutward name scope = some binding ∨
        r.resolveOutward name scope = none ∧ r.mode = .hierarchical ∧ isPath name = true ∧
          r.follow [] (segments name) = some binding := by
  unfold resolve
  cases r.resolveOutward name scope <;> simp [and_assoc]

/-! ### Following -/

/-- Following the names of elements, each of which is bound inside of the next, leads inside
of the innermost. -/
theorem follow_chain {chain : List (String × ElementId)} {tail : List String}
    (bound : ∀ n outer, n :: outer <:+ chain →
      r.bound? (outer.map Prod.snd) n.1 = some (.element n.2))
    (further : tail ≠ []) :
    r.follow [] ((chain.map Prod.fst).reverse ++ tail) = r.follow (chain.map Prod.snd) tail := by
  induction chain generalizing tail with
  | nil => rfl
  | cons n outer ih =>
    have passes : r.follow (outer.map Prod.snd) (n.1 :: tail) =
        r.follow (n.2 :: outer.map Prod.snd) tail := by
      obtain ⟨next, rest, rfl⟩ := List.exists_cons_of_ne_nil further
      simp only [follow, bound n outer (List.suffix_refl _)]
    calc r.follow [] (((n :: outer).map Prod.fst).reverse ++ tail)
      _ = r.follow [] ((outer.map Prod.fst).reverse ++ n.1 :: tail) := by simp
      _ = r.follow (outer.map Prod.snd) (n.1 :: tail) :=
        ih (fun m around inside => bound m around (inside.trans (List.suffix_cons n outer)))
          (List.cons_ne_nil _ _)
      _ = r.follow ((n :: outer).map Prod.snd) tail := passes

/-- Where no name is a path, a path of two or more names resolves to what following it leads
to. -/
theorem resolve_path {names : List String} (hierarchical : r.mode = .hierarchical)
    (unbound : ∀ e ∈ r.entries, isPath e.name = false) (plain : ∀ n ∈ names, isPath n = false)
    (several : 2 ≤ names.length) (followed : r.follow [] names = some binding) (place : Scope) :
    r.resolve (".".intercalate names) place = some binding := by
  have path : isPath (".".intercalate names) = true := by
    match names, several with
    | first :: next :: rest, _ => exact isPath_intercalate first next rest
  have cut : segments (".".intercalate names) = names :=
    segments_intercalate (List.ne_nil_of_length_pos (by omega)) plain
  rw [resolve_eq_some_iff]
  refine .inr ⟨?_, hierarchical, path, by rw [cut, followed]⟩
  rw [resolveOutward_eq_none_iff]
  intro e member own
  rw [← own, unbound e member] at path
  cases path

/-! ### Binding -/

/-- A binding changes what its own name stands for in its own scope. -/
theorem bound?_bind :
    (r.bind name binding scope).bound? place other =
      if scope = place ∧ name = other then some binding else r.bound? place other := by
  by_cases own : scope = place ∧ name = other
  · obtain ⟨rfl, rfl⟩ := own
    simp [bind, bound?]
  · rw [if_neg own]
    have passed : (scope == place && name == other) = false := by simpa using own
    simp [bind, bound?, passed]

/-- A binding does nothing to other names. -/
theorem resolveOutward_bind_of_ne (different : other ≠ name) (place : Scope) :
    (r.bind name binding scope).resolveOutward other place = r.resolveOutward other place := by
  have same : ∀ place, (r.bind name binding scope).bound? place other =
      r.bound? place other := by
    intro place
    rw [bound?_bind, if_neg]
    rintro ⟨-, own⟩
    exact different own.symm
  induction place with
  | nil => exact same []
  | cons id outer ih => rw [resolveOutward, resolveOutward, same, ih]

/-- A name that is bound where it did not resolve resolves below that scope, if not as it
did, to what it is bound to, and elsewhere as it did. -/
theorem resolveOutward_bind_of_free (free : r.resolveOutward name scope = none) (place : Scope) :
    (r.bind name binding scope).resolveOutward name place =
      if scope <:+ place then (r.resolveOutward name place).or (some binding)
      else r.resolveOutward name place := by
  induction place with
  | nil =>
    rw [resolveOutward, bound?_bind, resolveOutward]
    simp only [List.suffix_nil, and_true]
    split
    case isTrue root =>
      subst root
      rw [resolveOutward] at free
      rw [free]
      rfl
    case isFalse => rfl
  | cons id outer ih =>
    rw [resolveOutward, bound?_bind, ih]
    by_cases here : scope = id :: outer
    · subst here
      rw [if_pos ⟨rfl, rfl⟩, if_pos (List.suffix_refl _), free]
      rfl
    · have below : scope <:+ id :: outer ↔ scope <:+ outer := by
        rw [List.suffix_cons_iff]
        exact or_iff_right here
      rw [if_neg fun own => here own.1, resolveOutward]
      simp only [below]
      split
      · rw [Option.or_assoc]
      · rfl

/-- A name is registered exactly if it is valid and not visible yet from its scope outwards. -/
theorem register_eq_ok :
    r.register name binding scope = .ok r' ↔
      isValid name = true ∧ r.resolveOutward name scope = none ∧
        r' = r.bind name binding scope := by
  unfold register
  by_cases valid : isValid name = true
  · cases free : r.resolveOutward name scope with
    | none => simp [valid, eq_comm]
    | some b => simp [valid]
  · simp [valid]

/-- From outside, any name that is not empty and not known in the outermost scope may be bound.
-/
theorem registerExternal_eq_ok :
    r.registerExternal name binding = .ok r' ↔
      name ≠ "" ∧ r.resolveOutward name [] = none ∧ r' = r.bind name binding [] := by
  unfold registerExternal resolveOutward
  by_cases empty : name = ""
  · simp [empty]
  · cases free : r.bound? [] name with
    | none => simp [empty, eq_comm]
    | some b => simp [empty]

/-- Registering a name changes the resolution of no other name that is no path, and that of
the name itself only below the scope, from where it did not resolve. -/
theorem resolve_register (registered : r.register name binding scope = .ok r')
    (plain : isPath other = false) (place : Scope) :
    r'.resolve other place =
      if other = name ∧ scope <:+ place then (r.resolve other place).or (some binding)
      else r.resolve other place := by
  obtain ⟨-, free, rfl⟩ := register_eq_ok.mp registered
  rw [resolve_of_plain plain, resolve_of_plain plain]
  by_cases own : other = name
  · subst own
    rw [resolveOutward_bind_of_free free]
    simp only [true_and]
  · rw [resolveOutward_bind_of_ne own, if_neg fun both => own both.1]

/-! ### Growth -/

/-- What can happen to a registry: its mode is chosen before anything is bound, a chosen
name or that of something unnamed is bound, or, while everything is bound in the scope of
the workspace, a name from outside. -/
inductive Grows (r : Registry) : Registry → Prop where
  | same : Grows r r
  | mode (mode : IdentifierMode) (unused : r.entries = []) : Grows r { r with mode }
  | named {name : String} {binding : Binding} {scope : Scope} {r' : Registry}
      (registered : r.register name binding scope = .ok r') : Grows r r'
  | unnamed (id : ElementId) (scope : Scope) :
      Grows r (r.registerAnonymous id.index (.element id) scope)
  | external {name : String} {binding : Binding} {r' : Registry}
      (root : ∀ e ∈ r.entries, e.scope = [])
      (registered : r.registerExternal name binding = .ok r') : Grows r r'

/-- Inside of elements, the names of what is unnamed stand for the elements that they
tell. -/
def Faithful (r : Registry) : Prop :=
  ∀ e ∈ r.entries, e.scope ≠ [] → isAnonymous e.name = true →
    ∃ id : ElementId, e.name = anonymous id.index ∧ e.binding = .element id

/-- Setting the mode is a step. -/
theorem grows_setMode? {mode : IdentifierMode} (chosen : r.setMode? mode = some r') :
    r.Grows r' := by
  unfold setMode? at chosen
  split at chosen
  case isTrue unused =>
    obtain rfl := Option.some.inj chosen
    exact .mode mode (List.isEmpty_iff.mp unused)
  case isFalse =>
    split at chosen
    · obtain rfl := Option.some.inj chosen
      exact .same
    · cases chosen

/-- Bindings are only ever added. -/
theorem Grows.entries_suffix (step : r.Grows r') : r.entries <:+ r'.entries := by
  cases step with
  | same | mode => exact List.suffix_refl _
  | named registered =>
    obtain ⟨-, -, rfl⟩ := register_eq_ok.mp registered
    exact List.suffix_cons _ _
  | unnamed => exact List.suffix_cons _ _
  | external _ registered =>
    obtain ⟨-, -, rfl⟩ := registerExternal_eq_ok.mp registered
    exact List.suffix_cons _ _

/-- The mode stays as it is once a name is bound. -/
theorem Grows.mode_eq (step : r.Grows r') (used : r.entries ≠ []) : r'.mode = r.mode := by
  cases step with
  | same | unnamed => rfl
  | mode _ unused => exact absurd unused used
  | named registered =>
    obtain ⟨-, -, rfl⟩ := register_eq_ok.mp registered
    rfl
  | external _ registered =>
    obtain ⟨-, -, rfl⟩ := registerExternal_eq_ok.mp registered
    rfl

/-- Inside of elements no step binds the name of something unnamed to anything but its own
element. -/
theorem Grows.faithful (step : r.Grows r') (faithful : r.Faithful) : r'.Faithful := by
  cases step with
  | same | mode => exact faithful
  | named registered =>
    obtain ⟨valid, -, rfl⟩ := register_eq_ok.mp registered
    apply List.forall_mem_cons.mpr ⟨_, faithful⟩
    intro _ unnamed
    dsimp only at unnamed
    rw [isAnonymous_of_isValid valid] at unnamed
    cases unnamed
  | unnamed id scope => exact List.forall_mem_cons.mpr ⟨fun _ _ => ⟨id, rfl, rfl⟩, faithful⟩
  | external _ registered =>
    obtain ⟨-, -, rfl⟩ := registerExternal_eq_ok.mp registered
    exact List.forall_mem_cons.mpr ⟨fun inside => absurd rfl inside, faithful⟩

/-! ### Stability -/

/-- What stands for something in the scope of the workspace under a name of its own, or
inside of an element under any name, stands for it after a step. -/
theorem Grows.bound?_eq (step : r.Grows r') (faithful : r.Faithful)
    (found : r.bound? scope name = some binding)
    (chosen : scope = [] → isAnonymous name = false) : r'.bound? scope name = some binding := by
  have kept : ∀ {name' : String} {binding' : Binding} {scope' : Scope},
      (scope' = scope → name' = name → binding' = binding) →
        (r.bind name' binding' scope').bound? scope name = some binding := by
    intro name' binding' scope' agree
    rw [bound?_bind]
    split
    case isTrue own => rw [agree own.1 own.2]
    case isFalse => exact found
  -- Where a name was free, nothing was found under it.
  have taken : ∀ {name' : String} {scope' : Scope}, r.resolveOutward name' scope' = none →
      scope' = scope → name' = name → False := by
    rintro name' scope' free rfl rfl
    have absent : r.bound? scope' name' = none := by
      rw [bound?_eq_none_iff]
      intro e member same own
      exact resolveOutward_eq_none_iff.mp free e member own (same ▸ List.suffix_refl _)
    rw [absent] at found
    cases found
  cases step with
  | same => exact found
  | mode _ unused =>
    rw [bound?, unused] at found
    cases found
  | named registered =>
    obtain ⟨-, free, rfl⟩ := register_eq_ok.mp registered
    exact kept fun same own => (taken free same own).elim
  | external _ registered =>
    obtain ⟨-, free, rfl⟩ := registerExternal_eq_ok.mp registered
    exact kept fun same own => (taken free same own).elim
  | unnamed id scope' =>
    apply kept
    rintro rfl rfl
    obtain ⟨e, first, rfl⟩ := Option.map_eq_some_iff.mp found
    have own := List.find?_some first
    simp only [Bool.and_eq_true, beq_iff_eq] at own
    obtain ⟨rfl, named⟩ := own
    have unnamed := isAnonymous_anonymous id.index
    have inside : e.scope ≠ [] := by
      intro root
      rw [chosen root] at unnamed
      cases unnamed
    obtain ⟨id', told, bound⟩ :=
      faithful e (List.mem_of_find?_eq_some first) inside (named ▸ unnamed)
    have same := anonymous_injective (named.symm.trans told)
    rw [bound, ElementId.ext same]

/-- Outwards, a chosen name resolves as it did. -/
theorem Grows.resolveOutward_eq (step : r.Grows r') (chosen : isAnonymous name = false)
    (found : r.resolveOutward name scope = some binding) :
    r'.resolveOutward name scope = some binding := by
  have kept : ∀ {name' : String} {binding' : Binding} {scope' : Scope},
      r.resolveOutward name' scope' = none →
        (r.bind name' binding' scope').resolveOutward name scope = some binding := by
    intro name' binding' scope' free
    by_cases own : name = name'
    · subst own
      rw [resolveOutward_bind_of_free free, found]
      simp
    · rw [resolveOutward_bind_of_ne own]
      exact found
  cases step with
  | same => exact found
  | mode _ unused =>
    have absent : r.resolveOutward name scope = none := by
      rw [resolveOutward_eq_none_iff, unused]
      exact List.forall_mem_nil _
    rw [absent] at found
    cases found
  | named registered =>
    obtain ⟨-, free, rfl⟩ := register_eq_ok.mp registered
    exact kept free
  | unnamed id scope' =>
    have different : name ≠ anonymous id.index := by
      rintro rfl
      rw [isAnonymous_anonymous] at chosen
      cases chosen
    exact (resolveOutward_bind_of_ne different scope).trans found
  | external _ registered =>
    obtain ⟨-, free, rfl⟩ := registerExternal_eq_ok.mp registered
    exact kept free

/-- A path leads where it led, from the scope of the workspace on if its first segment is a
chosen name. -/
theorem Grows.follow_eq (step : r.Grows r') (faithful : r.Faithful) {segments : List String}
    (found : r.follow scope segments = some binding)
    (chosen : scope = [] → ∀ first ∈ segments.head?, isAnonymous first = false) :
    r'.follow scope segments = some binding := by
  induction segments generalizing scope with
  | nil => cases found
  | cons name rest ih =>
    have first : scope = [] → isAnonymous name = false := fun root => chosen root name rfl
    cases rest with
    | nil => exact step.bound?_eq faithful found first
    | cons next rest =>
      simp only [follow] at found ⊢
      split at found
      case h_1 id inside =>
        rw [step.bound?_eq faithful inside first]
        exact ih found fun root => absurd root (List.cons_ne_nil id scope)
      case h_2 => cases found

/-- While everything is bound in the scope of the workspace, no path leads further than
names do. -/
theorem follow_eq_none_of_root (root : ∀ e ∈ r.entries, e.scope = [])
    (free : r.resolveOutward name scope = none) : r.follow [] (segments name) = none := by
  have inside : ∀ id (place : Scope) segments, r.follow (id :: place) segments = none := by
    intro id place segments
    have unbound : ∀ name, r.bound? (id :: place) name = none := by
      intro name
      rw [bound?_eq_none_iff]
      intro e member here
      rw [root e member] at here
      cases here
    match segments with
    | [] => rfl
    | [name] => exact unbound name
    | name :: next :: rest => simp only [follow, unbound]
  have whole := intercalate_segments name
  match cut : segments name with
  | [] => rfl
  | [single] =>
    rw [cut, String.intercalate_singleton] at whole
    rw [whole, follow, bound?_eq_none_iff]
    intro e member _ own
    have nothing := resolveOutward_eq_none_iff.mp free e member own
    rw [root e member] at nothing
    exact nothing List.nil_suffix
  | first :: next :: rest =>
    simp only [follow]
    split
    · exact inside _ _ _
    · rfl

/-- **What a chosen name or path stands for, it stands for after a step.** -/
theorem Grows.resolve_eq (step : r.Grows r') (faithful : r.Faithful)
    (chosen : isAnonymous name = false) (found : r.resolve name scope = some binding) :
    r'.resolve name scope = some binding := by
  rw [resolve_eq_some_iff] at found ⊢
  rcases found with outward | ⟨free, hierarchical, path, followed⟩
  · exact .inl (step.resolveOutward_eq chosen outward)
  · right
    have first : ([] : Scope) = [] → ∀ first ∈ (segments name).head?,
        isAnonymous first = false := by
      intro _ first starts
      obtain ⟨rest, cut⟩ : ∃ rest, segments name = first :: rest :=
        List.head?_eq_some_iff.mp starts
      apply Bool.eq_false_iff.mpr
      intro unnamed
      rw [isAnonymous_of_segments cut unnamed] at chosen
      cases chosen
    have followed' := step.follow_eq faithful followed first
    -- A path is no chosen name, so binding one takes nothing from it.
    have other : ∀ {name' : String} {binding' : Binding} {scope' : Scope}, isPath name' = false →
        (r.bind name' binding' scope').resolveOutward name scope = none := by
      intro name' binding' scope' plain
      rw [resolveOutward_bind_of_ne]
      · exact free
      · rintro rfl
        rw [plain] at path
        cases path
    cases step with
    | same => exact ⟨free, hierarchical, path, followed'⟩
    | mode _ unused =>
      have root : ∀ e ∈ r.entries, e.scope = [] := by
        rw [unused]
        exact List.forall_mem_nil _
      rw [follow_eq_none_of_root root free] at followed
      cases followed
    | named registered =>
      obtain ⟨valid, -, rfl⟩ := register_eq_ok.mp registered
      exact ⟨other (isPath_of_isValid valid), hierarchical, path, followed'⟩
    | unnamed id scope' =>
      exact ⟨other (isPath_anonymous id.index), hierarchical, path, followed'⟩
    | external root registered =>
      rw [follow_eq_none_of_root root free] at followed
      cases followed

/-! ### The order of bindings -/

/-- A chosen name is bound neither again in a scope in which it is bound nor inside of it
later. -/
def Ordered (r : Registry) : Prop :=
  r.entries.Pairwise fun later earlier =>
    later.name = earlier.name → isAnonymous later.name = false → ¬ earlier.scope <:+ later.scope

/-- A step binds a chosen name only where no scope around has it. -/
theorem Grows.ordered (step : r.Grows r') (ordered : r.Ordered) : r'.Ordered := by
  have kept : ∀ {name : String} {binding : Binding} {scope : Scope},
      (isAnonymous name = false → r.resolveOutward name scope = none) →
        (r.bind name binding scope).Ordered := by
    intro name binding scope free
    apply List.pairwise_cons.mpr ⟨_, ordered⟩
    intro earlier member same chosen
    exact resolveOutward_eq_none_iff.mp (free chosen) earlier member same.symm
  cases step with
  | same | mode => exact ordered
  | named registered =>
    obtain ⟨-, free, rfl⟩ := register_eq_ok.mp registered
    exact kept fun _ => free
  | unnamed id scope =>
    apply kept
    intro chosen
    rw [isAnonymous_anonymous] at chosen
    cases chosen
  | external _ registered =>
    obtain ⟨-, free, rfl⟩ := registerExternal_eq_ok.mp registered
    exact kept fun _ => free

/-! ### Runs -/

/-- One step after the other leads from `r` to `r'`. -/
abbrev Evolves : Registry → Registry → Prop :=
  Relation.ReflTransGen Grows

theorem Evolves.faithful (run : r.Evolves r') (faithful : r.Faithful) : r'.Faithful := by
  induction run with
  | refl => exact faithful
  | tail _ step ih => exact step.faithful ih

theorem Evolves.ordered (run : r.Evolves r') (ordered : r.Ordered) : r'.Ordered := by
  induction run with
  | refl => exact ordered
  | tail _ step ih => exact step.ordered ih

theorem Evolves.entries_suffix (run : r.Evolves r') : r.entries <:+ r'.entries := by
  induction run with
  | refl => exact List.suffix_refl _
  | tail _ step ih => exact ih.trans step.entries_suffix

/-- The mode is fixed once anything is bound. -/
theorem Evolves.mode_eq (run : r.Evolves r') (used : r.entries ≠ []) : r'.mode = r.mode := by
  induction run with
  | refl => rfl
  | tail earlier step ih =>
    have used' : _ ≠ [] := fun unused =>
      used (List.suffix_nil.mp (unused ▸ Evolves.entries_suffix earlier))
    exact (step.mode_eq used').trans ih

theorem Evolves.bound?_eq (run : r.Evolves r') (faithful : r.Faithful)
    (found : r.bound? scope name = some binding)
    (chosen : scope = [] → isAnonymous name = false) : r'.bound? scope name = some binding := by
  induction run with
  | refl => exact found
  | tail earlier step ih => exact step.bound?_eq (Evolves.faithful earlier faithful) ih chosen

/-- What a chosen name stands for it stands for ever after, in the same scope. -/
theorem Evolves.resolve_eq (run : r.Evolves r') (faithful : r.Faithful)
    (chosen : isAnonymous name = false) (found : r.resolve name scope = some binding) :
    r'.resolve name scope = some binding := by
  induction run with
  | refl => exact found
  | tail earlier step ih => exact step.resolve_eq (Evolves.faithful earlier faithful) chosen ih

end Edifice.Registry
