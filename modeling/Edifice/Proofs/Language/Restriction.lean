import Edifice.Proofs.Language.Runs

/-!
Reading in restricted mode.

In restricted mode an include and an import of decisions are refused before the resolver is
asked, whatever block, line or constant they come from.  So two restricted readings of a
source cannot tell their resolvers apart, and what a restricted reading answers is answered
without the restriction as well, since nothing was brought in (`Agrees`).  The relation is
carried through the reading of lines and sources once, for both statements.
-/

namespace Edifice.Language

open Check

/-! ### Agreement -/

section Agreement

variable {ε α β : Type} {alike : Prop} {x y : Except ε α} {e : ε}

/-- Where `x` answers, `y` answers the same; where the two are to be `alike`, `y` is also
refused as `x` is. -/
structure Agrees (alike : Prop) (x y : Except ε α) : Prop where
  answers : ∀ a, x = .ok a → y = .ok a
  refusals : alike → y = x

theorem Agrees.refl (x : Except ε α) : Agrees alike x x where
  answers := fun _ answer => answer
  refusals := fun _ => rfl

/-- With what is refused anything agrees that is refused where it has to be. -/
theorem Agrees.refused (same : alike → y = .error e) : Agrees alike (.error e) y where
  answers := by
    rintro a ⟨⟩
  refusals := same

/-- What follows agrees, if it does so on the answers of the restricted side. -/
theorem Agrees.bind {f g : α → Except ε β} (first : Agrees alike x y)
    (then_ : ∀ a, x = .ok a → Agrees alike (f a) (g a)) : Agrees alike (x >>= f) (y >>= g) := by
  constructor
  · intro b answer
    obtain ⟨a, before, after⟩ := bind_eq_ok.mp answer
    rw [first.answers a before]
    exact (then_ a before).answers b after
  · intro same
    rw [first.refusals same]
    cases x with
    | error e => rfl
    | ok a => exact (then_ a rfl).refusals same

/-- Checks that are made in both alike. -/
theorem Agrees.after {f g : α → Except ε β} (then_ : ∀ a, Agrees alike (f a) (g a)) :
    Agrees alike (x >>= f) (x >>= g) :=
  .bind (.refl x) fun a _ => then_ a

theorem Agrees.unless {p : Prop} [Decidable p] {f g : Unit → Except ε β}
    (rest : Agrees alike (f ()) (g ())) :
    Agrees alike (if p then throw e >>= f else f ()) (if p then throw e >>= g else g ()) := by
  split
  · exact .refl _
  · exact rest

theorem Agrees.ite {p : Prop} [Decidable p] {x' y' : Except ε α} (yes : Agrees alike x y)
    (no : Agrees alike x' y') : Agrees alike (if p then x else x') (if p then y else y') := by
  split
  · exact yes
  · exact no

end Agreement

/-! ### Directives -/

/-- Nothing is brought in. -/
abbrev Setting.Strict (setting : Setting) : Prop :=
  setting.options.restricted = true

/-- `setting` is restricted, and `setting'` counts warnings and reads colours as it does. -/
structure Setting.Restricts (setting setting' : Setting) : Prop where
  restricted : setting.Strict
  warnings : setting'.options.warningsAsErrors = setting.options.warningsAsErrors
  colors : setting'.colors = setting.colors

variable {setting setting' : Setting} {s : Session}

/-- No restricted include answers. -/
theorem executeInclude_refused (restricted : setting.Strict) (ts : Tokens)
    (file : Option String) : Gives (executeInclude setting ts file) fun _ => False := by
  refine .after fun _ => ?_
  rw [if_pos restricted]
  exact .error

/-- Restricted, an include is refused before any source is asked for. -/
theorem agrees_executeInclude (restricts : setting.Restricts setting') (ts : Tokens)
    (file : Option String) :
    Agrees setting'.Strict (executeInclude setting ts file) (executeInclude setting' ts file) := by
  refine .after fun _ => ?_
  rw [if_pos restricts.restricted]
  refine .refused fun strict => ?_
  rw [if_pos strict]
  rfl

/-- Restricted, decisions are refused before any file is asked for. -/
theorem agrees_executeDecisions (restricts : setting.Restricts setting') (ts : Tokens)
    (file : Option String) :
    Agrees setting'.Strict (executeDecisions setting s ts file)
      (executeDecisions setting' s ts file) := by
  refine .after fun _ => .after fun element => ?_
  rw [if_pos restricts.restricted]
  refine .refused fun strict => ?_
  rw [if_pos strict]
  rfl

theorem agrees_executeDirective (restricts : setting.Restricts setting') (ts : Tokens)
    (file : Option String) :
    Agrees setting'.Strict (executeDirective setting s ts file)
      (executeDirective setting' s ts file) := by
  unfold executeDirective
  split
  case h_3 => exact .bind (agrees_executeInclude restricts ts file) fun _ _ => .refl _
  case h_4 => exact .bind (agrees_executeDecisions restricts ts file) fun _ _ => .refl _
  all_goals exact .refl _

/-- A restricted directive brings no source in. -/
theorem inclusion_executeDirective (restricted : setting.Strict) (ts : Tokens)
    (file : Option String) :
    Gives (executeDirective setting s ts file) fun answer => answer.2 = none := by
  unfold executeDirective
  split
  case h_3 => exact .bind (executeInclude_refused restricted ts file) fun _ => False.elim
  case h_7 => exact .error
  all_goals exact .after fun _ => .ok rfl

/-! ### Lines -/

variable {p : Progress} {line : SourceLine} {file : Option String}

theorem agrees_check {α : Type} {alike : Prop} {x y : Except Diagnostic α}
    (agrees : Agrees alike x y) : Agrees alike (p.check line x) (p.check line y) := by
  constructor
  · intro a answer
    cases x with
    | error d => cases answer
    | ok b =>
      obtain rfl := Except.ok.inj answer
      rw [agrees.answers b rfl]
      rfl
  · intro same
    rw [agrees.refusals same]

theorem agrees_readTokens (restricts : setting.Restricts setting') (l : Source.LogicalLine)
    (ts : Tokens) :
    Agrees setting'.Strict (readTokens setting file l line ts p)
      (readTokens setting' file l line ts p) := by
  unfold readTokens
  rw [restricts.warnings, restricts.colors]
  refine .unless (.ite (.refl _) (.ite ?_ (.refl _)))
  exact .bind (agrees_check (agrees_executeDirective restricts ts file)) fun _ _ => .refl _

/-- Restricted, no line includes anything. -/
theorem inclusion_readTokens (restricted : setting.Strict) (l : Source.LogicalLine)
    (ts : Tokens) :
    Gives (readTokens setting file l line ts p) fun answer => answer.2 = none := by
  unfold readTokens
  refine .unless (.ite (.after fun _ => .ok rfl) (.ite ?_ ?_))
  · exact .bind (gives_check (inclusion_executeDirective restricted ts file)) fun _ none =>
      .ok none
  · exact .after fun _ => .after fun _ => .ok rfl

theorem agrees_readLine (restricts : setting.Restricts setting') (l : Source.LogicalLine) :
    Agrees setting'.Strict (readLine setting file l p) (readLine setting' file l p) := by
  unfold readLine
  rw [restricts.warnings]
  exact .after fun raw => .ite (.refl _) (.after fun _ => agrees_readTokens restricts l _)

theorem inclusion_readLine (restricted : setting.Strict) (l : Source.LogicalLine) :
    Gives (readLine setting file l p) fun answer => answer.2 = none := by
  unfold readLine
  exact .after fun raw => .ite (.ok rfl) (.after fun _ => inclusion_readTokens restricted l _)

/-! ### Sources -/

/-- Lines that bring nothing in are read alike, whatever would read what they bring in. -/
theorem agrees_readLines (restricts : setting.Restricts setting') (includer includer' : Includer)
    (ls : List Source.LogicalLine) :
    Agrees setting'.Strict (readLines setting file includer ls p)
      (readLines setting' file includer' ls p) := by
  induction ls generalizing p with
  | nil => exact .refl _
  | cons l rest ih =>
    refine .bind (agrees_readLine restricts l) fun answer read => ?_
    obtain ⟨p₁, inclusion⟩ := answer
    obtain rfl : inclusion = none := inclusion_readLine restricts.restricted l _ read
    exact ih

/-- Whatever the includers are, restricted lines never come to them. -/
theorem agrees_readContent (restricts : setting.Restricts setting')
    (includer includer' : Includer) (content : String) :
    Agrees setting'.Strict (readContent setting file includer content p)
      (readContent setting' file includer' content p) := by
  unfold readContent
  split
  · exact agrees_readLines restricts includer includer' _
  · exact .refl _

/-- The depth to which includes may be nested makes no difference either. -/
theorem agrees_readSource (restricts : setting.Restricts setting') (depth depth' : Nat)
    (opened : List (Option String)) (content : String) :
    Agrees setting'.Strict (readSource setting depth opened file content p)
      (readSource setting' depth' opened file content p) := by
  cases depth <;> cases depth' <;> exact agrees_readContent restricts _ _ content

theorem agrees_interpret (restricts : setting.Restricts setting') (name : Option String)
    (source : String) :
    Agrees setting'.Strict (interpret setting s name source) (interpret setting' s name source) :=
  .bind (agrees_readSource restricts _ _ [name] source) fun _ _ => .refl _

/-- **A restricted reading is isolated from its resolver**: with any other resolver it ends
the same way, and what it answers is answered without the restriction under every resolver,
on top of every session and from the start. -/
theorem restricted_reading_isolated (options : Options) (restricted : options.restricted = true)
    (resolver resolver' : Resolver) (colors : ColorReader) (name : Option String)
    (source : String) :
    (∀ s, interpret { options, resolver, colors } s name source =
        interpret { options, resolver := resolver', colors } s name source) ∧
      (∀ s parsed, interpret { options, resolver, colors } s name source = .ok parsed →
        interpret { options := { options with restricted := false }, resolver := resolver', colors }
          s name source = .ok parsed) ∧
      parse { options, resolver, colors } name source =
        parse { options, resolver := resolver', colors } name source ∧
      ∀ parsed, parse { options, resolver, colors } name source = .ok parsed →
        parse { options := { options with restricted := false }, resolver := resolver', colors }
          name source = .ok parsed := by
  have alike : ∀ s, interpret { options, resolver, colors } s name source =
      interpret { options, resolver := resolver', colors } s name source := by
    intro s
    have restricts : Setting.Restricts { options, resolver, colors }
        { options, resolver := resolver', colors } := ⟨restricted, rfl, rfl⟩
    exact ((agrees_interpret restricts name source).refusals restricted).symm
  have freed : ∀ s parsed, interpret { options, resolver, colors } s name source = .ok parsed →
      interpret { options := { options with restricted := false }, resolver := resolver', colors }
        s name source = .ok parsed := by
    intro s
    have restricts : Setting.Restricts { options, resolver, colors }
        { options := { options with restricted := false }, resolver := resolver', colors } :=
      ⟨restricted, rfl, rfl⟩
    exact (agrees_interpret restricts name source).answers
  exact ⟨alike, freed, alike _, freed _⟩

/-- The shop is read in restricted mode, under every resolver and without the restriction. -/
theorem restriction_of_shop :
    ∃ parsed, ∀ resolver,
      parse { options := { restricted := true }, resolver } none shopSource = .ok parsed ∧
        parse { resolver } none shopSource = .ok parsed := by
  have read : (parse { options := { restricted := true } } none shopSource).isOk = true := by
    decide +kernel
  obtain ⟨parsed, answer⟩ := Check.isOk_iff.mp read
  refine ⟨parsed, fun resolver => ?_⟩
  obtain ⟨-, -, alike, freed⟩ := restricted_reading_isolated { restricted := true } rfl .empty
    resolver Color.css none shopSource
  exact ⟨alike.symm.trans answer, freed parsed answer⟩

end Edifice.Language
