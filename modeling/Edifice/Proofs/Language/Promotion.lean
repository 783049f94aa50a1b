import Edifice.Proofs.Language.Replay

/-!
Warnings that count as errors.

A reading that counts warnings as errors goes as one that does not until the first warning,
and ends there: nothing that is done before depends on how warnings count, and nothing that
is done after changes what comes first (`Promotes`).  So the two readings of a source differ
in no more than where they stop (`promoted_warnings`).
-/

namespace Edifice

open Check

/-! ### Severities -/

def Warned (ws all : List Diagnostic) : Prop :=
  ∃ vs, all = ws ++ vs ∧ ∀ v ∈ vs, v.severity = .warning

theorem Warned.refl (ws : List Diagnostic) : Warned ws ws :=
  ⟨[], (List.append_nil ws).symm, List.forall_mem_nil _⟩

/-- Warnings that follow warnings follow those before them. -/
theorem Warned.trans {ws ws' all : List Diagnostic} (first : Warned ws ws')
    (then_ : Warned ws' all) : Warned ws all := by
  obtain ⟨vs, rfl, warnings⟩ := first
  obtain ⟨vs', rfl, warnings'⟩ := then_
  refine ⟨vs ++ vs', List.append_assoc .., ?_⟩
  rw [List.forall_mem_append]
  exact ⟨warnings, warnings'⟩

/-- An error, after the warnings `ws` and others. -/
def Failure.After (ws : List Diagnostic) (f : Failure) : Prop :=
  ∃ d all, f.diagnostics = d :: all ∧ d.severity = .error ∧ Warned ws all

/-- Where `ws'` comes after `ws`, so does what comes after `ws'`. -/
theorem Warned.keeps {α : Type} {get : α → List Diagnostic} {x : Except Failure α}
    {ws ws' : List Diagnostic} (before : Warned ws ws')
    (keeps : Yields x (fun a => Warned ws' (get a)) (Failure.After ws')) :
    Yields x (fun a => Warned ws (get a)) (Failure.After ws) := by
  cases keeps with
  | ok after => exact .ok (before.trans after)
  | error after =>
    obtain ⟨d, all, own, severe, after⟩ := after
    exact .error ⟨d, all, own, severe, before.trans after⟩

namespace Language

/-- All advice is given as warnings. -/
theorem severity_of_advice (block : Option Block) (ts : Tokens) :
    ∀ v ∈ advice block ts, v.severity = .warning := by
  have setting : ∀ settings style, ∀ v ∈ settingAdvice settings style ts,
      v.severity = .warning := by
    intro settings style v advised
    unfold settingAdvice at advised
    dsimp only at advised
    split at advised
    · rw [List.mem_singleton.mp advised]
      rfl
    · cases advised
  intro v advised
  unfold advice at advised
  split at advised
  · split at advised
    · rw [List.mem_singleton.mp advised]
      rfl
    · cases advised
  · exact setting _ _ v advised
  · exact setting _ _ v advised
  · cases advised

theorem severity_of_constantAdvice (constants : Dictionary String) (ts : Tokens) :
    ∀ v ∈ constantAdvice constants ts, v.severity = .warning := by
  intro v advised
  obtain ⟨missing, -, rfl⟩ := List.mem_map.mp advised
  rfl

/-! ### Two ways to count -/

section Counting

variable {α β ι : Type} {get : α → List Diagnostic} {get' : β → List Diagnostic}
  {ws : List Diagnostic} {x y : Except Failure α}

/-- What a reading comes to, and what it comes to when its first warning ends it. -/
inductive Counted (get : α → List Diagnostic) : Except Failure α → Except Failure α → Prop where
  | quiet (a : α) (none : get a = []) : Counted get (.ok a) (.ok a)
  | failed (d : Diagnostic) : Counted get (.error ⟨[d]⟩) (.error ⟨[d]⟩)
  | warned (a : α) (v : Diagnostic) (vs : List Diagnostic) (warnings : get a = v :: vs) :
    Counted get (.ok a) (.error ⟨[v.asError]⟩)
  | broken (d v : Diagnostic) (vs : List Diagnostic) :
    Counted get (.error ⟨d :: v :: vs⟩) (.error ⟨[v.asError]⟩)

/-- After the warnings `ws`, `x` goes on to warn, and `y` is `x` up to the first warning.
Where there has been one already, nothing is said of `y`. -/
structure Promotes (ws : List Diagnostic) (get : α → List Diagnostic) (x y : Except Failure α) :
    Prop where
  keeps : Yields x (fun a => Warned ws (get a)) (Failure.After ws)
  counted : ws = [] → Counted get x y

theorem Promotes.ok {a : α} (own : get a = ws) : Promotes ws get (.ok a) (.ok a) where
  keeps := .ok (own ▸ .refl _)
  counted := fun none => .quiet a (own.trans none)

theorem Promotes.error {p : Progress} {d : Diagnostic} (severe : d.severity = .error) :
    Promotes p.warnings get (.error (p.failure d)) (.error (p.failure d)) where
  keeps := .error ⟨d, p.warnings, rfl, severe, .refl _⟩
  counted := by
    intro none
    rw [Progress.failure, none]
    exact .failed d

/-- Two readings promote that promote step by step: once there has been a warning nothing more
is said of the strict one. -/
theorem Promotes.bind {f g : α → Except Failure β} (first : Promotes ws get x y)
    (then_ : ∀ a, Promotes (get a) get' (f a) (g a)) :
    Promotes ws get' (x >>= f) (y >>= g) := by
  constructor
  · exact first.keeps.bind fun a before => before.keeps (then_ a).keeps
  · intro none
    cases first.counted none with
    | quiet a none => exact (then_ a).counted none
    | failed d => exact .failed d
    | broken d v vs => exact .broken d v vs
    | warned a v vs warnings =>
      -- the first warning has been raised: it stays the first, whatever `f a` comes to
      have keeps := (then_ a).keeps
      rw [warnings] at keeps
      rw [ok_bind, error_bind]
      generalize f a = z at keeps
      cases keeps with
      | ok after =>
        obtain ⟨us, own, -⟩ := after
        exact .warned _ v (vs ++ us) own
      | @error e _ _ after =>
        obtain ⟨d, _, own, -, us, rfl, -⟩ := after
        obtain ⟨diagnostics⟩ := e
        obtain rfl : diagnostics = _ := own
        exact .broken d v (vs ++ us)

theorem Promotes.ite {p : Prop} [Decidable p] {x' y' : Except Failure α}
    (yes : Promotes ws get x y) (no : Promotes ws get x' y') :
    Promotes ws get (if p then x else x') (if p then y else y') := by
  split
  · exact yes
  · exact no

theorem Promotes.unless {c : Prop} [Decidable c] {p : Progress} {d : Diagnostic}
    {f g : Unit → Except Failure α} (severe : d.severity = .error)
    (rest : Promotes p.warnings get (f ()) (g ())) :
    Promotes p.warnings get (if c then throw (p.failure d) >>= f else f ())
      (if c then throw (p.failure d) >>= g else g ()) :=
  .ite (.error severe) rest

/-- Loops promote whose turns do. -/
theorem Promotes.foldlM {f g : α → ι → Except Failure α} (l : List ι)
    (turn : ∀ i a, Promotes (get a) get (f a i) (g a i)) (a : α) :
    Promotes (get a) get (l.foldlM f a) (l.foldlM g a) := by
  induction l generalizing a with
  | nil => exact .ok rfl
  | cons i rest ih => exact .bind (turn i a) fun a => ih a

end Counting

/-! ### Lines -/

def Setting.counting (setting : Setting) (strict : Bool) : Setting :=
  { setting with options := { setting.options with warningsAsErrors := strict } }

variable {setting : Setting} {file : Option String} {line : SourceLine}

theorem promotes_check (p : Progress) {α : Type} {answer : Except Diagnostic α}
    (severe : Yields answer (fun _ => True) (·.severity = .error)) :
    Promotes p.warnings (fun _ => p.warnings) (p.check line answer) (p.check line answer) := by
  cases severe with
  | ok => exact .ok rfl
  | error severe => exact .error severe

/-- A warning goes on in the lenient reading and is the error that ends the strict one. -/
theorem promotes_warn (p : Progress) {d : Diagnostic} (warning : d.severity = .warning) :
    Promotes p.warnings Progress.warnings (p.warn false line d) (p.warn true line d) := by
  constructor
  · refine .ok ⟨[d.withLine line], rfl, ?_⟩
    rw [List.forall_mem_singleton]
    exact warning
  · intro none
    have strict : p.warn true line d = .error ⟨[(d.withLine line).asError]⟩ := by
      rw [Progress.warn, if_pos rfl, Progress.failure, none]
    rw [strict]
    refine .warned _ (d.withLine line) [] ?_
    rw [none]
    rfl

/-- Of several warnings the first ends the strict reading. -/
theorem promotes_warnAll (p : Progress) {ds : List Diagnostic}
    (warnings : ∀ d ∈ ds, d.severity = .warning) :
    Promotes p.warnings Progress.warnings (p.warnAll false line ds) (p.warnAll true line ds) := by
  unfold Progress.warnAll
  induction ds generalizing p with
  | nil => exact .ok rfl
  | cons d rest ih =>
    rw [List.forall_mem_cons] at warnings
    exact .bind (promotes_warn p warnings.1) fun p => ih p warnings.2

/-- No directive depends on how warnings count, and what it is refused with is an error. -/
theorem severe_executeDirective (s : Session) (ts : Tokens) :
    Yields (executeDirective setting s ts file) (fun _ => True) (·.severity = .error) :=
  (matches_executeDirective (.refl _ _) (.refl s.frames) (.refl ts)).severe

theorem severe_closeBlock (s : Session) (ts : Tokens) :
    Yields (s.closeBlock ts) (fun _ => True) (·.severity = .error) :=
  (matches_closeBlock (Frames.Alike.refl s.frames) ts ts).severe

theorem severe_lineTokens (l : Source.LogicalLine) :
    Yields (lineTokens l) (fun _ => True) (·.severity = .error) := by
  have same : l.Alike l := rfl
  exact (matches_lineTokens same).severe

/-- A line warns first and is executed afterwards, with the warnings counted either way. -/
theorem promotes_readTokens (l : Source.LogicalLine) (ts : Tokens) (p : Progress) :
    Promotes p.warnings (·.1.warnings) (readTokens (setting.counting false) file l line ts p)
      (readTokens (setting.counting true) file l line ts p) := by
  unfold readTokens
  refine .unless rfl (.ite ?_ (.ite ?_ ?_))
  · exact .bind (promotes_check p (severe_closeBlock _ ts)) fun _ => .ok rfl
  · refine .bind (promotes_check p (severe_executeDirective _ ts)) fun _ => .ok rfl
  · refine .bind (promotes_warnAll p (severity_of_advice _ _)) fun p₁ => ?_
    refine .bind (promotes_check p₁ (severe_runStatement _ _)) fun _ => .ok rfl

theorem promotes_readLine (l : Source.LogicalLine) (p : Progress) :
    Promotes p.warnings (·.1.warnings) (readLine (setting.counting false) file l p)
      (readLine (setting.counting true) file l p) := by
  unfold readLine
  refine .bind (promotes_check p (severe_lineTokens l)) fun raw => .ite (.ok rfl) ?_
  refine .bind (promotes_warnAll p (severity_of_constantAdvice _ raw)) fun p₁ => ?_
  exact promotes_readTokens l _ p₁

/-! ### Sources -/

/-- The two read an included source up to the first warning alike. -/
def Includer.Promotes (lenient strict : Includer) : Prop :=
  ∀ line span d p, Language.Promotes p.warnings Progress.warnings (lenient line span d p)
    (strict line span d p)

variable {lenient strict : Includer}

/-- Lines promote one after the other, by induction on them. -/
theorem promotes_readLines (includes : lenient.Promotes strict) (ls : List Source.LogicalLine)
    (p : Progress) :
    Promotes p.warnings Progress.warnings (readLines (setting.counting false) file lenient ls p)
      (readLines (setting.counting true) file strict ls p) := by
  induction ls generalizing p with
  | nil => exact .ok rfl
  | cons l rest ih =>
    refine .bind (promotes_readLine l p) fun answer => ?_
    obtain ⟨p₁, inclusion⟩ := answer
    cases inclusion with
    | none => exact ih p₁
    | some i => exact .bind (.foldlM i.sources (fun d p => includes _ _ d p) p₁) fun p₂ => ih p₂

theorem promotes_readContent (includes : lenient.Promotes strict) (content : String)
    (p : Progress) :
    Promotes p.warnings Progress.warnings
      (readContent (setting.counting false) file lenient content p)
      (readContent (setting.counting true) file strict content p) := by
  unfold readContent
  split
  · exact promotes_readLines includes _ p
  · exact .error rfl

/-- Sources promote however deep the includes go, by induction on the depth. -/
theorem promotes_readSource (depth : Nat) (opened : List (Option String)) (content : String)
    (p : Progress) :
    Promotes p.warnings Progress.warnings
      (readSource (setting.counting false) depth opened file content p)
      (readSource (setting.counting true) depth opened file content p) := by
  induction depth generalizing opened file content p with
  | zero => exact promotes_readContent (fun _ _ _ _ => .error rfl) content p
  | succ depth ih =>
    refine promotes_readContent (fun _ _ d p => .ite (.error rfl) ?_) content p
    exact ih _ _ p

theorem severe_checkAllClosed (s : Session) :
    Yields s.checkAllClosed (fun _ => True) (·.severity = .error) := by
  unfold Session.checkAllClosed
  split
  · exact .ok trivial
  · exact .error rfl

theorem promotes_interpret (s : Session) (name : Option String) (source : String) :
    Promotes [] Parsed.warnings (interpret (setting.counting false) s name source)
      (interpret (setting.counting true) s name source) := by
  refine .bind (promotes_readSource _ _ source { session := s }) fun p => ?_
  have severe := severe_checkAllClosed p.session
  generalize p.session.checkAllClosed = closed at severe
  cases severe with
  | ok => exact .ok rfl
  | error severe => exact .error severe

/-! ### Readings -/

/-- An error, and after it warnings alone. -/
def Headed (f : Failure) : Prop :=
  ∃ d ws, f.diagnostics = d :: ws ∧ d.severity = .error ∧ ∀ w ∈ ws, w.severity = .warning

/-- What a reading comes to where warnings count as errors, by what it comes to where they
do not: the same without warnings, and the first warning as the one error otherwise. -/
structure Promoted (lenient strict : Except Failure Parsed) : Prop where
  clean : ∀ w, lenient = .ok { workspace := w, warnings := [] } →
    strict = .ok { workspace := w, warnings := [] }
  failed : ∀ d, lenient = .error ⟨[d]⟩ → strict = .error ⟨[d]⟩
  warned : ∀ w v vs, lenient = .ok { workspace := w, warnings := v :: vs } →
    strict = .error ⟨[{ v with severity := .error }]⟩
  broken : ∀ d v vs, lenient = .error ⟨d :: v :: vs⟩ →
    strict = .error ⟨[{ v with severity := .error }]⟩

section Results

variable {x y : Except Failure Parsed} (promotes : Promotes [] Parsed.warnings x y)
include promotes

/-- From the start, where there are no warnings yet, to promote covers all cases of both
readings. -/
theorem promoted_of_promotes : Promoted x y := by
  have counted := promotes.counted rfl
  constructor
  · rintro w rfl
    cases counted with
    | quiet => rfl
    | warned _ _ _ warnings => cases warnings
  · rintro d rfl
    cases counted with
    | failed => rfl
  · rintro w v vs rfl
    cases counted with
    | quiet _ none => cases none
    | warned _ _ _ warnings =>
      cases warnings
      rfl
  · rintro d v vs rfl
    cases counted with
    | broken => rfl

/-- What the lenient reading fails with is headed by its error. -/
theorem headed_of_lenient (f : Failure) (failed : x = .error f) : Headed f := by
  have keeps := promotes.keeps
  rw [failed] at keeps
  cases keeps with
  | error after =>
    obtain ⟨d, all, own, severe, vs, none_before, warnings⟩ := after
    rw [List.nil_append] at none_before
    rw [← none_before] at warnings
    exact ⟨d, all, own, severe, warnings⟩

/-- What the strict reading fails with is headed by its error. -/
theorem headed_of_strict (f : Failure) (failed : y = .error f) : Headed f := by
  cases promotes.counted rfl with
  | quiet => cases failed
  | failed d =>
    obtain rfl := Except.error.inj failed
    exact headed_of_lenient promotes _ rfl
  | warned | broken =>
    obtain rfl := Except.error.inj failed
    exact ⟨_, [], rfl, rfl, List.forall_mem_nil _⟩

end Results

/-- Every failure of a reading is an error with warnings after it. -/
theorem headed_interpret (setting : Setting) (s : Session) (name : Option String)
    (source : String) (f : Failure) (failed : interpret setting s name source = .error f) :
    Headed f := by
  have promotes : Promotes [] Parsed.warnings (interpret (setting.counting false) s name source)
    (interpret (setting.counting true) s name source) := promotes_interpret s name source
  have own : setting = setting.counting setting.options.warningsAsErrors := rfl
  rw [own] at failed
  cases strict : setting.options.warningsAsErrors with
  | false =>
    rw [strict] at failed
    exact headed_of_lenient promotes f failed
  | true =>
    rw [strict] at failed
    exact headed_of_strict promotes f failed

/-- **Counting warnings as errors changes nothing but where a reading stops**: a reading
without warnings ends the same, and any other with its first warning as the one error, on
top of every session and from the start.  However warnings count, a reading that fails does
so with one error, and what else it tells of are warnings. -/
theorem promoted_warnings (setting : Setting) (name : Option String) (source : String) :
    (∀ s, Promoted (interpret (setting.counting false) s name source)
        (interpret (setting.counting true) s name source)) ∧
      Promoted (parse (setting.counting false) name source)
        (parse (setting.counting true) name source) ∧
      (∀ s f, interpret setting s name source = .error f → Headed f) ∧
      ∀ f, parse setting name source = .error f → Headed f := by
  have both : ∀ s, Promoted (interpret (setting.counting false) s name source)
      (interpret (setting.counting true) s name source) :=
    fun s => promoted_of_promotes (promotes_interpret s name source)
  refine ⟨both, both (.start setting.options), ?_, ?_⟩
  · intro s f failed
    exact headed_interpret setting s name source f failed
  · intro f failed
    exact headed_interpret setting _ name source f failed

/-- A source with a warning: the constant in the title is not defined. -/
def draftSource : String :=
  "workspace \"Draft $\x7bnumber\x7d\" \x7b\n\x7d\n"

/-- The draft is read with one warning, and not at all where warnings count as errors. -/
theorem promotion_of_draft :
    ∃ w v, parse (Setting.counting {} false) none draftSource =
        .ok { workspace := w, warnings := [v] } ∧
      parse (Setting.counting {} true) none draftSource =
        .error ⟨[{ v with severity := .error }]⟩ := by
  have read : (parse (Setting.counting {} false) none draftSource).toOption.map
      (·.warnings.length) = some 1 := by
    decide +kernel
  obtain ⟨⟨w, warnings⟩, answer, one⟩ := toOption_map_eq_some.mp read
  obtain ⟨v, rfl⟩ := List.length_eq_one_iff.mp one
  obtain ⟨-, promoted, -⟩ := promoted_warnings {} none draftSource
  exact ⟨w, v, answer, promoted.warned w v [] answer⟩

end Language

end Edifice
