import Edifice.Proofs.Language.Bracketing
import Edifice.Proofs.Language.Inclusion

/-!
The lines that a source spells.

What a source spells can be told from the sources alone: its lines with tokens, in each the
constants put in that the lines before it define, and after an include the lines of the
sources that it brings in, which may include others (`Spells`).  Where each of these lines
stands can be told as well (`Unfolds`).  A source spells one list of lines at most, and a
reading that succeeds advances the lines that its source spells, one after the other
(`passes_interpret`).
-/

namespace Edifice

open Check

/-- All sources that the resolver gives have the property. -/
def Resolver.Gives (r : Resolver) (P : Document → Prop) : Prop :=
  ∀ path origin, Check.Gives (r.sources path origin) fun ds => ∀ d ∈ ds, P d

/-- Sources at hand are given under their own names, the first of each name. -/
theorem Resolver.gives_inMemory (available : List Document) :
    (inMemory available).Gives fun d => available.find? (fun e => e.name == d.name) = some d := by
  intro path origin
  unfold inMemory
  dsimp only
  split
  case h_1 d found =>
    have named := List.find?_some found
    obtain rfl : d.name = path := beq_iff_eq.mp named
    exact .ok (List.forall_mem_singleton.mpr found)
  case h_2 => exact .error

namespace Language

variable {setting : Setting} {s s' : Session} {ts : Tokens} {file : Option String}
  {p p' : Progress} {inclusion : Option Inclusion}

/-! ### What a line does -/

/-- Only an include brings something in. -/
theorem executeDirective_plain (plain : ∀ path, ¬ IsInclude ts path)
    (directive : isDirective ts = true) :
    Gives (executeDirective setting s ts file) fun answer => answer.2 = none := by
  unfold executeDirective
  split
  case h_3 keyword => exact absurd ⟨directive, keyword, rfl⟩ (plain (ts.text 1))
  case h_7 => exact .error
  all_goals exact .after fun _ => .ok rfl

/-- A directive defines a constant or leaves the constants alone. -/
theorem constants_executeDirective (directive : isDirective ts = true) :
    Gives (executeDirective setting s ts file) fun answer =>
      answer.1.constants = constantsAfter s.constants ts := by
  have defines : Gives (executeConstant s ts) fun s' =>
      s'.constants = s.constants.insert (ts.text 1) (ts.text 2) :=
    .after fun _ => .unless (.ok rfl)
  have decisions : Gives (executeDecisions setting s ts file) fun s' =>
      s'.constants = s.constants := by
    refine .after fun _ => .after fun _ => .unless (.after fun _ => .after fun _ s' built => ?_)
    obtain ⟨b, -, rfl⟩ := Session.build_eq_ok.mp built
    rfl
  have identifiers : Gives (executeIdentifiers s ts) fun s' => s'.constants = s.constants := by
    refine .after fun _ => .after fun _ => .after fun mode => ?_
    split
    · exact .ok rfl
    · exact .error
  have implied : Gives (executeImplied s ts) fun s' => s'.constants = s.constants :=
    .after fun _ => .after fun _ => .after fun enabled => .ok rfl
  unfold constantsAfter definesConstant executeDirective
  split
  case h_1 named | h_2 named =>
    exact .bind defines fun _ constants => .ok (by simpa [directive, named] using constants)
  case h_3 named => exact .after fun _ => .ok (by simp [named])
  case h_4 named => exact .bind decisions fun _ same => .ok (by simpa [named] using same)
  case h_5 named => exact .bind identifiers fun _ same => .ok (by simpa [named] using same)
  case h_6 named => exact .bind implied fun _ same => .ok (by simpa [named] using same)
  case h_7 => exact .error

/-- A line that includes no source brings nothing in. -/
theorem Session.Performs.plain (plain : ∀ path, ¬ IsInclude ts path)
    (performs : s.Performs setting file ts (s', inclusion)) : inclusion = none := by
  cases performs with
  | closes _ _ | runs _ _ _ => rfl
  | directs _ directive executed => exact executeDirective_plain plain directive _ executed

/-- A line includes sources that the resolver gives. -/
theorem sources_readLine {P : Document → Prop} (given : setting.resolver.Gives P)
    (l : Source.LogicalLine) :
    Gives (readLine setting file l p) fun answer => ∀ i ∈ answer.2, ∀ d ∈ i.sources, P d := by
  rintro ⟨p', inclusion⟩ read i rfl
  obtain ⟨raw, -, ⟨-, same⟩ | ⟨-, p₁, -, tokens⟩⟩ := readLine_eq_ok read
  · cases same
  have performs := (performs_readTokens l _ _ tokens).2
  by_cases plain : ∀ path, ¬ IsInclude (substituteTokens p.session.constants raw) path
  · cases performs.plain plain
  rw [not_forall_not] at plain
  obtain ⟨path, includes⟩ := plain
  cases performs with
  | directs _ _ executed =>
    obtain ⟨-, i', own, found⟩ := executeDirective_include includes _ executed
    obtain rfl := Option.some.inj own
    exact given path file _ found

/-- The constants after a line can be told from the line. -/
theorem Session.Performs.constants (performs : s.Performs setting file ts (s', inclusion)) :
    s'.constants = constantsAfter s.constants ts := by
  cases performs with
  | closes closing closed =>
    rw [constantsAfter_of_closes closing]
    exact (takes_closeBlock closing s' closed).2
  | directs _ directive executed => exact constants_executeDirective directive _ executed
  | runs other statement ran =>
    rw [constantsAfter_of_statement statement]
    exact (takes_runStatement other statement _ s' ran).2

/-! ### Lines of sources -/

abbrev PlacedLine := Option String × Source.LogicalLine

def linesOf : List Document → Except Source.PhysicalLine (List PlacedLine)
  | [] => .ok []
  | d :: rest => do
    let ls ← Source.logicalLines d.content
    let others ← linesOf rest
    return ls.map (some d.name, ·) ++ others

/-- The lines spell `spelled`, where the constants are defined. -/
inductive Spells (setting : Setting) :
    List PlacedLine → Dictionary String → List Tokens → Prop where
  | nil (constants : Dictionary String) : Spells setting [] constants []
  | blank {l : PlacedLine} {rest : List PlacedLine} {constants : Dictionary String}
      {spelled : List Tokens} (empty : lineTokens l.2 = .ok [])
      (later : Spells setting rest constants spelled) :
      Spells setting (l :: rest) constants spelled
  | plain {l : PlacedLine} {rest : List PlacedLine} {constants : Dictionary String} {raw : Tokens}
      {spelled : List Tokens} (lexed : lineTokens l.2 = .ok raw) (words : raw ≠ [])
      (plain : ∀ path, ¬ IsInclude (substituteTokens constants raw) path)
      (later : Spells setting rest (constantsAfter constants (substituteTokens constants raw))
        spelled) :
      Spells setting (l :: rest) constants (substituteTokens constants raw :: spelled)
  /-- An include, and in its place what it brings in. -/
  | includes {l : PlacedLine} {rest included : List PlacedLine} {constants : Dictionary String}
      {raw : Tokens} {spelled : List Tokens} {path : String} {sources : List Document}
      (lexed : lineTokens l.2 = .ok raw) (words : raw ≠ [])
      (includes : IsInclude (substituteTokens constants raw) path)
      (found : setting.resolver.sources path l.1 = .ok sources)
      (lines : linesOf sources = .ok included)
      (later : Spells setting (included ++ rest) constants spelled) :
      Spells setting (l :: rest) constants (substituteTokens constants raw :: spelled)

theorem IsInclude.path_eq {path path' : String} (includes : IsInclude ts path)
    (includes' : IsInclude ts path') : path = path' :=
  includes.path.symm.trans includes'.path

/-- A line that is executed: where it stands, and its tokens with the constants put in. -/
structure ExecutedLine where
  place : PlacedLine
  tokens : Tokens

/-- The lines spell `executed`, where the constants are defined, and each line that they spell
stands where it says. -/
inductive Unfolds (setting : Setting) :
    List PlacedLine → Dictionary String → List ExecutedLine → Prop where
  | nil (constants : Dictionary String) : Unfolds setting [] constants []
  | blank {l : PlacedLine} {rest : List PlacedLine} {constants : Dictionary String}
      {executed : List ExecutedLine} (empty : lineTokens l.2 = .ok [])
      (later : Unfolds setting rest constants executed) :
      Unfolds setting (l :: rest) constants executed
  | plain {l : PlacedLine} {rest : List PlacedLine} {constants : Dictionary String} {raw : Tokens}
      {executed : List ExecutedLine} (lexed : lineTokens l.2 = .ok raw) (words : raw ≠ [])
      (plain : ∀ path, ¬ IsInclude (substituteTokens constants raw) path)
      (later : Unfolds setting rest (constantsAfter constants (substituteTokens constants raw))
        executed) :
      Unfolds setting (l :: rest) constants (⟨l, substituteTokens constants raw⟩ :: executed)
  /-- An include, and in its place what it brings in. -/
  | includes {l : PlacedLine} {rest included : List PlacedLine} {constants : Dictionary String}
      {raw : Tokens} {executed : List ExecutedLine} {path : String} {sources : List Document}
      (lexed : lineTokens l.2 = .ok raw) (words : raw ≠ [])
      (includes : IsInclude (substituteTokens constants raw) path)
      (found : setting.resolver.sources path l.1 = .ok sources)
      (lines : linesOf sources = .ok included)
      (later : Unfolds setting (included ++ rest) constants executed) :
      Unfolds setting (l :: rest) constants (⟨l, substituteTokens constants raw⟩ :: executed)

section Unfolds

variable {lines : List PlacedLine} {constants : Dictionary String}

/-- What lines unfold into they spell, if one forgets where each line stands. -/
theorem Unfolds.spells {executed : List ExecutedLine}
    (unfolds : Unfolds setting lines constants executed) :
    Spells setting lines constants (executed.map (·.tokens)) := by
  induction unfolds with
  | nil => exact .nil _
  | blank empty _ ih => exact .blank empty ih
  | plain lexed words plain _ ih => exact .plain lexed words plain ih
  | includes lexed words includes found lines _ ih =>
    exact .includes lexed words includes found lines ih

/-- What lines spell comes from places of their own, by induction on the spelling. -/
theorem Spells.unfolds {spelled : List Tokens} (spells : Spells setting lines constants spelled) :
    ∃ executed, Unfolds setting lines constants executed ∧ executed.map (·.tokens) = spelled := by
  induction spells with
  | nil => exact ⟨[], .nil _, rfl⟩
  | blank empty _ ih =>
    obtain ⟨executed, unfolds, same⟩ := ih
    exact ⟨executed, .blank empty unfolds, same⟩
  | plain lexed words plain _ ih =>
    obtain ⟨executed, unfolds, same⟩ := ih
    exact ⟨_, .plain lexed words plain unfolds, by simp [same]⟩
  | includes lexed words includes found lines _ ih =>
    obtain ⟨executed, unfolds, same⟩ := ih
    exact ⟨_, .includes lexed words includes found lines unfolds, by simp [same]⟩

/-- What lines unfold into is determined. -/
theorem Unfolds.unique {executed executed' : List ExecutedLine}
    (unfolds : Unfolds setting lines constants executed)
    (unfolds' : Unfolds setting lines constants executed') : executed' = executed := by
  induction unfolds generalizing executed' with
  | nil =>
    cases unfolds'
    rfl
  | blank empty _ ih =>
    cases unfolds' with
    | blank _ later => exact ih later
    | plain lexed words | includes lexed words =>
      exact absurd (Except.ok.inj (lexed.symm.trans empty)) words
  | plain lexed words plain _ ih =>
    cases unfolds' with
    | blank empty => exact absurd (Except.ok.inj (lexed.symm.trans empty)) words
    | plain lexed' _ _ later =>
      obtain rfl := Except.ok.inj (lexed'.symm.trans lexed)
      rw [ih later]
    | includes lexed' _ includes =>
      obtain rfl := Except.ok.inj (lexed'.symm.trans lexed)
      exact absurd includes (plain _)
  | includes lexed words includes found lines _ ih =>
    cases unfolds' with
    | blank empty => exact absurd (Except.ok.inj (lexed.symm.trans empty)) words
    | plain lexed' _ plain =>
      obtain rfl := Except.ok.inj (lexed'.symm.trans lexed)
      exact absurd includes (plain _)
    | includes lexed' _ includes' found' lines' later =>
      obtain rfl := Except.ok.inj (lexed'.symm.trans lexed)
      obtain rfl := includes'.path_eq includes
      obtain rfl := Except.ok.inj (found'.symm.trans found)
      obtain rfl := Except.ok.inj (lines'.symm.trans lines)
      rw [ih later]

/-- What lines spell is determined. -/
theorem Spells.unique {spelled spelled' : List Tokens}
    (spells : Spells setting lines constants spelled)
    (spells' : Spells setting lines constants spelled') : spelled' = spelled := by
  obtain ⟨executed, unfolds, rfl⟩ := spells.unfolds
  obtain ⟨executed', unfolds', rfl⟩ := spells'.unfolds
  rw [unfolds.unique unfolds']

end Unfolds

/-- The source, known by `name` if it has one, spells `spelled`. -/
def Writes (setting : Setting) (name : Option String) (source : String)
    (spelled : List Tokens) : Prop :=
  ∃ ls, Source.logicalLines source = .ok ls ∧ Spells setting (ls.map (name, ·)) {} spelled

/-- A source spells one list of lines at most. -/
theorem Writes.unique {name : Option String} {source : String} {spelled spelled' : List Tokens}
    (writes : Writes setting name source spelled) (writes' : Writes setting name source spelled') :
    spelled' = spelled := by
  obtain ⟨ls, lines, spells⟩ := writes
  obtain ⟨ls', lines', spells'⟩ := writes'
  obtain rfl := Except.ok.inj (lines'.symm.trans lines)
  exact spells.unique spells'

/-! ### Readings -/

/-- Executing lines one after the other leads from `s` to `s'`. -/
inductive Session.Passes (setting : Setting) : Session → List Tokens → Session → Prop where
  | nil (s : Session) : Passes setting s [] s
  | cons {s s₁ s' : Session} {ts : Tokens} {rest : List Tokens} (first : s.Advances setting ts s₁)
      (later : Passes setting s₁ rest s') : Passes setting s (ts :: rest) s'

def Session.AdvancesAt (setting : Setting) (s : Session) (e : ExecutedLine) (s' : Session) : Prop :=
  ∃ line p p' inclusion, readTokens setting e.place.1 e.place.2 line e.tokens p =
    .ok (p', inclusion) ∧ p.session = s ∧ p'.session = s'

/-- Executing lines one after the other, each where it stands, leads from `s` to `s'`. -/
inductive Session.PassesAt (setting : Setting) : Session → List ExecutedLine → Session → Prop where
  | nil (s : Session) : PassesAt setting s [] s
  | cons {s s₁ s' : Session} {e : ExecutedLine} {rest : List ExecutedLine}
      (first : s.AdvancesAt setting e s₁) (later : PassesAt setting s₁ rest s') :
      PassesAt setting s (e :: rest) s'

theorem Session.PassesAt.append {s₁ : Session} {lines lines' : List ExecutedLine}
    (first : s.PassesAt setting lines s₁) (later : s₁.PassesAt setting lines' s') :
    s.PassesAt setting (lines ++ lines') s' := by
  induction first with
  | nil => exact later
  | cons advances _ ih => exact .cons advances (ih later)

theorem Session.PassesAt.passes {lines : List ExecutedLine} (passes : s.PassesAt setting lines s') :
    s.Passes setting (lines.map (·.tokens)) s' := by
  induction passes with
  | nil => exact .nil _
  | @cons _ _ _ e _ advances _ ih =>
    obtain ⟨line, p, p', inclusion, read, before, after⟩ := advances
    exact .cons ⟨e.place.1, e.place.2, line, p, p', inclusion, read, before, after⟩ ih

/-- The lines, read from `s` to `s'`, execute `executed`, and unfold into it before whatever
lines follow. -/
structure Recites (setting : Setting) (s : Session) (lines : List PlacedLine)
    (executed : List ExecutedLine) (s' : Session) : Prop where
  passes : s.PassesAt setting executed s'
  unfolds : ∀ rest later, Unfolds setting rest s'.constants later →
    Unfolds setting (lines ++ rest) s.constants (executed ++ later)

theorem Recites.nil (s : Session) : Recites setting s [] [] s :=
  ⟨.nil s, fun _ _ => id⟩

/-- Recitals follow one another, as constants of the first hold in the second. -/
theorem Recites.append {s₁ : Session} {lines lines' : List PlacedLine}
    {executed executed' : List ExecutedLine} (first : Recites setting s lines executed s₁)
    (then_ : Recites setting s₁ lines' executed' s') :
    Recites setting s (lines ++ lines') (executed ++ executed') s' where
  passes := first.passes.append then_.passes
  unfolds rest later follow := by
    rw [List.append_assoc, List.append_assoc]
    exact first.unfolds _ _ (then_.unfolds rest later follow)

/-- Reading the sources one after the other, each with all that it includes, recites their
lines. -/
def Includer.Recites (setting : Setting) (includer : Includer) : Prop :=
  ∀ line span d p, Gives (includer line span d p) fun p' =>
    ∃ ls executed, Source.logicalLines d.content = .ok ls ∧
      Language.Recites setting p.session (ls.map (some d.name, ·)) executed p'.session

variable {includer : Includer}

/-- The sources of an include are recited one after the other. -/
theorem recites_sources (recites : includer.Recites setting) (line : SourceLine) (span : Span)
    (ds : List Document) :
    Gives (ds.foldlM (fun p d => includer line span d p) p) fun p' =>
      ∃ lines executed, linesOf ds = .ok lines ∧
        Recites setting p.session lines executed p'.session := by
  induction ds generalizing p with
  | nil => exact .ok ⟨[], [], rfl, .nil _⟩
  | cons d rest ih =>
    intro p' read
    rw [List.foldlM_cons] at read
    obtain ⟨p₁, first, later⟩ := bind_eq_ok.mp read
    obtain ⟨ls, executed, lines, recited⟩ := recites line span d p p₁ first
    obtain ⟨others, executed', lines', recited'⟩ := ih p' later
    refine ⟨_, _, ?_, recited.append recited'⟩
    rw [linesOf, lines, lines']
    rfl

/-- Reading lines, and in the place of each what it includes, recites them. -/
theorem recites_readLines (recites : includer.Recites setting) (ls : List Source.LogicalLine) :
    Gives (readLines setting file includer ls p) fun p' =>
      ∃ executed, Recites setting p.session (ls.map (file, ·)) executed p'.session := by
  induction ls generalizing p with
  | nil => exact .ok ⟨[], .nil _⟩
  | cons l rest ih =>
    intro p' read
    obtain ⟨⟨p₁, inclusion⟩, first, later⟩ := bind_eq_ok.mp read
    obtain ⟨raw, lexed, ⟨rfl, same⟩ | ⟨words, p₀, session, tokens⟩⟩ := readLine_eq_ok first
    · obtain ⟨rfl, rfl⟩ := Prod.mk.inj same
      obtain ⟨executed, recited⟩ := ih p' later
      exact ⟨executed, recited.passes, fun rest later follow =>
        .blank lexed (recited.unfolds rest later follow)⟩
    · have advances : p.session.AdvancesAt setting
          ⟨(file, l), substituteTokens p.session.constants raw⟩ p₁.session :=
        ⟨_, p₀, p₁, inclusion, tokens, session, rfl⟩
      have performs := (performs_readTokens l _ _ tokens).2
      have constants := performs.constants
      rw [session] at constants
      by_cases plain : ∀ path, ¬ IsInclude (substituteTokens p.session.constants raw) path
      · obtain rfl : inclusion = none := performs.plain plain
        obtain ⟨executed, recited⟩ := ih p' later
        refine ⟨_, .cons advances recited.passes, fun rest later follow => ?_⟩
        have further := recited.unfolds rest later follow
        rw [constants] at further
        exact .plain lexed words plain further
      · rw [not_forall_not] at plain
        obtain ⟨path, includes⟩ := plain
        obtain ⟨unchanged, i, own, found⟩ := readLine_include lexed includes _ first
        obtain rfl : inclusion = some i := own
        obtain ⟨p₂, included, later⟩ := bind_eq_ok.mp later
        obtain ⟨executed, recited⟩ := ih p' later
        obtain ⟨lines, inner, of_sources, inside⟩ :=
          recites_sources recites _ _ i.sources p₂ included
        have whole := inside.append recited
        refine ⟨_, .cons advances whole.passes, fun rest later follow => ?_⟩
        have further := whole.unfolds rest later follow
        rw [show p₁.session = p.session from unchanged, List.append_assoc] at further
        exact .includes lexed words includes found of_sources further

theorem recites_readContent (recites : includer.Recites setting) (content : String) :
    Gives (readContent setting file includer content p) fun p' =>
      ∃ ls executed, Source.logicalLines content = .ok ls ∧
        Recites setting p.session (ls.map (file, ·)) executed p'.session := by
  intro p' read
  obtain ⟨ls, lines, read⟩ := readContent_eq_ok.mp read
  obtain ⟨executed, recited⟩ := recites_readLines recites ls p' read
  exact ⟨ls, executed, lines, recited⟩

/-- Reading a source recites its lines, however deep the includes go. -/
theorem recites_readSource (depth : Nat) (opened : List (Option String)) (content : String) :
    Gives (readSource setting depth opened file content p) fun p' =>
      ∃ ls executed, Source.logicalLines content = .ok ls ∧
        Recites setting p.session (ls.map (file, ·)) executed p'.session := by
  induction depth generalizing opened file content p with
  | zero =>
    rw [readSource_eq]
    exact recites_readContent (fun _ _ _ _ => .error) content
  | succ depth ih =>
    rw [readSource_eq]
    exact recites_readContent (fun _ _ _ _ => .ite .error (ih _ _)) content

/-- A reading that succeeds advances the lines that its source spells, until no block is
open any more. -/
theorem passes_interpret (fresh : s.Fresh) (name : Option String) (source : String) :
    Gives (interpret setting s name source) fun parsed =>
      ∃ spelled s', Writes setting name source spelled ∧ s.Passes setting spelled s' ∧
        s'.frames = [] ∧ parsed.workspace = s'.builder.finish := by
  intro parsed read
  obtain ⟨p, reading, rest⟩ := bind_eq_ok.mp read
  obtain ⟨ls, executed, lines, recited⟩ := recites_readSource _ _ source p reading
  have unfolds := recited.unfolds [] [] (.nil _)
  rw [List.append_nil, List.append_nil, fresh.constants] at unfolds
  split at rest
  case h_1 closed =>
    obtain rfl := Except.ok.inj rest
    refine ⟨_, p.session, ⟨ls, lines, unfolds.spells⟩, recited.passes.passes, ?_, rfl⟩
    unfold Session.checkAllClosed at closed
    split at closed
    case h_1 empty => exact empty
    case h_2 => cases closed
  case h_2 => cases rest

end Language

end Edifice
