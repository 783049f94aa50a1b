import Edifice.Proofs.Language.Lines
import Mathlib.Data.List.Dedup
import Mathlib.Data.List.Perm.Subperm

/-!
Every reading ends.

Reading a source is followed here step by step, with the lines and sources still to be read
and the names of the sources being read in the open, and with no bound on how deep includes
are nested (`Reading.step`).  A source is not entered while a source of its name is being
read.  So where the resolver knows finitely many names, the names that are not being read
run out: every reading ends, and it ends as the recursive reader says, whose bound on the
depth is never reached (`comes_readSource`).  The names being read stay distinct
(`Kept.step`), so includes are nested no deeper than there are names.
-/

namespace Edifice

open Check

namespace Language

/-! ### Readings step by step -/

/-- Something that a reading still has to do. -/
inductive Task where
  /-- Read a line of the source `file`. -/
  | line (file : Option String) (l : Source.LogicalLine)
  /-- Include a source that a line names, unless it is being read. -/
  | inclusion (line : SourceLine) (span : Span) (d : Document)
  /-- Read a source. -/
  | source (file : Option String) (content : String)
  /-- Leave the innermost source, which has been read to its end. -/
  | leave
deriving DecidableEq, Repr

structure Reading where
  /-- What it still has to do, in this order. -/
  tasks : List Task
  /-- The names of the sources that are being read, innermost first. -/
  opened : List (Option String) := []
  progress : Progress
deriving DecidableEq, Repr

/-- What a step of a reading comes to. -/
inductive Turn where
  | goes (r : Reading)
  | ends (answer : Except Failure Progress)
deriving DecidableEq

namespace Reading

/-- The reading of a source on top of a session. -/
def start (s : Session) (name : Option String) (source : String) : Reading :=
  { tasks := [.source name source], progress := { session := s } }

/-- How deep includes are nested: the sources being read below the first one. -/
def nesting (r : Reading) : Nat :=
  r.opened.length - 1

/-- One step of a reading. -/
def step (setting : Setting) (r : Reading) : Turn :=
  match r.tasks with
  | [] => .ends (.ok r.progress)
  | .line file l :: rest =>
    match readLine setting file l r.progress with
    | .ok (progress, none) => .goes { r with tasks := rest, progress }
    | .ok (progress, some i) =>
      .goes { r with
        tasks := i.sources.map (.inclusion (sourceLine file l) i.span) ++ rest, progress }
    | .error f => .ends (.error f)
  | .inclusion line span d :: rest =>
    if r.opened.contains (some d.name) then
      .ends (.error (includeCycle line span d r.progress))
    else .goes { r with tasks := .source (some d.name) d.content :: rest }
  | .source file content :: rest =>
    match Source.logicalLines content with
    | .ok ls =>
      .goes { r with tasks := ls.map (.line file) ++ .leave :: rest, opened := file :: r.opened }
    | .error opened => .ends (.error (r.progress.failure (unterminatedComment file opened)))
  | .leave :: rest => .goes { r with tasks := rest, opened := r.opened.tail }

/-- Steps lead from one reading to another. -/
abbrev Reaches (setting : Setting) : Reading → Reading → Prop :=
  Relation.ReflTransGen fun r r' => r.step setting = .goes r'

/-- The reading ends after finitely many steps, with what was read or with a failure. -/
def Ends (setting : Setting) (r : Reading) (answer : Except Failure Progress) : Prop :=
  ∃ r', r.Reaches setting r' ∧ r'.step setting = .ends answer

end Reading

namespace Reading

variable {setting : Setting} {r r' r'' : Reading} {answer answer' : Except Failure Progress}

theorem Ends.of_reaches (reaches : r.Reaches setting r') (ends : r'.Ends setting answer) :
    r.Ends setting answer := by
  obtain ⟨last, later, stops⟩ := ends
  exact ⟨last, reaches.trans later, stops⟩

/-- Every step is determined, so a reading goes through all that can be reached from it. -/
theorem Reaches.ends (reaches : r.Reaches setting r') (ends : r.Ends setting answer) :
    r'.Ends setting answer := by
  induction reaches with
  | refl => exact ends
  | tail _ goes ih =>
    obtain ⟨last, later, stops⟩ := ih
    rcases later.cases_head with rfl | ⟨next, goes', later⟩
    · cases goes.symm.trans stops
    · cases goes.symm.trans goes'
      exact ⟨last, later, stops⟩

/-- A reading has one end, as each of its steps is determined. -/
theorem Ends.unique (ends : r.Ends setting answer) (ends' : r.Ends setting answer') :
    answer' = answer := by
  obtain ⟨last, reaches, stops⟩ := ends
  obtain ⟨last', reaches', stops'⟩ := reaches.ends ends'
  rcases reaches'.cases_head with rfl | ⟨next, goes, -⟩
  · cases stops.symm.trans stops'
    rfl
  · cases goes.symm.trans stops

/-! ### Where a part of a reading comes to -/

/-- The reading comes to where `next` says what `x` answers leads, or fails as `x` does. -/
def Comes (setting : Setting) (r : Reading) (next : Progress → Reading) :
    Except Failure Progress → Prop
  | .ok p => r.Reaches setting (next p)
  | .error f => r.Ends setting (.error f)

variable {next next' : Progress → Reading} {x : Except Failure Progress}

theorem Comes.step (goes : r.step setting = .goes r') (comes : r'.Comes setting next x) :
    r.Comes setting next x := by
  cases x with
  | ok p => exact .head goes comes
  | error f => exact .of_reaches (.single goes) comes

/-- What is read in two parts is reached through what the first one comes to. -/
theorem Comes.bind {f : Progress → Except Failure Progress} (first : r.Comes setting next x)
    (later : ∀ p, (next p).Comes setting next' (f p)) : r.Comes setting next' (x >>= f) := by
  cases x with
  | error e => exact first
  | ok p =>
    have further := later p
    rw [ok_bind]
    cases answer : f p with
    | ok p' =>
      rw [answer] at further
      exact Relation.ReflTransGen.trans first further
    | error e =>
      rw [answer] at further
      exact .of_reaches first further

end Reading

/-! ### Following the reader -/

section Following

open Reading

variable {setting : Setting} {names : List String} {opened : List (Option String)}
  {file : Option String} {includer : Includer}

/-- Where a source of `names` is to be included, the reading does as the includer says. -/
def Includer.Follows (includer : Includer) (setting : Setting) (names : List String)
    (opened : List (Option String)) : Prop :=
  ∀ (line : SourceLine) (span : Span) (d : Document) (p : Progress) (rest : List Task),
    d.name ∈ names →
      Comes setting ⟨.inclusion line span d :: rest, opened, p⟩ (⟨rest, opened, ·⟩)
        (includer line span d p)

/-- The sources of one include are read one after the other, before what follows the include.
-/
theorem comes_sources (follows : includer.Follows setting names opened) (line : SourceLine)
    (span : Span) (ds : List Document) (known : ∀ d ∈ ds, d.name ∈ names) (rest : List Task)
    (p : Progress) :
    Comes setting ⟨ds.map (.inclusion line span) ++ rest, opened, p⟩ (⟨rest, opened, ·⟩)
      (ds.foldlM (fun p d => includer line span d p) p) := by
  induction ds generalizing p with
  | nil => exact .refl
  | cons d others ih =>
    rw [List.forall_mem_cons] at known
    rw [List.foldlM_cons]
    exact .bind (follows line span d p _ known.1) (ih known.2)

/-- By the recursion of the reader: lines, and in the place of each what it includes. -/
theorem comes_readLines (known : setting.resolver.Gives (·.name ∈ names))
    (follows : includer.Follows setting names opened) (ls : List Source.LogicalLine)
    (rest : List Task) (p : Progress) :
    Comes setting ⟨ls.map (.line file) ++ rest, opened, p⟩ (⟨rest, opened, ·⟩)
      (readLines setting file includer ls p) := by
  induction ls generalizing p with
  | nil => exact .refl
  | cons l others ih =>
    rw [readLines]
    cases read : readLine setting file l p with
    | error f =>
      refine ⟨_, .refl, ?_⟩
      simp only [step, List.map_cons, List.cons_append, read]
    | ok answer =>
      obtain ⟨p₁, inclusion⟩ := answer
      rw [ok_bind]
      cases inclusion with
      | none =>
        have goes : step setting ⟨(l :: others).map (.line file) ++ rest, opened, p⟩ =
            .goes ⟨others.map (.line file) ++ rest, opened, p₁⟩ := by
          simp only [step, List.map_cons, List.cons_append, read]
        exact .step goes (ih p₁)
      | some i =>
        have sources := sources_readLine known l _ read i rfl
        refine .step ?_ (.bind (comes_sources follows _ i.span i.sources sources _ p₁) ih)
        simp only [step, List.map_cons, List.cons_append, read]

/-- The lines of a source are read before what follows it, with its name among those that are
open. -/
theorem comes_readContent (known : setting.resolver.Gives (·.name ∈ names))
    (follows : includer.Follows setting names (file :: opened)) (content : String)
    (rest : List Task) (p : Progress) :
    Comes setting ⟨.source file content :: rest, opened, p⟩ (⟨rest, opened, ·⟩)
      (readContent setting file includer content p) := by
  unfold readContent
  cases lines : Source.logicalLines content with
  | error unclosed =>
    refine ⟨_, .refl, ?_⟩
    simp only [step, lines]
  | ok ls =>
    dsimp only
    rw [← bind_pure (readLines setting file includer ls p)]
    refine .step ?_ (.bind (comes_readLines known follows ls (.leave :: rest) p) fun p' => ?_)
    · simp only [step, lines]
    · exact .single rfl

/-- Those of the names whose sources are not being read. -/
def unopened (names : List String) (opened : List (Option String)) : List String :=
  names.filter fun n => !opened.contains (some n)

theorem mem_unopened {n : String} :
    n ∈ unopened names opened ↔ n ∈ names ∧ opened.contains (some n) = false := by
  rw [unopened, List.mem_filter, Bool.not_eq_true']

/-- To open a source leaves fewer names that are not open. -/
theorem length_unopened_cons {n : String} (known : n ∈ names)
    (closed : opened.contains (some n) = false) :
    (unopened names (some n :: opened)).length < (unopened names opened).length := by
  have fewer : unopened names (some n :: opened) = (unopened names opened).filter (· != n) := by
    unfold unopened
    rw [List.filter_filter]
    apply List.filter_congr
    intro m _
    rw [List.contains_cons, Bool.not_or, Option.some_beq_some, bne]
  rw [fewer, List.length_filter_lt_length_iff_exists]
  exact ⟨n, mem_unopened.mpr ⟨known, closed⟩, by rw [bne_self_eq_false]; decide⟩

/-- Where as many includes may be nested as there are names left, the reading of a source
ends as the reader says. -/
theorem comes_readSource (known : setting.resolver.Gives (·.name ∈ names)) (depth : Nat)
    (far : (unopened names (file :: opened)).length ≤ depth) (content : String)
    (rest : List Task) (p : Progress) :
    Comes setting ⟨.source file content :: rest, opened, p⟩ (⟨rest, opened, ·⟩)
      (readSource setting depth (file :: opened) file content p) := by
  induction depth generalizing file opened content rest p with
  | zero =>
    rw [readSource_eq]
    refine comes_readContent known (fun line span d p rest named => ?_) content rest p
    have none_left : unopened names (file :: opened) = [] := List.length_eq_zero_iff.mp (by omega)
    have cyclic : (file :: opened).contains (some d.name) = true := by
      by_contra acyclic
      have left := mem_unopened.mpr ⟨named, Bool.of_not_eq_true acyclic⟩
      rw [none_left] at left
      cases left
    exact ⟨_, .refl, if_pos cyclic⟩
  | succ depth ih =>
    rw [readSource_eq]
    refine comes_readContent known (fun line span d p rest named => ?_) content rest p
    dsimp only [includerAt]
    by_cases cyclic : (file :: opened).contains (some d.name) = true
    · rw [if_pos cyclic]
      exact ⟨_, .refl, if_pos cyclic⟩
    · rw [if_neg cyclic]
      have fewer := length_unopened_cons named (Bool.of_not_eq_true cyclic)
      have enough := Nat.le_of_lt_succ (Nat.lt_of_lt_of_le fewer far)
      exact .step (if_neg cyclic) (ih enough d.content rest p)

/-- The reading of a source with all that it includes ends, as the reader says. -/
theorem ends_start (known : setting.resolver.Gives (·.name ∈ names))
    (limit : names.length ≤ setting.resolver.limit) (s : Session) (name : Option String)
    (source : String) :
    (start s name source).Ends setting
      (readSource setting setting.resolver.limit [name] name source { session := s }) := by
  have far : (unopened names [name]).length ≤ setting.resolver.limit :=
    Nat.le_trans (List.length_filter_le ..) limit
  have comes := comes_readSource known _ far source [] { session := s }
  cases read : readSource setting setting.resolver.limit [name] name source { session := s } with
  | ok p =>
    rw [read] at comes
    exact ⟨_, comes, rfl⟩
  | error f =>
    rw [read] at comes
    exact comes

end Following

/-! ### The sources that are being read -/

/-- What can wait until something else has been read: a source is read as soon as it is
entered, and a source to be included is one that the resolver has. -/
def Task.Waits (names : List String) : Task → Prop
  | .line .. | .leave => True
  | .inclusion _ _ d => d.name ∈ names
  | .source .. => False

namespace Reading

variable {setting : Setting} {names : List String} {root : Option String} {r r' : Reading}

/-- The names of sources being read: one source of a name at a time, each the first source or
one that the resolver has. -/
structure Opened (names : List String) (root : Option String) (opened : List (Option String)) :
    Prop where
  distinct : opened.Nodup
  known : ∀ name ∈ opened, name = root ∨ name ∈ names.map some

/-- No name is open twice, so that includes are nested no deeper than there are names. -/
theorem Opened.length {opened : List (Option String)} (opens : Opened names root opened) :
    opened.length ≤ names.dedup.length + 1 := by
  have within : opened ⊆ root :: names.dedup.map some := by
    intro name listed
    rcases opens.known name listed with rfl | named
    · exact List.mem_cons_self
    · apply List.mem_cons_of_mem
      rw [List.mem_map] at named ⊢
      simpa only [List.mem_dedup] using named
  have bounded := (List.Nodup.subperm opens.distinct within).length_le
  rwa [List.length_cons, List.length_map] at bounded

inductive Kept (names : List String) (root : Option String) : Reading → Prop where
  | entering {file : Option String} {content : String} {rest : List Task}
    {opened : List (Option String)} {p : Progress} (opens : Opened names root (file :: opened))
    (waits : ∀ t ∈ rest, t.Waits names) : Kept names root ⟨.source file content :: rest, opened, p⟩
  | reading {r : Reading} (opens : Opened names root r.opened)
    (waits : ∀ t ∈ r.tasks, t.Waits names) : Kept names root r

theorem kept_start (s : Session) (source : String) : Kept names root (start s root source) := by
  refine .entering ⟨List.nodup_singleton root, ?_⟩ (List.forall_mem_nil _)
  exact fun name only => .inl (List.mem_singleton.mp only)

/-- A line that is read brings in sources of the resolver, and what it brings in is entered
only if no source of its name is being read. -/
theorem Kept.step (known : setting.resolver.Gives (·.name ∈ names)) (kept : Kept names root r)
    (goes : r.step setting = .goes r') : Kept names root r' := by
  cases kept with
  | entering opens waits =>
    simp only [Reading.step] at goes
    split at goes
    case h_1 ls _ =>
      obtain rfl := Turn.goes.inj goes
      refine .reading opens (List.forall_mem_append.mpr ⟨?_, ?_⟩)
      · exact List.forall_mem_map.mpr fun _ _ => trivial
      · exact List.forall_mem_cons.mpr ⟨trivial, waits⟩
    case h_2 => cases goes
  | reading opens waits =>
    obtain ⟨tasks, opened, p⟩ := r
    dsimp only at opens waits
    match tasks with
    | [] => cases goes
    | .line file l :: rest =>
      have later := (List.forall_mem_cons.mp waits).2
      simp only [Reading.step] at goes
      split at goes
      case h_1 =>
        obtain rfl := Turn.goes.inj goes
        exact .reading opens later
      case h_2 p' i read =>
        obtain rfl := Turn.goes.inj goes
        refine .reading opens (List.forall_mem_append.mpr ⟨?_, later⟩)
        exact List.forall_mem_map.mpr (sources_readLine known l _ read i rfl)
      case h_3 => cases goes
    | .inclusion line span d :: rest =>
      obtain ⟨named, later⟩ := List.forall_mem_cons.mp waits
      simp only [Reading.step] at goes
      split at goes
      case isTrue => cases goes
      case isFalse acyclic =>
        obtain rfl := Turn.goes.inj goes
        rw [List.contains_iff_mem] at acyclic
        refine .entering ⟨List.nodup_cons.mpr ⟨acyclic, opens.distinct⟩, ?_⟩ later
        exact List.forall_mem_cons.mpr ⟨.inr (List.mem_map_of_mem named), opens.known⟩
    | .source file content :: rest => exact (waits _ List.mem_cons_self).elim
    | .leave :: rest =>
      obtain rfl := Turn.goes.inj goes
      refine .reading ⟨opens.distinct.tail, fun name listed => ?_⟩
        (List.forall_mem_cons.mp waits).2
      exact opens.known name (List.mem_of_mem_tail listed)

theorem Kept.reaches (known : setting.resolver.Gives (·.name ∈ names)) (kept : Kept names root r)
    (reaches : r.Reaches setting r') : Kept names root r' := by
  induction reaches with
  | refl => exact kept
  | tail _ goes ih => exact ih.step known goes

theorem Kept.nesting_le (kept : Kept names root r) : r.nesting ≤ names.dedup.length := by
  cases kept with
  | entering opens _ =>
    have bounded := opens.length
    rw [List.length_cons] at bounded
    exact Nat.le_trans (Nat.sub_le ..) (Nat.le_of_succ_le_succ bounded)
  | reading opens _ => exact Nat.sub_le_of_le_add opens.length

/-! ### Includes of sources that are being read -/

/-- The reading failed with an error of this kind. -/
def Fails (code : Code) (f : Failure) : Prop :=
  ∃ d, f.firstError? = some d ∧ d.code = some code

theorem fails_failure {code : Code} {d : Diagnostic} {p : Progress}
    (severe : d.severity = .error) (kind : d.code = some code) : Fails code (p.failure d) := by
  refine ⟨d, ?_, kind⟩
  rw [Failure.firstError?, Progress.failure, List.find?_cons_of_pos]
  rw [severe]
  decide

/-- What the reading does next is to execute the include of a path. -/
structure AtInclude (setting : Setting) (r : Reading) (path : String) : Prop where
  ongoing : r.progress.session.closed = false
  line : ∃ file l rest raw p, r.tasks = .line file l :: rest ∧ lineTokens l = .ok raw ∧
    r.progress.warnAll setting.options.warningsAsErrors (sourceLine file l)
      (constantAdvice r.progress.session.constants raw) = .ok p ∧
    IsInclude (substituteTokens r.progress.session.constants raw) path ∧ raw.length = 2

variable {path : String}

/-- The sources of an include with one path are what the resolver has for it. -/
theorem executeInclude_eq {ts : Tokens} {file : Option String} (includes : IsInclude ts path)
    (single : ts.length = 2) :
    executeInclude setting ts file =
      if setting.options.restricted then .error (refusedDirective ts "include")
      else (resolved ts (setting.resolver.sources path file)).map fun sources =>
        { sources, span := ts.span 1 } := by
  have checked : checkTokens ts 1 1 "!include <file|directory>" = .ok () := by
    rw [checkTokens, single]
    rfl
  rw [executeInclude, checked, ok_bind, includes.path]
  split
  · rfl
  · cases resolved ts (setting.resolver.sources path file) <;> rfl

/-- The line of an include leaves the progress alone: it is answered with what to include, or
refused. -/
theorem readTokens_include {l : Source.LogicalLine} {line : SourceLine} {ts : Tokens}
    {file : Option String} {p : Progress} (ongoing : p.session.closed = false)
    (includes : IsInclude ts path) :
    readTokens setting file l line ts p =
      (p.check line (executeInclude setting ts file)).map fun i => (p, some i) := by
  have other : closesBlock ts = false := by
    rw [Bool.eq_false_iff]
    intro closing
    have keyword := text_of_closesBlock closing
    rw [includes.keyword] at keyword
    exact absurd keyword (by decide)
  have executed : executeDirective setting p.session ts file =
      (executeInclude setting ts file).map fun i => (p.session, some i) := by
    rw [executeDirective, includes.keyword]
    cases executeInclude setting ts file <;> rfl
  unfold readTokens
  simp only [ongoing, other, includes.directive, executed]
  cases executeInclude setting ts file <;> rfl

/-- Executing an include goes on to its sources, or ends the reading. -/
theorem AtInclude.turn (including : r.AtInclude setting path) :
    ∃ file l rest ts p, IsInclude ts path ∧ ts.length = 2 ∧
      r.step setting =
        match executeInclude setting ts file with
        | .ok i => .goes { r with
          tasks := i.sources.map (.inclusion (sourceLine file l) i.span) ++ rest, progress := p }
        | .error d => .ends (.error (p.failure (d.withLine (sourceLine file l)))) := by
  obtain ⟨ongoing, file, l, rest, raw, p, tasks, lexed, warned, includes, single⟩ := including
  have length : (substituteTokens r.progress.session.constants raw).length = 2 := by
    rw [substituteTokens, List.length_map, single]
  have words : ¬ raw.isEmpty = true := by
    rw [List.isEmpty_iff_length_eq_zero, single]
    decide
  have session : p.session = r.progress.session := session_warnAll _ _ p warned
  refine ⟨file, l, rest, _, p, includes, length, ?_⟩
  have read : readLine setting file l r.progress =
      readTokens setting file l (sourceLine file l)
        (substituteTokens r.progress.session.constants raw) p := by
    simp only [readLine, check_eq_ok.mpr lexed, ok_bind, if_neg words, warned]
  rw [readTokens_include (session ▸ ongoing) includes] at read
  unfold Reading.step
  rw [tasks]
  dsimp only
  rw [read]
  cases executeInclude setting _ file <;> rfl

/-- The kind of error that ends the reading where a source is included which is being read.
Where no source at hand has the name, which the first source can still have, there is
nothing to include. -/
def cycleCode (options : Options) (available : List Document) (path : String) : Code :=
  if options.restricted || (available.map (·.name)).contains path then .includeRefused
  else .unreadableInclude

/-- An include of a source that is being read already ends the reading in a failure, whatever
the options and the sources at hand. -/
theorem AtInclude.fails {options : Options} {available : List Document} {colors : ColorReader}
    (including : r.AtInclude { options, resolver := .inMemory available, colors } path)
    (opened : some path ∈ r.opened) :
    ∃ f, r.Ends { options, resolver := .inMemory available, colors } (.error f) ∧
      Fails (cycleCode options available path) f := by
  obtain ⟨file, l, rest, ts, p, includes, single, turn⟩ := including.turn
  rw [executeInclude_eq includes single] at turn
  unfold cycleCode
  by_cases restricted : options.restricted = true
  · rw [if_pos restricted] at turn
    refine ⟨_, ⟨r, .refl, turn⟩, ?_⟩
    rw [restricted]
    exact fails_failure rfl rfl
  rw [if_neg restricted] at turn
  rw [Bool.of_not_eq_true restricted, Bool.false_or]
  cases found : available.find? fun d => d.name == path with
  | none =>
    have missing : ¬ (available.map (·.name)).contains path = true := by
      rw [List.contains_iff_mem, List.mem_map]
      rintro ⟨d, listed, named⟩
      have other := List.find?_eq_none.mp found d listed
      rw [named, beq_self_eq_true] at other
      exact other rfl
    rw [if_neg missing]
    simp only [Resolver.inMemory, found] at turn
    exact ⟨_, ⟨r, .refl, turn⟩, fails_failure rfl rfl⟩
  | some d =>
    have same := List.find?_some found
    have named : d.name = path := beq_iff_eq.mp same
    have listed : (available.map (·.name)).contains path = true := by
      rw [List.contains_iff_mem, ← named]
      exact List.mem_map_of_mem (List.mem_of_find?_eq_some found)
    rw [if_pos listed]
    simp only [Resolver.inMemory, found] at turn
    have cyclic : r.opened.contains (some d.name) = true := by
      rw [List.contains_iff_mem, named]
      exact opened
    exact ⟨_, ⟨_, .single turn, if_pos cyclic⟩, fails_failure rfl rfl⟩

end Reading

open Reading

/-- **Every reading ends.**  Whatever the sources at hand include, step by step a reading
comes to an end, which is the one that the reader answers.  Until then includes are never
nested deeper than the sources at hand have names, and the include of one of them that is
being read, in itself or in what it includes, ends the reading as a cycle. -/
theorem readings_end (options : Options) (available : List Document) (colors : ColorReader)
    (s : Session) (name : Option String) (source : String) :
    (∃ answer,
      (start s name source).Ends { options, resolver := .inMemory available, colors } answer ∧
        interpret { options, resolver := .inMemory available, colors } s name source =
          answer >>= Progress.finish) ∧
    ∀ r, (start s name source).Reaches { options, resolver := .inMemory available, colors } r →
      r.nesting ≤ (available.map (·.name)).dedup.length ∧
      ∀ path, r.AtInclude { options, resolver := .inMemory available, colors } path →
        some path ∈ r.opened →
          ∃ f, interpret { options, resolver := .inMemory available, colors } s name source =
              .error f ∧
            Fails (cycleCode options available path) f := by
  have known : (Resolver.inMemory available).Gives (·.name ∈ available.map (·.name)) :=
    fun path origin ds found d listed => List.mem_map_of_mem
      (List.mem_of_find?_eq_some (Resolver.gives_inMemory available path origin ds found d listed))
  have ends : (start s name source).Ends { options, resolver := .inMemory available, colors } _ :=
    ends_start known (Nat.le_of_eq (List.length_map _)) s name source
  refine ⟨⟨_, ends, interpret_eq ..⟩, fun r reaches => ⟨?_, fun path including opened => ?_⟩⟩
  · exact ((kept_start s source).reaches known reaches).nesting_le
  · obtain ⟨f, ends', fails⟩ := including.fails opened
    have failed := ends.unique (ends'.of_reaches reaches)
    refine ⟨f, ?_, fails⟩
    rw [interpret_eq, ← failed, error_bind]

/-- The reading some steps later, or where it ends. -/
def Reading.advance (setting : Setting) : Nat → Reading → Reading
  | 0, r => r
  | n + 1, r =>
    match r.step setting with
    | .goes r' => r'.advance setting n
    | .ends _ => r

/-- As many steps as one takes lead to a reading that is reached. -/
theorem Reading.reaches_advance (setting : Setting) (n : Nat) (r : Reading) :
    r.Reaches setting (r.advance setting n) := by
  induction n generalizing r with
  | zero => exact .refl
  | succ n ih =>
    unfold advance
    split
    case h_1 r' goes => exact .head goes (ih r')
    case h_2 => exact .refl

/-- Two sources that include each other. -/
def mutualSources : List Document :=
  [⟨"left", "!include right"⟩, ⟨"right", "!include left"⟩]

/-- The first of them is refused in the second. -/
theorem readings_end_of_mutual :
    ∃ f, interpret ⟨{}, .inMemory mutualSources, Color.css⟩ (.start {}) none "!include left" = .error f ∧
      Fails .includeRefused f := by
  let setting : Setting := ⟨{}, .inMemory mutualSources, Color.css⟩
  let r := (Reading.start (.start {}) none "!include left").advance setting 7
  have including : r.AtInclude setting "left" := by
    refine ⟨by decide +kernel, some "right", ⟨1, 0, "!include left".toList⟩,
      [.leave, .leave, .leave], [⟨"!include", .between 0 8, false⟩, ⟨"left", .between 9 13, false⟩],
      r.progress, by decide +kernel, by decide +kernel, rfl, ?_, rfl⟩
    exact ⟨by decide +kernel, by decide +kernel, by decide +kernel⟩
  have cyclic : some "left" ∈ r.opened := by decide +kernel
  exact ((readings_end {} mutualSources Color.css (.start {}) none "!include left").2 r
    (Reading.reaches_advance setting 7 _)).2 "left" including cyclic

end Language

end Edifice
