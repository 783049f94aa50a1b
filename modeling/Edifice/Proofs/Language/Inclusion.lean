import Edifice.Proofs.Language.Replay
import Edifice.Proofs.Language.Restriction

/-!
Includes and what they include.

An include can be replaced by the content of the source that it names: the lines of that
source say the same in the place of the line that includes them, whatever blocks are open
there.  The two readings differ in the places and names of lines, which nothing depends
on, and in how deep the includes are that are made further inside.  A reading that answers
answers the same where includes may go deeper and fewer sources are being read
(`deeper_readSource`).
-/

namespace Edifice.Language

open Check

/-! ### Deeper includes -/

section Deeper

variable {setting : Setting} {file : Option String} {p : Progress}

/-- Loops agree whose turns do. -/
theorem Agrees.foldlM {ε α ι : Type} {alike : Prop} {f g : α → ι → Except ε α}
    (turn : ∀ i a, Agrees alike (f a i) (g a i)) (l : List ι) (a : α) :
    Agrees alike (l.foldlM f a) (l.foldlM g a) := by
  induction l generalizing a with
  | nil => exact .refl _
  | cons i rest ih =>
    rw [List.foldlM_cons, List.foldlM_cons]
    exact .bind (turn i a) fun a' _ => ih a'

def Includer.Within (includer includer' : Includer) : Prop :=
  ∀ line span d p, Agrees False (includer line span d p) (includer' line span d p)

variable {includer includer' : Includer}

/-- Lines are answered the same with an includer that answers more. -/
theorem within_readLines (within : includer.Within includer') (ls : List Source.LogicalLine) :
    Agrees False (readLines setting file includer ls p)
      (readLines setting file includer' ls p) := by
  induction ls generalizing p with
  | nil => exact .refl _
  | cons l rest ih =>
    apply Agrees.after
    rintro ⟨p₁, inclusion⟩
    cases inclusion with
    | none => exact ih
    | some i =>
      apply Agrees.bind
      · exact .foldlM (fun d p => within _ _ d p) i.sources p₁
      · exact fun _ _ => ih

theorem within_readContent (within : includer.Within includer') (content : String) :
    Agrees False (readContent setting file includer content p)
      (readContent setting file includer' content p) := by
  unfold readContent
  split
  · exact within_readLines within _
  · exact .refl _

/-- What a reading answers, it answers with a greater depth and fewer sources being read. -/
theorem deeper_readSource {depth depth' : Nat} (deeper : depth ≤ depth')
    {opened opened' : List (Option String)} (fewer : ∀ name ∈ opened', name ∈ opened)
    (content : String) :
    Agrees False (readSource setting depth opened file content p)
      (readSource setting depth' opened' file content p) := by
  induction depth generalizing depth' opened opened' file content p with
  | zero =>
    rw [readSource_eq, readSource_eq]
    apply within_readContent
    intro line span d p
    exact .refused False.elim
  | succ depth ih =>
    have some_depth : 0 < depth' := by omega
    obtain ⟨depth', rfl⟩ := Nat.exists_eq_add_one.mpr some_depth
    rw [readSource_eq, readSource_eq]
    apply within_readContent
    intro line span d p
    simp only [includerAt]
    by_cases cyclic : opened.contains (some d.name) = true
    · rw [if_pos cyclic]
      exact .refused False.elim
    · have acyclic : ¬ opened'.contains (some d.name) = true := by
        intro listed
        apply cyclic
        rw [List.contains_iff_mem] at listed ⊢
        exact fewer _ listed
      rw [if_neg cyclic, if_neg acyclic]
      apply ih (Nat.le_of_succ_le_succ deeper)
      intro name listed
      rcases List.mem_cons.mp listed with rfl | listed
      · exact List.mem_cons_self
      · exact List.mem_cons_of_mem _ (fewer name listed)

end Deeper

variable {setting : Setting} {file name : Option String} {p q : Progress} {ts raw : Tokens}
  {l : Source.LogicalLine} {path before line after : String} {d : Document} {s : Session}

/-! ### The line of an include -/

/-- The line is the directive that includes `path`. -/
structure IsInclude (ts : Tokens) (path : String) : Prop where
  directive : isDirective ts = true
  keyword : ts.text 0 = "!include"
  path : ts.text 1 = path

theorem IsInclude.of_alike {ts' : Tokens} (includes : IsInclude ts path) (alike : ts.Alike ts') :
    IsInclude ts' path where
  directive := (isDirective_of_alike alike).trans includes.directive
  keyword := (alike.text 0).trans includes.keyword
  path := (alike.text 1).trans includes.path

/-- An include leaves the session alone and brings in what the resolver has for its path. -/
theorem executeDirective_include (includes : IsInclude ts path) :
    Gives (executeDirective setting s ts file) fun answer => answer.1 = s ∧
      ∃ i, answer.2 = some i ∧ setting.resolver.sources path file = .ok i.sources := by
  rintro ⟨s₁, inclusion⟩ executed
  rw [executeDirective, includes.keyword] at executed
  obtain ⟨i, included, executed⟩ := bind_eq_ok.mp executed
  obtain ⟨rfl, rfl⟩ := Prod.mk.inj (Except.ok.inj executed)
  obtain ⟨-, included⟩ := then_eq_ok.mp included
  by_cases restricted : setting.options.restricted = true
  · rw [if_pos restricted] at included
    cases included
  · rw [if_neg restricted] at included
    obtain ⟨sources, found, included⟩ := bind_eq_ok.mp included
    obtain rfl := Except.ok.inj included
    rw [includes.path] at found
    refine ⟨rfl, _, rfl, ?_⟩
    unfold resolved at found
    split at found
    case h_1 sources' answered =>
      obtain rfl := Except.ok.inj found
      exact answered
    case h_2 => cases found

/-- An include leaves the session alone and asks for the sources of its path. -/
theorem readLine_include (lexed : lineTokens l = .ok raw)
    (includes : IsInclude (substituteTokens p.session.constants raw) path) :
    Gives (readLine setting file l p) fun answer => answer.1.session = p.session ∧
      ∃ i, answer.2 = some i ∧ setting.resolver.sources path file = .ok i.sources := by
  rintro ⟨p', inclusion⟩ read
  obtain ⟨raw', lexed', ⟨rfl, -⟩ | ⟨-, p₁, same, read⟩⟩ := readLine_eq_ok read
  · obtain rfl := Except.ok.inj (lexed.symm.trans lexed')
    cases includes.directive
  obtain rfl := Except.ok.inj (lexed.symm.trans lexed')
  have performs := (performs_readTokens l _ _ read).2
  rw [same] at performs
  dsimp only at performs ⊢
  generalize p'.session = s' at performs ⊢
  cases performs with
  | closes closing _ =>
    have keyword := text_of_closesBlock closing
    rw [includes.keyword] at keyword
    exact absurd keyword (by decide)
  | directs _ _ executed => exact executeDirective_include includes _ executed
  | runs _ statement _ => exact absurd includes.directive (Bool.eq_false_iff.mp statement)

/-! ### The content in its place -/

theorem readContent_eq_ok {includer : Includer} {content : String} :
    readContent setting file includer content p = .ok q ↔
      ∃ ls, Source.logicalLines content = .ok ls ∧
        readLines setting file includer ls p = .ok q := by
  unfold readContent
  cases Source.logicalLines content with
  | ok ls => simp
  | error opened => simp

/-- The lines of a source that was included are read to the same end in another source. -/
theorem readLines_included {depth : Nat} {opened : List (Option String)} {line : SourceLine}
    {span : Span} {ws ws' : List Diagnostic} {p' : Progress}
    (indifferent : setting.resolver.Indifferent (some d.name) file) (far : p.Alike ws ws' p')
    (read : includerAt setting depth opened line span d p = .ok q) :
    ∃ ls q', Source.logicalLines d.content = .ok ls ∧
      readLines setting file (includerAt setting depth opened) ls p' = .ok q' ∧
        q.Alike ws ws' q' := by
  cases depth with
  | zero => cases read
  | succ depth =>
    simp only [includerAt] at read
    split at read
    · cases read
    · have fewer : ∀ n ∈ opened, n ∈ some d.name :: opened := fun n => List.mem_cons_of_mem _
      have there := (deeper_readSource (Nat.le_succ depth) fewer d.content).answers q read
      rw [readSource_eq, readContent_eq_ok] at there
      obtain ⟨ls, lines, there⟩ := there
      obtain ⟨q', here, alike⟩ := Matches.answered
        (matches_readLines indifferent (alike_includerAt _ _ _)
          (List.forall₂_same.mpr fun _ _ => rfl) far) there
      exact ⟨ls, q', lines, here, alike⟩

/-- Sessions with the same contents have come equally far since then. -/
theorem alike_of_session {p' : Progress} (same : p'.session = p.session) :
    p'.Alike p'.warnings p.warnings p where
  session := same ▸ .refl _
  warnings := ⟨[], [], (List.append_nil _).symm, (List.append_nil _).symm, .nil⟩

/-- After the line of an include, the lines that follow are read as after the lines that it
brings in. -/
theorem readLines_inlined {depth : Nat} {opened : List (Option String)}
    {rest : List Source.LogicalLine}
    (indifferent : setting.resolver.Indifferent (some d.name) file) (lexed : lineTokens l = .ok raw)
    (includes : IsInclude (substituteTokens p.session.constants raw) path)
    (found : setting.resolver.sources path file = .ok [d])
    (read : readLines setting file (includerAt setting depth opened) (l :: rest) p = .ok q) :
    ∃ ls q' ws ws', Source.logicalLines d.content = .ok ls ∧
      readLines setting file (includerAt setting depth opened) (ls ++ rest) p = .ok q' ∧
        q.Alike ws ws' q' := by
  obtain ⟨⟨p₁, inclusion⟩, first, later⟩ := bind_eq_ok.mp read
  obtain ⟨session, i, own, sources⟩ := readLine_include lexed includes _ first
  obtain rfl : inclusion = some i := own
  dsimp only at later session
  obtain ⟨p₂, included, later⟩ := bind_eq_ok.mp later
  have one : i.sources = [d] := Except.ok.inj (sources.symm.trans found)
  rw [one, List.foldlM_cons] at included
  obtain ⟨p₂', taken, none_left⟩ := bind_eq_ok.mp included
  obtain rfl := Except.ok.inj none_left
  obtain ⟨ls, q₂, lines, inlined, far⟩ :=
    readLines_included indifferent (alike_of_session session) taken
  obtain ⟨q', later, far⟩ := Matches.answered
    (matches_readLines (.refl _ _) (alike_includerAt _ _ _)
      (List.forall₂_same.mpr fun _ _ => rfl) far) later
  refine ⟨ls, q', _, _, lines, ?_, far⟩
  rw [readLines_append, inlined]
  exact later

theorem indifferent_inMemory (available : List Document) (file file' : Option String) :
    (Resolver.inMemory available).Indifferent file file' :=
  ⟨fun _ => rfl, fun _ _ => rfl⟩

/-! ### Inlining -/

/-- The lines of a text between those before and after it, where it leaves no line continued. -/
theorem lines_inlined {content : String} {lb ld lc lc' : List Source.LogicalLine}
    (start : Source.IsBoundary before) (lines_before : Source.logicalLines before = .ok lb)
    (uncontinued : ∀ last, (Source.physicalLines content).getLast? = some last →
      Source.continues last.content = false)
    (lines : Source.logicalLines content = .ok ld)
    (lines_after : Source.logicalLines after = .ok lc)
    (later : List.Forall₂ Source.LogicalLine.Alike lc lc') :
    ∃ rest, Source.logicalLines (before ++ (Source.ended content ++ after)) = .ok (lb ++ rest) ∧
      List.Forall₂ Source.LogicalLine.Alike (ld ++ lc') rest := by
  have closed := Source.opened_of_uncontinued lines uncontinued
  obtain ⟨boundary, same⟩ := Source.ended_of_closed closed
  rw [Source.logicalLines_of_closed closed] at lines
  obtain rfl := Except.ok.inj lines
  have around := Source.logicalLines_around start lines_before
    (Source.logicalLines_of_closed boundary.closed) (.inl boundary) (u := after)
  obtain ⟨_, whole, rest, rfl, alike⟩ := around.answered lines_after
  refine ⟨rest, whole, ?_⟩
  rw [Source.alike_iff, List.map_append] at alike ⊢
  rw [Source.alike_iff] at later same
  rw [← alike, later, same]

/-- Reading the text `before` leads to where the line `l` is an include of `path`. -/
def IncludesAt (setting : Setting) (s : Session) (name : Option String) (before : String)
    (l : Source.LogicalLine) (path : String) : Prop :=
  ∃ p raw, readSource setting setting.resolver.limit [name] name before { session := s } = .ok p ∧
    lineTokens l = .ok raw ∧ IsInclude (substituteTokens p.session.constants raw) path

/-- **Including is inlining.**  Where sources are at hand under their names, the line of an
include that is executed can be replaced by the content of the source that it names, with a
line break at the end: what could be read before is read into the same workspace. -/
theorem including_is_inlining (options : Options) (available : List Document)
    (colors : ColorReader) (s : Session) (name : Option String) (start : Source.IsBoundary before)
    (single : Source.logicalLines line = .ok [l]) (apart : Source.IsBoundary line ∨ after = "")
    (includes : IncludesAt { options, resolver := .inMemory available, colors } s name before l
      path)
    (found : (available.find? fun d => d.name == path) = some d)
    (uncontinued : ∀ last, (Source.physicalLines d.content).getLast? = some last →
      Source.continues last.content = false)
    {parsed : Parsed}
    (read : interpret { options, resolver := .inMemory available, colors } s name
      (before ++ (line ++ after)) = .ok parsed) :
    ∃ parsed', interpret { options, resolver := .inMemory available, colors } s name
        (before ++ (Source.ended d.content ++ after)) = .ok parsed' ∧
      parsed'.workspace = parsed.workspace := by
  obtain ⟨p₀, raw, arrives, lexed, directive⟩ := includes
  rw [interpret_eq] at read
  obtain ⟨p₃, reading, finished⟩ := bind_eq_ok.mp read
  rw [readSource_eq, readContent_eq_ok] at reading arrives
  obtain ⟨lb, lines_before, arrives⟩ := arrives
  obtain ⟨ls, lines, reading⟩ := reading
  have around := Source.logicalLines_around start lines_before single apart
  obtain ⟨lc, lines_after, rest, rfl, alike⟩ := around.answered' lines
  rw [readLines_append, arrives, ok_bind] at reading
  cases alike with
  | @cons _ l₁ _ lc₁ same later =>
    -- the include, as it stands in the root, and the lines of its source in its place
    obtain ⟨raw₁, lexed₁, tokens⟩ := (matches_lineTokens same).answered lexed
    have directive₁ := directive.of_alike (alike_substituteTokens _ tokens)
    have answered : (Resolver.inMemory available).sources path name = .ok [d] := by
      simp only [Resolver.inMemory, found]
    obtain ⟨ld, q, ws, ws', content, inlined, far⟩ :=
      readLines_inlined (indifferent_inMemory ..) lexed₁ directive₁ answered reading
    obtain ⟨rest', lines', moved⟩ :=
      lines_inlined start lines_before uncontinued content lines_after later
    obtain ⟨q', read', far'⟩ := Matches.answered
      (matches_readLines (.refl _ _) (alike_includerAt _ _ _) moved (alike_of_session rfl)) inlined
    obtain ⟨parsed₁, finished₁, same₁⟩ := (matches_finish far).answered finished
    obtain ⟨parsed₂, finished₂, same₂⟩ := (matches_finish far').answered finished₁
    refine ⟨parsed₂, ?_, same₂.workspace.trans same₁.workspace⟩
    rw [interpret_eq, readSource_eq, bind_eq_ok]
    refine ⟨q', ?_, finished₂⟩
    rw [readContent_eq_ok]
    refine ⟨_, lines', ?_⟩
    rw [readLines_append, arrives]
    exact read'

/-- A source that ends the model block and opens another one. -/
def partDocument : Document where
  name := "part"
  content := "  shop = softwareSystem Shop\n \x7d\n views \x7b"

def partSetting : Setting where
  options := {}
  resolver := .inMemory [partDocument]

def rootAround (text : String) : String :=
  "workspace \x7b\n model \x7b\n" ++ (text ++ " \x7d\n\x7d\n")

/-- The root that includes the part, and the root with the part in its place. -/
theorem inlining_of_part :
    ∃ parsed parsed',
      interpret partSetting (.start {}) none (rootAround "  !include part\n") = .ok parsed ∧
      interpret partSetting (.start {}) none (rootAround (Source.ended partDocument.content)) =
        .ok parsed' ∧
      parsed'.workspace = parsed.workspace := by
  have read : (interpret partSetting (.start {}) none (rootAround "  !include part\n")).isOk =
      true := by
    decide +kernel
  have arrives : (do
      let p ← (readSource partSetting 1 [none] none "workspace \x7b\n model \x7b\n"
        { session := .start {} }).toOption
      let raw ← (lineTokens { number := 1, offset := 0, text := "  !include part".toList }).toOption
      let ts := substituteTokens p.session.constants raw
      return isDirective ts && ts.text 0 == "!include" && ts.text 1 == "part") = some true := by
    decide +kernel
  obtain ⟨p, arrived, lexed⟩ := Option.bind_eq_some_iff.mp arrives
  obtain ⟨raw, lexed, reads⟩ := Option.bind_eq_some_iff.mp lexed
  have named := Option.some.inj reads
  simp only [Bool.and_eq_true, beq_iff_eq] at named
  obtain ⟨⟨directive, keyword⟩, path⟩ := named
  obtain ⟨parsed, answer⟩ := isOk_iff.mp read
  obtain ⟨parsed', inlined, same⟩ := including_is_inlining {} [partDocument] Color.css
    (.start {}) none ⟨by decide +kernel, by decide +kernel⟩ (by decide +kernel)
    (.inl ⟨by decide +kernel, by decide +kernel⟩)
    ⟨p, raw, toOption_eq_some.mp arrived, toOption_eq_some.mp lexed, directive, keyword, path⟩
    rfl (by decide +kernel) answer
  exact ⟨parsed, parsed', answer, inlined, same⟩

end Edifice.Language
