import Edifice.Proofs.Language.Replay
import Mathlib.Data.List.TakeWhile

/-!
Comments and blank lines.

Remarks are left out by the lexer, block comments before it, when lines are gathered.
Either way no token comes of them, and the line after them is read where the line before
has led (`readLines_silent`).  So text that is put in between two lines and holds nothing
else (`Source.isIdle`) moves the lines after it and does nothing more: readings do not
depend on where lines stand.
-/

namespace Edifice

open Check

namespace Source

/-! ### Lines without tokens -/

def isBlankLine (content : List Char) : Bool :=
  content.all Text.isBlank

/-- Whether a line is a remark: it starts with one of their marks, and is not continued. -/
def isRemark (content : List Char) : Bool :=
  (['/', '/'].isPrefixOf (Text.trimLeft content) || ['#'].isPrefixOf (Text.trimLeft content)) &&
    !continues content

/-- Whether lines are blank lines, remarks and whole block comments, the first of which may
be `inside` one. -/
def isIdle (inside : Bool) : List PhysicalLine → Bool
  | [] => !inside
  | p :: ps =>
    if inside then isIdle (!closesComment p.content) ps
    else if opensComment p.content then isIdle (!isWholeComment p.content) ps
    else (isBlankLine p.content || isRemark p.content) && isIdle false ps

/-- A line in which there are no tokens, wherever it stands. -/
def LogicalLine.Silent (l : LogicalLine) : Prop :=
  ∀ offset, tokenize l.text offset = .ok []

variable {content : List Char}

theorem trimLeft_of_blank (blank : isBlankLine content = true) : Text.trimLeft content = [] := by
  rw [Text.trimLeft, List.dropWhile_eq_nil_iff]
  exact List.all_eq_true.mp blank

/-- A blank line has no backslash that could continue it. -/
theorem not_continues_of_blank (blank : isBlankLine content = true) :
    beforeContinuation? content = none := by
  have trimmed : Text.trimRight content = [] := by
    have reversed : content.reverse.dropWhile Text.isBlank = [] := by
      rw [List.dropWhile_eq_nil_iff]
      intro c listed
      exact List.all_eq_true.mp blank c (List.mem_reverse.mp listed)
    rw [Text.trimRight, Text.dropEndWhile, reversed]
    rfl
  rw [beforeContinuation?, beforeBackslash?, trimmed]
  rfl

/-- Blanks at the start of a line make no difference to its tokens. -/
theorem lex_trimLeft (first : Bool) (offset : Nat) (cs : List Char) :
    ∃ offset', lex (.between first) offset cs =
      lex (.between first) offset' (Text.trimLeft cs) := by
  induction cs generalizing offset with
  | nil => exact ⟨offset, rfl⟩
  | cons c cs ih =>
    by_cases blank : Text.isBlank c = true
    · obtain ⟨offset', same⟩ := ih (offset + c.utf8Size)
      refine ⟨offset', ?_⟩
      rw [lex, Text.trimLeft, List.dropWhile_cons_of_pos blank]
      simp only [blank, if_true]
      exact same
    · rw [Text.trimLeft, List.dropWhile_cons_of_neg blank]
      exact ⟨offset, rfl⟩

theorem lex_of_mark (offset : Nat) {c : Char} {cs : List Char} (blank : Text.isBlank c = false)
    (mark : startsComment true c cs = true) : lex (.between true) offset (c :: cs) = .ok [] := by
  simp [lex, blank, mark]

/-- Nothing is split off a blank line or a remark, wherever it stands. -/
theorem tokenize_of_idle (idle : (isBlankLine content || isRemark content) = true) (offset : Nat) :
    tokenize content offset = .ok [] := by
  obtain ⟨offset', same⟩ := lex_trimLeft true offset content
  rw [tokenize, same]
  rcases Bool.or_eq_true_iff.mp idle with blank | remark
  · rw [trimLeft_of_blank blank]
    rfl
  · rcases Bool.or_eq_true_iff.mp (Bool.and_eq_true_iff.mp remark).1 with slashes | number
    · obtain ⟨rest, text⟩ := List.isPrefixOf_iff_prefix.mp slashes
      rw [← text]
      exact lex_of_mark _ (by decide) rfl
    · obtain ⟨rest, text⟩ := List.isPrefixOf_iff_prefix.mp number
      rw [← text]
      exact lex_of_mark _ (by decide) rfl

/-- A blank line or a remark is a line by itself, without tokens. -/
theorem take_of_idle {p : PhysicalLine} (plain : opensComment p.content = false)
    (idle : (isBlankLine p.content || isRemark p.content) = true) :
    ∃ l, Open.nothing.take p = ([l], .nothing) ∧ l.Silent := by
  have ends : beforeContinuation? p.content = none := by
    rcases Bool.or_eq_true_iff.mp idle with blank | remark
    · exact not_continues_of_blank blank
    · have uncontinued := (Bool.and_eq_true_iff.mp remark).2
      simpa [continues] using uncontinued
  refine ⟨{ number := p.number, offset := p.offset, text := p.content }, ?_, ?_⟩
  · simp [Open.take, plain, LogicalLine.extend, ends]
  · exact tokenize_of_idle idle

/-- Idle lines leave nothing open, and no token comes of them. -/
theorem silent_of_idle {inside : Bool} {o : Open} {ps : List PhysicalLine}
    (idle : isIdle inside ps = true)
    (under_way : if inside then ∃ p, o = .comment p else o = .nothing) :
    o.after ps = .nothing ∧ ∀ l ∈ o.lines ps, l.Silent := by
  induction ps generalizing inside o with
  | nil =>
    cases inside with
    | true => cases idle
    | false => exact ⟨under_way, List.forall_mem_nil _⟩
  | cons p ps ih =>
    unfold isIdle at idle
    cases inside with
    | true =>
      obtain ⟨opened, rfl⟩ : ∃ q, o = .comment q := under_way
      rw [if_pos rfl] at idle
      refine ih idle ?_
      cases closes : closesComment p.content with
      | true => simp [Open.take, closes]
      | false => exact ⟨opened, by simp [Open.take, closes]⟩
    | false =>
      obtain rfl : o = .nothing := under_way
      rw [if_neg Bool.false_ne_true] at idle
      by_cases comment : opensComment p.content = true
      · rw [if_pos comment] at idle
        have lines : (Open.nothing.take p).1 = [] := by
          simp [Open.take, comment]
        rw [Open.after, Open.lines, lines]
        refine ih idle ?_
        cases whole : isWholeComment p.content with
        | true => simp [Open.take, comment, whole]
        | false => exact ⟨p, by simp [Open.take, comment, whole]⟩
      · rw [if_neg comment, Bool.and_eq_true_iff] at idle
        obtain ⟨l, took, silent⟩ := take_of_idle (Bool.of_not_eq_true comment) idle.1
        rw [Open.after, Open.lines, took]
        obtain ⟨closed, later⟩ := ih idle.2 rfl
        refine ⟨closed, ?_⟩
        rintro l' (_ | ⟨_, listed⟩)
        · exact silent
        · exact later l' listed

/-! ### Lines put in -/

/-- `ls'` are lines as in `ls`, with lines without tokens among them. -/
def Padded (ls ls' : List LogicalLine) : Prop :=
  ∃ a b a' silent b', ls = a ++ b ∧ ls' = a' ++ (silent ++ b') ∧
    List.Forall₂ LogicalLine.Alike a a' ∧ List.Forall₂ LogicalLine.Alike b b' ∧
    ∀ l ∈ silent, l.Silent

/-- Whether lines are silent does not depend on where they stand. -/
theorem silent_of_alike {ls ls' : List LogicalLine} (alike : List.Forall₂ LogicalLine.Alike ls ls')
    (silent : ∀ l ∈ ls, l.Silent) : ∀ l ∈ ls', l.Silent := by
  induction alike with
  | nil => exact List.forall_mem_nil _
  | cons same _ ih =>
    rw [List.forall_mem_cons] at silent ⊢
    refine ⟨fun offset => ?_, ih silent.2⟩
    have text := same
    rw [LogicalLine.Alike] at text
    rw [text]
    exact silent.1 offset

variable {before filler after : String}

/-- What idle lines put between two lines do to the lines of a source. -/
theorem matches_logicalLines (closed : opened before = .nothing)
    (apart : isWhole before = true ∨ after = "")
    (idle : isIdle false (physicalLines filler) = true)
    (apart' : isWhole filler = true ∨ after = "") :
    Matches (logicalLines (before ++ after)) (logicalLines (ended before ++ (filler ++ after)))
      Padded fun _ _ => True := by
  obtain ⟨boundary, first⟩ := ended_of_closed closed
  obtain ⟨closed_filler, silent⟩ := silent_of_idle (o := .nothing) idle rfl
  have direct := logicalLines_append (logicalLines_of_closed closed)
    (apart.imp_left fun whole => ⟨whole, closed⟩)
  have around := logicalLines_around boundary (logicalLines_of_closed boundary.closed)
    (logicalLines_of_closed closed_filler) (apart'.imp_left fun whole => ⟨whole, closed_filler⟩)
  generalize Open.nothing.lines (physicalLines filler) = f at silent around
  generalize logicalLines after = x at direct around
  generalize logicalLines (before ++ after) = y at direct ⊢
  generalize logicalLines (ended before ++ (filler ++ after)) = z at around ⊢
  cases direct with
  | error =>
    cases around
    exact .error trivial
  | ok direct =>
    cases around with
    | ok around =>
      obtain ⟨b, rfl, same⟩ := direct
      obtain ⟨r, rfl, moved⟩ := around
      -- the lines of the filler, and those after them, as they stand in the longer source
      have moved_filler := List.forall₂_take f.length moved
      have moved_rest := List.forall₂_drop f.length moved
      rw [List.take_left] at moved_filler
      rw [List.drop_left, alike_iff] at moved_rest
      rw [alike_iff] at same
      refine .ok ⟨_, b, _, r.take f.length, r.drop f.length, rfl, ?_, first, ?_,
        silent_of_alike moved_filler silent⟩
      · rw [List.take_append_drop]
      · rw [alike_iff]
        exact same.symm.trans moved_rest

end Source

namespace Language

variable {setting : Setting} {file : Option String} {includer : Includer} {p p' : Progress}
  {ws ws' : List Diagnostic}

/-! ### Reading them -/

/-- Lines without tokens are read without an effect. -/
theorem readLines_silent {ls : List Source.LogicalLine} (silent : ∀ l ∈ ls, l.Silent)
    (rest : List Source.LogicalLine) (p : Progress) :
    readLines setting file includer (ls ++ rest) p = readLines setting file includer rest p := by
  induction ls with
  | nil => rfl
  | cons l ls ih =>
    rw [List.forall_mem_cons] at silent
    have read : readLine setting file l p = .ok (p, none) := by
      unfold readLine lineTokens
      rw [silent.1 l.offset]
      rfl
    rw [List.cons_append, readLines, read]
    exact ih silent.2

/-- A reading passes over silent lines that are put in between others, and goes on alike behind
them. -/
theorem matches_padded (includes : includer.Alike ws ws' includer)
    {ls ls' : List Source.LogicalLine} (padded : Source.Padded ls ls') (far : p.Alike ws ws' p') :
    Matches (readLines setting file includer ls p) (readLines setting file includer ls' p')
      (Progress.Alike ws ws') Failure.Alike := by
  obtain ⟨a, b, a', silent, b', rfl, rfl, first, last, quiet⟩ := padded
  rw [readLines_append, readLines_append]
  apply Matches.bind (matches_readLines (.refl _ _) includes first far)
  intro q q' far
  rw [readLines_silent quiet]
  exact matches_readLines (.refl _ _) includes last far

variable {before filler after : String}

/-- Both readings answer the same workspace and the same codes and messages of warnings, or
both fail under the same code. -/
def SameOutcome (x y : Except Failure Parsed) : Prop :=
  Matches x y
    (fun a b => b.workspace = a.workspace ∧
      b.warnings.map (fun d => (d.code, d.message)) = a.warnings.map fun d => (d.code, d.message))
    fun f f' => f'.firstError?.map (·.code) = f.firstError?.map (·.code)

/-- Readings that come alike from the start have the same outcome. -/
theorem sameOutcome_of_alike {x y : Except Failure Parsed}
    (both : Matches x y (Parsed.Alike [] []) Failure.Alike) : SameOutcome x y := by
  apply both.imp
  · intro a b alike
    obtain ⟨workspace, vs, vs', own, own', listed⟩ := alike
    refine ⟨workspace, ?_⟩
    rw [own, own', List.nil_append, List.nil_append]
    clear own own'
    induction listed with
    | nil => rfl
    | cons same _ ih => rw [List.map_cons, List.map_cons, ih, same.code, same.message]
  · rintro ⟨diagnostics⟩ ⟨diagnostics'⟩ ⟨d, d', first, first', alike⟩
    have error : ∀ {ds : List Diagnostic} {d : Diagnostic}, ds.head? = some d →
        d.severity = .error → ({ diagnostics := ds } : Failure).firstError? = some d := by
      intro ds d first severe
      cases ds with
      | nil => cases first
      | cons _ rest =>
        obtain rfl := Option.some.inj first
        rw [Failure.firstError?, List.find?_cons_of_pos (by simp [severe])]
    rw [error first alike.severe, error first' alike.severe', Option.map_some, Option.map_some,
      alike.code]

/-- **Comments and blank lines mean nothing.**  Where a source leaves neither a continued
line nor a comment open, blank lines, remarks and whole block comments can be put in: on
top of every session and from the start, the source is read into the same workspace with
the same warnings as before, or fails under the same code. -/
theorem comments_mean_nothing (setting : Setting) (name : Option String)
    (closed : Source.opened before = .nothing) (apart : Source.isWhole before = true ∨ after = "")
    (idle : Source.isIdle false (Source.physicalLines filler) = true)
    (apart' : Source.isWhole filler = true ∨ after = "") :
    (∀ s, SameOutcome (interpret setting s name (before ++ after))
        (interpret setting s name (Source.ended before ++ (filler ++ after)))) ∧
      SameOutcome (parse setting name (before ++ after))
        (parse setting name (Source.ended before ++ (filler ++ after))) := by
  have every : ∀ s, SameOutcome (interpret setting s name (before ++ after))
      (interpret setting s name (Source.ended before ++ (filler ++ after))) := by
    intro s
    apply sameOutcome_of_alike
    rw [interpret_eq, interpret_eq, readSource_eq]
    refine .bind ?_ fun _ _ => matches_finish
    have lines := Source.matches_logicalLines closed apart idle apart'
    have start : ({ session := s } : Progress).Alike [] [] { session := s } :=
      ⟨.refl s, [], [], rfl, rfl, .nil⟩
    unfold readContent
    generalize Source.logicalLines (before ++ after) = x at lines ⊢
    generalize Source.logicalLines (Source.ended before ++ (filler ++ after)) = y at lines ⊢
    cases lines with
    | ok padded => exact matches_padded (alike_includerAt _ _ _) padded start
    | error => exact .error (alike_failure ⟨rfl, rfl, rfl⟩)
  exact ⟨every, every _⟩

/-- Comments inside the workspace block: the workspace is read, with them and without. -/
theorem comments_in_workspace :
    (parse {} none ("workspace \x7b\n" ++ "  name Shop\n\x7d\n")).isOk = true ∧
      SameOutcome (parse {} none ("workspace \x7b\n" ++ "  name Shop\n\x7d\n"))
        (parse {} none (Source.ended "workspace \x7b\n" ++
          (" \n// once\n/* twice\n  and */\n" ++ "  name Shop\n\x7d\n"))) := by
  constructor
  · decide +kernel
  · apply (comments_mean_nothing {} none _ _ _ _).2
    · decide +kernel
    · exact .inl (by decide +kernel)
    · decide +kernel
    · exact .inl (by decide +kernel)

end Language

end Edifice
