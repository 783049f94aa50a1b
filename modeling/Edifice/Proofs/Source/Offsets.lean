import Edifice.Proofs.Source.Cuts
import Edifice.Proofs.Source.Lexemes

/-!
Offsets into a source.

A logical line stands for a stretch of its source, in which spaces take the place of the marks
that continue it, byte for byte (`Spaced`).  The lines of a source are such stretches one after
the other (`Laid`).  Since the spaces belong to no word and open no quotes, a token of a line
stands where its range says, in the source as in the line.
-/

namespace Edifice.Source

open Check

/-! ### Stretches of a text -/

theorem byteCount_pos {cs : List Char} (some_text : cs ≠ []) : 0 < byteCount cs := by
  cases cs with
  | nil => exact absurd rfl some_text
  | cons c cs =>
    rw [byteCount_cons]
    exact Nat.add_pos_left c.utf8Size_pos _

theorem eq_nil_of_byteCount {cs : List Char} (empty : byteCount cs = 0) : cs = [] :=
  by_contra fun some_text => Nat.ne_of_gt (byteCount_pos some_text) empty

theorem byteCount_spaces (n : Nat) : byteCount (List.replicate n ' ') = n := by
  induction n with
  | zero => rfl
  | succ n ih =>
    rw [List.replicate_succ, byteCount_cons, ih]
    exact Nat.add_comm 1 n

/-- From one offset to another, the text holds `cs`: both lie between two characters. -/
def Stretch (source : List Char) (start stop : Nat) (cs : List Char) : Prop :=
  ∃ before after, source = before ++ (cs ++ after) ∧ start = byteCount before ∧
    stop = start + byteCount cs

/-! ### Lines as they stand in a source -/

/-- Lines cut out of a text: a line feed ends each of them but the last, and stands nowhere
else. -/
def AreLines : List (List Char) → Prop
  | [] => True
  | raw :: rest =>
    (raw ≠ [] ∧ '\n' ∉ raw.dropLast ∧ (rest ≠ [] → raw.getLast? = some '\n')) ∧ AreLines rest

/-- Raw lines have their break at the end, and only the last one may lack it. -/
theorem areLines_rawLines (cs : List Char) : AreLines (rawLines cs) := by
  induction cs with
  | nil => trivial
  | cons c cs ih =>
    unfold rawLines
    split
    case isTrue breaks =>
      exact ⟨⟨List.cons_ne_nil _ _, List.not_mem_nil, fun _ => congrArg some breaks⟩, ih⟩
    case isFalse other =>
    split
    case h_1 => exact ⟨⟨List.cons_ne_nil _ _, List.not_mem_nil, (absurd rfl ·)⟩, trivial⟩
    case h_2 l ls lines =>
    rw [lines] at ih
    obtain ⟨⟨some_text, unbroken, ends⟩, later⟩ := ih
    refine ⟨⟨List.cons_ne_nil _ _, ?_, ?_⟩, later⟩
    · rw [List.dropLast_cons_of_ne_nil some_text]
      exact List.not_mem_cons_of_ne_of_not_mem (Ne.symm other) unbroken
    · intro more
      rw [List.getLast?_cons_of_ne_nil some_text]
      exact ends more

/-- Put together again, raw lines are the text they were cut from. -/
theorem flatten_rawLines (cs : List Char) : (rawLines cs).flatten = cs := by
  induction cs with
  | nil => rfl
  | cons c cs ih =>
    unfold rawLines
    split
    · rw [List.flatten_cons, ih, List.singleton_append]
    · split
      case h_1 lines =>
        rw [lines] at ih
        rw [← ih]
        rfl
      case h_2 l ls lines =>
        rw [lines] at ih
        rw [← ih]
        rfl

/-- What is dropped at the end of a text. -/
theorem eq_dropEndWhile_append (p : Char → Bool) (cs : List Char) :
    ∃ dropped, cs = Text.dropEndWhile p cs ++ dropped ∧ ∀ c ∈ dropped, p c = true := by
  refine ⟨(cs.reverse.takeWhile p).reverse, ?_, ?_⟩
  · rw [Text.dropEndWhile, ← List.reverse_append, List.takeWhile_append_dropWhile,
      List.reverse_reverse]
  · intro c mem
    exact List.all_eq_true.mp List.all_takeWhile c (List.mem_reverse.mp mem)

theorem eq_false_of_getLast?_dropEndWhile {p : Char → Bool} {cs : List Char} {c : Char}
    (last : (Text.dropEndWhile p cs).getLast? = some c) : p c = false := by
  have stays := List.head?_dropWhile_not p cs.reverse
  rw [Text.dropEndWhile, List.getLast?_reverse] at last
  rw [last] at stays
  exact stays

/-- `p.Reads pos raw term`: the line is read from `raw`, at the offset `pos`, and `term` is its
terminator. -/
structure PhysicalLine.Reads (p : PhysicalLine) (pos : Nat) (raw term : List Char) : Prop where
  offset : p.offset = pos
  whole : raw = p.content ++ term
  terminator : p.terminator = byteCount term
  blank : ∀ c ∈ term, Text.isBlank c = true
  unbroken : '\n' ∉ raw.dropLast → '\n' ∉ p.content

/-- A piece of an unbroken line that does not end in a break holds none. -/
theorem newline_not_mem_of_dropLast {cs ds : List Char} (unbroken : '\n' ∉ (cs ++ ds).dropLast)
    (last : cs.getLast? ≠ some '\n') : '\n' ∉ cs := by
  intro mem
  rcases List.eq_nil_or_concat cs with rfl | ⟨init, c, rfl⟩
  · cases mem
  · rw [List.concat_eq_append] at *
    rw [List.getLast?_concat] at last
    rw [List.mem_append, List.mem_singleton] at mem
    rcases mem with inside | rfl
    · apply unbroken
      rw [List.append_assoc, List.singleton_append,
        List.dropLast_append_of_ne_nil (List.cons_ne_nil _ _)]
      exact List.mem_append_left _ inside
    · exact last rfl

/-- Lines are numbered one after the other, each at its offset. -/
theorem number_cons (n pos : Nat) (raw : List Char) (raws : List (List Char)) :
    ∃ p term, number n pos (raw :: raws) = p :: number (n + 1) (pos + byteCount raw) raws ∧
      p.Reads pos raw term := by
  obtain ⟨term, whole, ends⟩ := eq_dropEndWhile_append (fun c => c == '\n' || c == '\r') raw
  refine ⟨_, term, rfl, rfl, whole, ?_, ?_, ?_⟩
  · have size := congrArg byteCount whole
    rw [byteCount_append] at size
    exact Nat.sub_eq_of_eq_add' size
  · intro c mem
    have ends := ends c mem
    simp only [Bool.or_eq_true, beq_iff_eq] at ends
    rcases ends with rfl | rfl <;> decide
  · intro unbroken
    rw [whole] at unbroken
    refine newline_not_mem_of_dropLast unbroken fun last => ?_
    cases eq_false_of_getLast?_dropEndWhile last

/-- The backslash that ends a line stands in front of blanks only. -/
theorem beforeBackslash?_eq_some_iff {cs before : List Char} :
    beforeBackslash? cs = some before ↔
      ∃ blanks, cs = before ++ '\\' :: blanks ∧ ∀ b ∈ blanks, Text.isBlank b = true := by
  constructor
  · intro mark
    obtain ⟨blanks, whole, blank⟩ := eq_dropEndWhile_append Text.isBlank cs
    refine ⟨blanks, ?_, blank⟩
    unfold beforeBackslash? at mark
    split at mark
    case h_2 => cases mark
    case h_1 reversed trimmed =>
    obtain rfl := Option.some.inj mark
    have trimmed := congrArg List.reverse trimmed
    rw [List.reverse_reverse, List.reverse_cons] at trimmed
    rw [Text.trimRight] at trimmed
    rw [trimmed, List.append_assoc] at whole
    exact whole
  · rintro ⟨blanks, rfl, blank⟩
    have dropped : ∀ b ∈ blanks.reverse, Text.isBlank b = true :=
      fun b member => blank b (List.mem_reverse.mp member)
    have trimmed :
        (Text.trimRight (before ++ '\\' :: blanks)).reverse = '\\' :: before.reverse := by
      rw [Text.trimRight, Text.dropEndWhile, List.reverse_reverse, List.reverse_append,
        List.reverse_cons, List.append_assoc, List.dropWhile_append_of_pos dropped]
      exact List.dropWhile_cons_of_neg (by decide)
    rw [beforeBackslash?, trimmed]
    exact congrArg some (List.reverse_reverse before)

/-- The mark of a continued line, and what stands around it. -/
theorem eq_of_beforeContinuation? {content before : List Char}
    (mark : beforeContinuation? content = some before) :
    marksContinuation before = true ∧ ∃ blanks, content = before ++ '\\' :: blanks ∧
      ∀ b ∈ blanks, Text.isBlank b = true := by
  obtain ⟨mark, marks⟩ := Option.filter_eq_some_iff.mp mark
  exact ⟨marks, beforeBackslash?_eq_some_iff.mp mark⟩

/-! ### Continued lines -/

/-- `Spaced cs text`: the lines `cs`, each of them but the last one continued, are read as
`text`.  Spaces take the place of every mark and of the blanks up to the next line. -/
inductive Spaced : List Char → List Char → Prop where
  | line {cs : List Char} (unbroken : '\n' ∉ cs) (ends : continues cs = false) : Spaced cs cs
  | mark {before blanks cs text : List Char} (marks : marksContinuation before = true)
      (blank : ∀ b ∈ blanks, Text.isBlank b = true) (unbroken : '\n' ∉ before ++ blanks.dropLast)
      (breaks : blanks.getLast? = some '\n' ∨ cs = []) (rest : Spaced cs text) :
      Spaced (before ++ ('\\' :: blanks ++ cs))
        (before ++ (List.replicate (byteCount ('\\' :: blanks)) ' ' ++ text))

variable {cs text : List Char}

/-- A line takes as many bytes as what it is read from. -/
theorem Spaced.byteCount_eq (spaced : Spaced cs text) : byteCount text = byteCount cs := by
  induction spaced with
  | line => rfl
  | mark _ _ _ _ _ ih => simp only [byteCount_append, byteCount_spaces, ih]

/-- `Laid pos cs ls`: the text `cs`, which starts at the offset `pos`, is made of the lines
`ls` in their order, with terminators after them and comments between them. -/
inductive Laid : Nat → List Char → List LogicalLine → Prop where
  | nil {pos : Nat} : Laid pos [] []
  | skip {pos : Nat} {comment rest : List Char} {ls : List LogicalLine}
      (later : Laid (pos + byteCount comment) rest ls) : Laid pos (comment ++ rest) ls
  | line {pos n : Nat} {cs term rest text : List Char} {ls : List LogicalLine}
      (spaced : Spaced cs text) (some_text : cs ++ term ≠ [])
      (later : Laid (pos + byteCount (cs ++ term)) rest ls) :
      Laid pos (cs ++ term ++ rest) ({ number := n, offset := pos, text } :: ls)

/-- What the lines gathered from a text are, by what is left open before it: a line that goes
on takes in the first of them. -/
def Open.Lays : Open → Nat → List Char → List LogicalLine → Prop
  | .nothing, pos, cs, ls | .comment _, pos, cs, ls => Laid pos cs ls
  | .line l, pos, cs, ls => ∃ part text term rest later, cs = part ++ term ++ rest ∧
      Spaced part text ∧ (cs ≠ [] → part ++ term ≠ []) ∧
      ls = { l with text := l.text ++ text } :: later ∧
      Laid (pos + byteCount (part ++ term)) rest later

/-- The spaces for a mark take as many bytes as what stands from it up to the next line. -/
theorem blankMark_eq {p : PhysicalLine} {before blanks term : List Char}
    (content : p.content = before ++ '\\' :: blanks) (ends : p.terminator = byteCount term) :
    blankMark p before =
      before ++ List.replicate (byteCount ('\\' :: (blanks ++ term))) ' ' := by
  have size : byteCount p.content - byteCount before + p.terminator =
      byteCount ('\\' :: (blanks ++ term)) := by
    rw [content, ends]
    simp only [byteCount_append, byteCount_cons]
    omega
  rw [blankMark, size]

section Gathering

variable {p : PhysicalLine} {ps : List PhysicalLine} {pos : Nat} {raw term : List Char}
  {raws : List (List Char)} {ls : List LogicalLine}

/-- What stands around a mark has no line break in it, up to the terminator. -/
theorem newline_not_mem_of_mark {before blanks : List Char}
    (unbroken : '\n' ∉ (before ++ '\\' :: blanks).dropLast) :
    '\n' ∉ before ++ blanks.dropLast := by
  rw [List.dropLast_append_of_ne_nil (List.cons_ne_nil _ _)] at unbroken
  intro mem
  apply unbroken
  rw [List.mem_append] at mem ⊢
  refine mem.imp_right fun mem => ?_
  rw [List.dropLast_cons_of_ne_nil (List.ne_nil_of_mem (List.dropLast_subset _ mem))]
  exact List.mem_cons_of_mem _ mem

/-- A line break after a mark is the last of the blanks after it. -/
theorem getLast?_of_mark {before blanks : List Char}
    (breaks : (before ++ '\\' :: blanks).getLast? = some '\n') : blanks.getLast? = some '\n' := by
  rw [List.getLast?_append_of_ne_nil _ (List.cons_ne_nil _ _)] at breaks
  cases blanks with
  | nil => cases breaks
  | cons b bs => rwa [List.getLast?_cons_cons] at breaks

/-- The last line of the source that is taken in by the line that goes on. -/
theorem lays_last {l : LogicalLine} (are : AreLines (raw :: raws)) (reads : p.Reads pos raw term)
    (ends : continues p.content = false) (laid : Laid (pos + byteCount raw) raws.flatten ls) :
    (Open.line l).Lays pos (raw :: raws).flatten
      ({ l with text := l.text ++ p.content } :: ls) := by
  obtain ⟨⟨some_text, unbroken, -⟩, -⟩ := are
  have whole := reads.whole
  refine ⟨p.content, p.content, term, raws.flatten, ls, ?_,
    .line (reads.unbroken unbroken) ends, ?_, rfl, ?_⟩
  · rw [← whole, List.flatten_cons]
  · exact fun _ => whole ▸ some_text
  · rw [← whole]
    exact laid

/-- A line of the source that is taken in with its mark, and those that follow it. -/
theorem lays_continued {l : LogicalLine} {before : List Char} (are : AreLines (raw :: raws))
    (reads : p.Reads pos raw term) (mark : beforeContinuation? p.content = some before)
    (later : (Open.line { l with text := l.text ++ blankMark p before }).Lays
      (pos + byteCount raw) raws.flatten ls) :
    (Open.line l).Lays pos (raw :: raws).flatten ls := by
  obtain ⟨⟨-, unbroken, breaks⟩, -⟩ := are
  obtain ⟨marks, blanks, content, blank⟩ := eq_of_beforeContinuation? mark
  obtain ⟨part, text, ended, rest, lines, flat, spaced, -, rfl, laid⟩ := later
  have raw_eq : raw = before ++ '\\' :: (blanks ++ term) := by
    rw [reads.whole, content, List.append_assoc, List.cons_append]
  refine ⟨before ++ ('\\' :: (blanks ++ term) ++ part), _, ended, rest, lines, ?_,
    .mark marks ?_ (newline_not_mem_of_mark (raw_eq ▸ unbroken)) ?_ spaced, ?_, ?_, ?_⟩
  · rw [List.flatten_cons, flat, raw_eq]
    simp only [List.append_assoc]
  · intro b mem
    exact (List.mem_append.mp mem).elim (blank b) (reads.blank b)
  · by_cases last : raws = []
    · subst last
      rw [List.flatten_nil, List.append_assoc, List.nil_eq_append_iff] at flat
      exact .inr flat.1
    · exact .inl (getLast?_of_mark (raw_eq ▸ breaks last))
  · exact fun _ empty => by simp at empty
  · rw [blankMark_eq content reads.terminator, List.append_assoc, List.append_assoc]
  · rw [← List.append_assoc before, ← raw_eq, List.append_assoc, byteCount_append,
      ← Nat.add_assoc]
    exact laid

/-- One more line of the source, taken in by the line that goes on. -/
theorem lays_extend {l : LogicalLine} (are : AreLines (raw :: raws)) (reads : p.Reads pos raw term)
    (later : ∀ o ls, gather o ps = .ok ls → o.Lays (pos + byteCount raw) raws.flatten ls)
    (gathered : gather (.line l) (p :: ps) = .ok ls) :
    (Open.line l).Lays pos (raw :: raws).flatten ls := by
  rw [gather] at gathered
  cases mark : beforeContinuation? p.content with
  | none =>
    rw [mark] at gathered
    obtain ⟨rest, others, taken⟩ := bind_eq_ok.mp gathered
    obtain rfl := Except.ok.inj taken
    have ends : continues p.content = false := by rw [continues, mark, Option.isSome_none]
    exact lays_last are reads ends (later .nothing rest others)
  | some before =>
    rw [mark] at gathered
    exact lays_continued are reads mark (later _ _ gathered)

/-- What is gathered from the lines of a text is laid out in it. -/
theorem lays_of_gather {o : Open} {n : Nat} (are : AreLines raws)
    (gathered : gather o (number n pos raws) = .ok ls) : o.Lays pos raws.flatten ls := by
  induction raws generalizing o n pos ls with
  | nil =>
    cases o with
    | nothing =>
      obtain rfl := Except.ok.inj gathered
      exact .nil
    | line l =>
      obtain rfl := Except.ok.inj gathered
      refine ⟨[], [], [], [], [], rfl, .line List.not_mem_nil rfl, (absurd rfl ·), ?_, .nil⟩
      rw [List.append_nil]
    | comment => cases gathered
  | cons raw raws ih =>
    obtain ⟨p, term, lines, reads⟩ := number_cons n pos raw raws
    have later : ∀ o ls, gather o (number (n + 1) (pos + byteCount raw) raws) = .ok ls →
        o.Lays (pos + byteCount raw) raws.flatten ls := fun _ _ => ih are.2
    rw [lines] at gathered
    rw [List.flatten_cons]
    cases o with
    | line l => exact lays_extend are reads later gathered
    | comment opened =>
      rw [gather] at gathered
      split at gathered
      · exact .skip (later .nothing ls gathered)
      · exact .skip (later (.comment opened) ls gathered)
    | nothing =>
      by_cases comment : opensComment p.content = true
      · rw [gather, if_pos comment] at gathered
        split at gathered
        · exact .skip (later .nothing ls gathered)
        · exact .skip (later (.comment p) ls gathered)
      · rw [gather, if_neg comment] at gathered
        obtain ⟨part, text, term, rest, lines, flat, spaced, some_text, rfl, laid⟩ :=
          lays_extend (l := { number := p.number, offset := p.offset }) are reads later gathered
        rw [List.flatten_cons] at flat some_text
        rw [flat, reads.offset]
        exact .line spaced (some_text (List.append_ne_nil_of_left_ne_nil are.1.1 _)) laid

/-- The logical lines of a source are laid out in it from its start on. -/
theorem laid_logicalLines {source : String} (split : logicalLines source = .ok ls) :
    Laid 0 source.toList ls := by
  have laid := lays_of_gather (o := .nothing) (areLines_rawLines source.toList) split
  rwa [flatten_rawLines] at laid

end Gathering

/-! ### Where lines lie -/

def LogicalLine.stop (l : LogicalLine) : Nat :=
  l.offset + byteCount l.text

/-- The line starts before the other one, and ends where the other starts or before. -/
def LogicalLine.Before (l l' : LogicalLine) : Prop :=
  l.offset < l'.offset ∧ l.stop ≤ l'.offset

section Lines

variable {pos : Nat} {cs : List Char} {ls : List LogicalLine}

theorem Laid.le_offset (laid : Laid pos cs ls) : ∀ l ∈ ls, pos ≤ l.offset := by
  induction laid with
  | nil => exact List.forall_mem_nil _
  | skip _ ih => exact fun l mem => Nat.le_trans (Nat.le_add_right _ _) (ih l mem)
  | line _ _ _ ih =>
    refine List.forall_mem_cons.mpr ⟨Nat.le_refl _, fun l mem => ?_⟩
    exact Nat.le_trans (Nat.le_add_right _ _) (ih l mem)

/-- The lines follow each other. -/
theorem Laid.pairwise (laid : Laid pos cs ls) : ls.Pairwise LogicalLine.Before := by
  induction laid with
  | nil => exact .nil
  | skip _ ih => exact ih
  | @line pos n cs term rest text ls spaced some_text later ih =>
    refine .cons (fun l mem => ?_) ih
    have from_here := later.le_offset l mem
    have size := byteCount_pos some_text
    have same := spaced.byteCount_eq
    rw [byteCount_append] at from_here size
    constructor
    · dsimp only
      omega
    · dsimp only [LogicalLine.stop]
      omega

/-- Every line is read from a stretch of the text. -/
theorem Laid.stretch (laid : Laid pos cs ls) : ∀ l ∈ ls, ∃ before part after,
    cs = before ++ (part ++ after) ∧ l.offset = pos + byteCount before ∧ Spaced part l.text := by
  induction laid with
  | nil => exact List.forall_mem_nil _
  | @skip pos comment rest ls _ ih =>
    intro l mem
    obtain ⟨before, part, after, rfl, offset, spaced⟩ := ih l mem
    refine ⟨comment ++ before, part, after, (List.append_assoc ..).symm, ?_, spaced⟩
    rw [offset, byteCount_append, Nat.add_assoc]
  | @line pos n cs term rest text ls spaced some_text later ih =>
    refine List.forall_mem_cons.mpr ⟨?_, fun l mem => ?_⟩
    · exact ⟨[], cs, term ++ rest, List.append_assoc .., rfl, spaced⟩
    · obtain ⟨before, part, after, rfl, offset, spaced⟩ := ih l mem
      refine ⟨cs ++ term ++ before, part, after, (List.append_assoc ..).symm, ?_, spaced⟩
      rw [offset, byteCount_append _ before, Nat.add_assoc]

end Lines

/-! ### What spaces hide -/

/-- `Veils cs text`: the text is `cs` with pieces of it hidden behind spaces. -/
inductive Veils : List Char → List Char → Prop where
  | nil : Veils [] []
  | same {c : Char} {cs text : List Char} (rest : Veils cs text) : Veils (c :: cs) (c :: text)
  | hide {hidden cs text : List Char} (rest : Veils cs text) :
      Veils (hidden ++ cs) (List.replicate (byteCount hidden) ' ' ++ text)

theorem Veils.prepend (shown : List Char) (rest : Veils cs text) :
    Veils (shown ++ cs) (shown ++ text) := by
  induction shown with
  | nil => exact rest
  | cons c shown ih => exact .same ih

/-- What continues a line is hidden, and everything else of it is shown. -/
theorem Spaced.veils (spaced : Spaced cs text) : Veils cs text := by
  induction spaced with
  | @line cs =>
    have all := Veils.prepend cs .nil
    rwa [List.append_nil] at all
  | mark _ _ _ _ _ ih => exact .prepend _ (.hide ih)

/-- What is not blank is not hidden. -/
theorem Veils.shows {c : Char} {before after : List Char} (veils : Veils cs text)
    (shown : text = before ++ c :: after) (visible : Text.isBlank c = false) :
    ∃ before' after', cs = before' ++ c :: after' ∧ byteCount before' = byteCount before ∧
      Veils after' after := by
  induction veils generalizing before with
  | nil => simp at shown
  | @same d cs text rest ih =>
    cases before with
    | nil =>
      obtain ⟨rfl, rfl⟩ := List.cons.inj shown
      exact ⟨[], cs, rfl, rfl, rest⟩
    | cons e before =>
      obtain ⟨rfl, later⟩ := List.cons.inj shown
      obtain ⟨before', after', rfl, size, rest⟩ := ih later
      exact ⟨d :: before', after', rfl, by rw [byteCount_cons, byteCount_cons, size], rest⟩
  | @hide hidden cs text rest ih =>
    have later : ∃ seen, before = List.replicate (byteCount hidden) ' ' ++ seen ∧
        text = seen ++ c :: after := by
      rcases List.append_eq_append_iff.mp shown with later | ⟨seen, spaces, later⟩
      · exact later
      · cases seen with
        | nil => exact ⟨[], by rw [spaces, List.append_nil, List.append_nil], later.symm⟩
        | cons d seen =>
          obtain ⟨rfl, -⟩ := List.cons.inj later
          have space : c ∈ List.replicate (byteCount hidden) ' ' := by
            rw [spaces]
            exact List.mem_append_right _ List.mem_cons_self
          rw [List.eq_of_mem_replicate space] at visible
          exact absurd visible (by decide)
    obtain ⟨seen, rfl, later⟩ := later
    obtain ⟨before', after', rfl, size, rest⟩ := ih later
    refine ⟨hidden ++ before', after', (List.append_assoc ..).symm, ?_, rest⟩
    rw [byteCount_append, byteCount_append, byteCount_spaces, size]

/-- A word of the text stands where it seems to stand. -/
theorem Veils.shows_word {word before after : List Char}
    (veils : Veils cs (before ++ (word ++ after))) (some_text : word ≠ [])
    (visible : ∀ c ∈ word, Text.isBlank c = false) :
    ∃ before' after', cs = before' ++ (word ++ after') ∧
      byteCount before' = byteCount before := by
  have start : ∀ {cs word : List Char}, Veils cs (word ++ after) →
      (∀ c ∈ word, Text.isBlank c = false) → ∃ after', cs = word ++ after' := by
    intro cs word veils visible
    induction word generalizing cs with
    | nil => exact ⟨cs, rfl⟩
    | cons c word ih =>
      obtain ⟨here, visible⟩ := List.forall_mem_cons.mp visible
      have shown : c :: word ++ after = [] ++ c :: (word ++ after) := rfl
      obtain ⟨before', after', rfl, size, rest⟩ := veils.shows shown here
      obtain rfl := eq_nil_of_byteCount size
      obtain ⟨after'', rfl⟩ := ih rest visible
      exact ⟨after'', rfl⟩
  cases word with
  | nil => exact absurd rfl some_text
  | cons c word =>
    obtain ⟨here, visible⟩ := List.forall_mem_cons.mp visible
    obtain ⟨before', after', rfl, size, rest⟩ := veils.shows rfl here
    obtain ⟨after'', rfl⟩ := start rest visible
    exact ⟨before', after'', rfl, size⟩

/-! ### Where tokens stand -/

/-- How the token is written: a quoted one between two quotes of one kind, any other one as it
is read. -/
def IsWritten (t : Token) (cs : List Char) : Prop :=
  if t.quoted then ∃ quote inner, isQuote quote = true ∧ cs = quote :: inner ++ [quote]
  else cs = t.text.toList ∧ cs ≠ [] ∧ ∀ c ∈ cs, Text.isBlank c = false

/-- The token starts before the other one, and ends where the other starts or before. -/
def Precedes (t t' : Token) : Prop :=
  t.span.start < t'.span.start ∧ t.span.stop ≤ t'.span.start

theorem IsWritten.ne_nil {t : Token} (written : IsWritten t cs) : cs ≠ [] := by
  unfold IsWritten at written
  split at written
  · obtain ⟨quote, inner, -, rfl⟩ := written
    exact List.cons_ne_nil _ _
  · exact written.2.1

@[simp] theorem start_tokenAt (start stop : Nat) (text : List Char) (quoted : Bool) :
    (tokenAt start stop text quoted).span.start = start :=
  rfl

theorem stop_tokenAt {start stop : Nat} (le : start ≤ stop) (text : List Char) (quoted : Bool) :
    (tokenAt start stop text quoted).span.stop = stop :=
  Nat.max_eq_right le

/-- The token stands in the text `cs`, which starts at the offset `pos`, where its range says. -/
def Stands (pos : Nat) (cs : List Char) (t : Token) : Prop :=
  ∃ before part after, cs = before ++ (part ++ after) ∧ t.span.start = pos + byteCount before ∧
    t.span.stop = t.span.start + byteCount part ∧ IsWritten t part

section Tokens

variable {first : Bool} {pos : Nat} {ts : Tokens} {t : Token}

theorem Stands.le_start (stands : Stands pos cs t) : pos ≤ t.span.start := by
  obtain ⟨before, part, after, -, start, -, -⟩ := stands
  exact start ▸ Nat.le_add_right _ _

theorem Stands.prepend (shown : List Char) (stands : Stands (pos + byteCount shown) cs t) :
    Stands pos (shown ++ cs) t := by
  obtain ⟨before, part, after, rfl, start, stop, written⟩ := stands
  refine ⟨shown ++ before, part, after, (List.append_assoc ..).symm, ?_, stop, written⟩
  rw [start, byteCount_append, Nat.add_assoc]

/-- A token where the text starts. -/
theorem stands_tokenAt {part text : List Char} {quoted : Bool} (rest : List Char)
    (written : IsWritten (tokenAt pos (pos + byteCount part) text quoted) part) :
    Stands pos (part ++ rest) (tokenAt pos (pos + byteCount part) text quoted) :=
  ⟨[], part, rest, rfl, rfl, stop_tokenAt (Nat.le_add_right _ _) text quoted, written⟩

/-- The tokens of a line stand in it one after the other. -/
theorem Lexes.stand (lexes : Lexes first pos cs ts) :
    (∀ t ∈ ts, Stands pos cs t) ∧ ts.Pairwise Precedes := by
  have put : ∀ {pos part text rest} {quoted : Bool} {ts : Tokens},
      IsWritten (tokenAt pos (pos + byteCount part) text quoted) part →
      (∀ t ∈ ts, Stands (pos + byteCount part) rest t) ∧ ts.Pairwise Precedes →
      (∀ t ∈ tokenAt pos (pos + byteCount part) text quoted :: ts, Stands pos (part ++ rest) t) ∧
        (tokenAt pos (pos + byteCount part) text quoted :: ts).Pairwise Precedes := by
    intro pos part text rest quoted ts written later
    have some_text := byteCount_pos written.ne_nil
    constructor
    · refine List.forall_mem_cons.mpr ⟨stands_tokenAt rest written, fun t mem => ?_⟩
      exact (later.1 t mem).prepend part
    · refine .cons (fun t mem => ?_) later.2
      have from_here := (later.1 t mem).le_start
      rw [Precedes, stop_tokenAt (Nat.le_add_right _ _), start_tokenAt]
      omega
  induction lexes with
  | nil => exact ⟨List.forall_mem_nil _, .nil⟩
  | @blank first pos c cs ts _ _ ih =>
    refine ⟨fun t mem => ?_, ih.2⟩
    exact Stands.prepend [c] (by simpa using ih.1 t mem)
  | comment => exact ⟨List.forall_mem_nil _, .nil⟩
  | word plain _ _ _ _ ih =>
    refine put ?_ ih
    rw [IsWritten, if_neg Bool.false_ne_true, String.toList_ofList]
    exact ⟨rfl, List.cons_ne_nil _ _, plain⟩
  | @quoted first pos quote cs text rest ts opens _ _ ih =>
    refine put ?_ ih
    rw [IsWritten, if_pos rfl]
    exact ⟨quote, cs, opens, rfl⟩

/-- A token stands in the source as it does in the line, whatever is hidden between words. -/
theorem Stands.of_veils {text : List Char} (veils : Veils cs text) (stands : Stands pos text t) :
    Stands pos cs t := by
  obtain ⟨before, part, after, rfl, start, stop, written⟩ := stands
  unfold IsWritten at written
  split at written
  case isTrue quoted =>
    obtain ⟨quote, inner, opens, rfl⟩ := written
    have visible := isBlank_of_isQuote opens
    have one : before ++ (quote :: inner ++ [quote] ++ after) =
        before ++ quote :: (inner ++ quote :: after) := by simp
    obtain ⟨before', later, rfl, size, rest⟩ := veils.shows one visible
    obtain ⟨inner', after', rfl, size', -⟩ := rest.shows rfl visible
    refine ⟨before', quote :: inner' ++ [quote], after', by simp, by rw [start, size], ?_, ?_⟩
    · rw [stop]
      simp [size']
    · rw [IsWritten, if_pos quoted]
      exact ⟨quote, inner', opens, rfl⟩
  case isFalse bare =>
    obtain ⟨before', after', rfl, size⟩ := veils.shows_word written.2.1 written.2.2
    refine ⟨before', part, after', rfl, by rw [start, size], stop, ?_⟩
    rwa [IsWritten, if_neg bare]

end Tokens

/-! ### Main theorem -/

/-- The line is read from the source at its offsets, with spaces for the marks in it. -/
def LogicalLine.IsIn (l : LogicalLine) (source : List Char) : Prop :=
  ∃ part, Stretch source l.offset l.stop part ∧ Spaced part l.text

/-- The token lies in the line, and stands in the source where its range says. -/
structure IsPlaced (source : List Char) (l : LogicalLine) (t : Token) : Prop where
  le_start : l.offset ≤ t.span.start
  stop_le : t.span.stop ≤ l.stop
  written : ∃ part, Stretch source t.span.start t.span.stop part ∧ IsWritten t part

/-- What stands in a line stands in the source, as far as the line is in it. -/
theorem isPlaced_of_stands {source : List Char} {l : LogicalLine} {t : Token}
    (line : l.IsIn source) (stands : Stands l.offset l.text t) : IsPlaced source l t := by
  obtain ⟨part, ⟨before, after, rfl, start, stop⟩, spaced⟩ := line
  obtain ⟨before', word, after', rfl, start', stop', written⟩ := stands.of_veils spaced.veils
  refine ⟨?_, ?_, word, ⟨before ++ before', after' ++ after, ?_, ?_, stop'⟩, written⟩
  · rw [start']
    exact Nat.le_add_right _ _
  · rw [stop, stop', start']
    simp only [byteCount_append]
    omega
  · simp only [List.append_assoc]
  · rw [start', start, byteCount_append]

/-- A logical line is read from where it lies. -/
theorem isIn_of_mem {source : String} {ls : List LogicalLine}
    (split : logicalLines source = .ok ls) {l : LogicalLine} (mem : l ∈ ls) :
    l.IsIn source.toList := by
  obtain ⟨before, part, after, whole, offset, spaced⟩ := (laid_logicalLines split).stretch l mem
  rw [Nat.zero_add] at offset
  refine ⟨part, ⟨before, after, whole, offset, ?_⟩, spaced⟩
  rw [LogicalLine.stop, spaced.byteCount_eq]

/-- The tokens of a line stand in the source one after the other, where their ranges say. -/
theorem isPlaced_of_tokenize {source : List Char} {l : LogicalLine} (line : l.IsIn source)
    {ts : Tokens} (lexed : tokenize l.text l.offset = .ok ts) :
    ts.Pairwise Precedes ∧ ∀ t ∈ ts, IsPlaced source l t := by
  obtain ⟨stand, apart⟩ := (lex_eq_ok_iff.mp lexed).stand
  exact ⟨apart, fun t mem => isPlaced_of_stands line (stand t mem)⟩

/-- The logical lines of a source lie in it one after the other, each read from where it lies;
and the tokens of each of them stand in the source one after the other, within their line and
where their ranges say. -/
theorem offsets_kept {source : String} {ls : List LogicalLine}
    (split : logicalLines source = .ok ls) :
    ls.Pairwise LogicalLine.Before ∧ ∀ l ∈ ls, l.IsIn source.toList ∧
      ∀ ts, tokenize l.text l.offset = .ok ts →
        ts.Pairwise Precedes ∧ ∀ t ∈ ts, IsPlaced source.toList l t := by
  refine ⟨(laid_logicalLines split).pairwise, fun l mem => ?_⟩
  have line := isIn_of_mem split mem
  exact ⟨line, fun ts lexed => isPlaced_of_tokenize line lexed⟩

/-- A source with a continued line, letters of several bytes, and a comment between lines. -/
def continuedSource : String :=
  "é = person \"Zoë\" \\ \r\n  'tag' # // c\r\n/* one\n two */\n\ngroup"

def continuedLines : List LogicalLine := [
  { number := 1, offset := 0, text := "é = person \"Zoë\"       'tag' # // c".toList },
  { number := 5, offset := 54, text := [] },
  { number := 6, offset := 55, text := "group".toList }]

/-- The lines of the source, which are in it where they say, with all their tokens. -/
theorem offsets_of_continuedLines : logicalLines continuedSource = .ok continuedLines ∧
    continuedLines.Pairwise LogicalLine.Before ∧
    ∀ l ∈ continuedLines, l.IsIn continuedSource.toList ∧
      ∀ ts, tokenize l.text l.offset = .ok ts →
        ts.Pairwise Precedes ∧ ∀ t ∈ ts, IsPlaced continuedSource.toList l t := by
  have split : logicalLines continuedSource = .ok continuedLines := rfl
  exact ⟨split, offsets_kept split⟩

end Edifice.Source
