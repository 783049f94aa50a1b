import Edifice.Source.Line
import Edifice.Proofs.Matches
import Mathlib.Algebra.GroupWithZero.Nat

/-!
Sources put together from pieces.

A source may be cut at any line break where neither a continued line nor a comment is under
way.  The logical lines of the whole are those of the pieces one after the other
(`logicalLines_append`), counted on from where the piece before ends; how lines are counted
makes no difference to what they say.
-/

namespace Edifice.Source

open Check

/-! ### Lines that say the same -/

def LogicalLine.Alike (l l' : LogicalLine) : Prop :=
  l'.text = l.text

/-- The lines stand at different places alone. -/
structure PhysicalLine.Alike (p p' : PhysicalLine) : Prop where
  content : p'.content = p.content
  terminator : p'.terminator = p.terminator

/-- Lines say the same when their texts are the same. -/
theorem alike_iff {ls ls' : List LogicalLine} :
    List.Forall₂ LogicalLine.Alike ls ls' ↔
      ls.map LogicalLine.text = ls'.map LogicalLine.text := by
  rw [← List.forall₂_eq_eq_eq, List.forall₂_map_left_iff, List.forall₂_map_right_iff]
  constructor
  · exact List.Forall₂.imp fun _ _ same => same.symm
  · exact List.Forall₂.imp fun _ _ same => same.symm

theorem alike_number (n n' offset offset' : Nat) (raws : List (List Char)) :
    List.Forall₂ PhysicalLine.Alike (number n offset raws) (number n' offset' raws) := by
  induction raws generalizing n n' offset offset' with
  | nil => exact .nil
  | cons raw rest ih => exact .cons ⟨rfl, rfl⟩ (ih ..)

/-! ### Text that ends with a line -/

def isWhole (s : String) : Bool :=
  s.toList.getLast?.all (· == '\n')

def ended (s : String) : String :=
  if isWhole s then s else s ++ "\n"

theorem rawLines_ne_nil {cs : List Char} (some_text : cs ≠ []) : rawLines cs ≠ [] := by
  cases cs with
  | nil => exact absurd rfl some_text
  | cons c cs =>
    unfold rawLines
    split
    · exact List.cons_ne_nil _ _
    · split <;> exact List.cons_ne_nil _ _

/-- A text that ends in a line break is cut on its own. -/
theorem rawLines_append {cs : List Char} (whole : cs.getLast?.all (· == '\n') = true)
    (ds : List Char) : rawLines (cs ++ ds) = rawLines cs ++ rawLines ds := by
  induction cs with
  | nil => rfl
  | cons c cs ih =>
    rw [List.cons_append]
    cases cs with
    | nil =>
      obtain rfl : c = '\n' := by simpa using whole
      simp [rawLines]
    | cons d cs =>
      rw [List.getLast?_cons_cons] at whole
      have later := ih whole
      by_cases breaks : c = '\n'
      · simp only [rawLines, breaks, if_true] at later ⊢
        rw [later, List.cons_append]
      · conv_lhs => rw [rawLines, if_neg breaks, later]
        conv_rhs => rw [rawLines, if_neg breaks]
        have some_line : rawLines (d :: cs) ≠ [] := rawLines_ne_nil (List.cons_ne_nil _ _)
        cases lines : rawLines (d :: cs) with
        | nil => exact absurd lines some_line
        | cons l ls => rfl

/-- A line break after a text without one at its end makes its last line longer. -/
theorem rawLines_unfinished {cs : List Char} (unfinished : cs.getLast?.all (· == '\n') = false) :
    ∃ init last, rawLines cs = init ++ [last] ∧
      rawLines (cs ++ ['\n']) = init ++ [last ++ ['\n']] := by
  induction cs with
  | nil => cases unfinished
  | cons c cs ih =>
    rw [List.cons_append]
    cases cs with
    | nil =>
      have other : c ≠ '\n' := by simpa using unfinished
      exact ⟨[], [c], by simp [rawLines, other], by simp [rawLines, other]⟩
    | cons d cs =>
      rw [List.getLast?_cons_cons] at unfinished
      obtain ⟨init, last, lines, lines'⟩ := ih unfinished
      rw [rawLines, lines, rawLines, lines']
      by_cases breaks : c = '\n'
      · exact ⟨[c] :: init, last, by simp [breaks], by simp [breaks]⟩
      · cases init with
        | nil => exact ⟨[], c :: last, by simp [breaks], by simp [breaks]⟩
        | cons l ls => exact ⟨(c :: l) :: ls, last, by simp [breaks], by simp [breaks]⟩

/-- Lines are numbered on, and their offsets counted on, from one text to the next. -/
theorem number_append (n offset : Nat) (raws raws' : List (List Char)) :
    number n offset (raws ++ raws') = number n offset raws ++
      number (n + raws.length) (offset + (raws.map byteCount).sum) raws' := by
  induction raws generalizing n offset with
  | nil => simp [number]
  | cons raw rest ih =>
    simp only [List.cons_append, number, ih, List.length_cons, List.map_cons, List.sum_cons]
    congr 3 <;> omega

/-- After a text that ends with a line, further text is cut as it is by itself. -/
theorem physicalLines_append {s : String} (whole : isWhole s = true) (t : String) :
    ∃ ps, physicalLines (s ++ t) = physicalLines s ++ ps ∧
      List.Forall₂ PhysicalLine.Alike (physicalLines t) ps := by
  refine ⟨_, ?_, alike_number 1 (1 + (rawLines s.toList).length) 0
    (0 + ((rawLines s.toList).map byteCount).sum) (rawLines t.toList)⟩
  rw [physicalLines, String.toList_append, rawLines_append whole, number_append]
  rfl

/-! ### Gathering lines, one after the other -/

/-- The line with one more physical line, completed or open. -/
def LogicalLine.extend (l : LogicalLine) (p : PhysicalLine) : List LogicalLine × Open :=
  match beforeContinuation? p.content with
  | some before => ([], .line { l with text := l.text ++ blankMark p before })
  | none => ([{ l with text := l.text ++ p.content }], .nothing)

/-- The logical lines that one more physical line completes, and what it leaves open. -/
def Open.take (o : Open) (p : PhysicalLine) : List LogicalLine × Open :=
  match o with
  | .nothing =>
    if opensComment p.content then ([], if isWholeComment p.content then .nothing else .comment p)
    else LogicalLine.extend { number := p.number, offset := p.offset } p
  | .line l => l.extend p
  | .comment opened => ([], if closesComment p.content then .nothing else .comment opened)

def Open.after (o : Open) : List PhysicalLine → Open
  | [] => o
  | p :: ps => (o.take p).2.after ps

def Open.lines (o : Open) : List PhysicalLine → List LogicalLine
  | [] => []
  | p :: ps => (o.take p).1 ++ (o.take p).2.lines ps

variable {o o' : Open} {p p' : PhysicalLine} {ps ps' qs : List PhysicalLine}

theorem map_nothing_before (x : Except PhysicalLine (List LogicalLine)) :
    x = x.map ([] ++ ·) := by
  cases x <;> rfl

theorem gather_extend (l : LogicalLine) (p : PhysicalLine) (ps : List PhysicalLine) :
    gather (.line l) (p :: ps) = (gather (l.extend p).2 ps).map ((l.extend p).1 ++ ·) := by
  rw [gather, LogicalLine.extend]
  cases beforeContinuation? p.content with
  | some before => exact map_nothing_before _
  | none =>
    dsimp only
    cases gather .nothing ps <;> rfl

/-- Lines are gathered one by one, each into what is open. -/
theorem gather_cons (o : Open) (p : PhysicalLine) (ps : List PhysicalLine) :
    gather o (p :: ps) = (gather (o.take p).2 ps).map ((o.take p).1 ++ ·) := by
  cases o with
  | nothing =>
    by_cases comment : opensComment p.content = true
    · rw [gather, Open.take, if_pos comment, if_pos comment]
      exact map_nothing_before _
    · have fresh := gather_extend { number := p.number, offset := p.offset } p ps
      rw [gather] at fresh
      rw [gather, Open.take, if_neg comment, if_neg comment]
      exact fresh
  | line l => exact gather_extend l p ps
  | comment opened => exact map_nothing_before _

/-- Lines are gathered from where those before them leave off. -/
theorem gather_append (o : Open) (ps qs : List PhysicalLine) :
    gather o (ps ++ qs) = (gather (o.after ps) qs).map (o.lines ps ++ ·) := by
  induction ps generalizing o with
  | nil =>
    rw [List.nil_append, Open.after]
    cases gather o qs <;> rfl
  | cons p ps ih =>
    rw [List.cons_append, gather_cons, ih, Open.after, Open.lines]
    cases gather ((o.take p).2.after ps) qs with
    | error opened => rfl
    | ok ls => exact congrArg Except.ok (List.append_assoc ..).symm

theorem gather_of_after (closed : o.after ps = .nothing) : gather o ps = .ok (o.lines ps) := by
  have all := gather_append o ps []
  rw [List.append_nil, closed] at all
  simpa [gather, Except.map] using all

/-! ### The same lines at other places -/

/-- The same is left open at different places. -/
inductive Open.Alike : Open → Open → Prop where
  | nothing : Alike .nothing .nothing
  | line {l l' : LogicalLine} (same : l.Alike l') : Alike (.line l) (.line l')
  | comment (p p' : PhysicalLine) : Alike (.comment p) (.comment p')

/-- Lines that say the same are continued alike. -/
theorem LogicalLine.Alike.extend {l l' : LogicalLine} (same : l.Alike l') (alike : p.Alike p') :
    List.Forall₂ LogicalLine.Alike (l.extend p).1 (l'.extend p').1 ∧
      (l.extend p).2.Alike (l'.extend p').2 := by
  have text : l'.text = l.text := same
  have mark : ∀ before, blankMark p' before = blankMark p before := by
    intro before
    rw [blankMark, alike.content, alike.terminator, blankMark]
  unfold LogicalLine.extend
  rw [alike.content]
  split
  · refine ⟨.nil, .line ?_⟩
    rw [LogicalLine.Alike, text, mark]
  · refine ⟨.cons ?_ .nil, .nothing⟩
    rw [LogicalLine.Alike, text]

/-- What is open takes the next line alike, whether it is a line or a comment. -/
theorem Open.Alike.take (opened : o.Alike o') (alike : p.Alike p') :
    List.Forall₂ LogicalLine.Alike (o.take p).1 (o'.take p').1 ∧
      (o.take p).2.Alike (o'.take p').2 := by
  cases opened with
  | nothing =>
    simp only [Open.take, alike.content]
    by_cases comment : opensComment p.content = true
    · rw [if_pos comment, if_pos comment]
      refine ⟨.nil, ?_⟩
      dsimp only
      split
      · exact .nothing
      · exact .comment p p'
    · rw [if_neg comment, if_neg comment]
      exact LogicalLine.Alike.extend rfl alike
  | line same => exact same.extend alike
  | comment q q' =>
    simp only [Open.take, alike.content]
    refine ⟨.nil, ?_⟩
    split
    · exact .nothing
    · exact .comment q q'

/-- The same lines are gathered into the same logical ones, or both end in an open comment. -/
theorem matches_gather (opened : o.Alike o') (alike : List.Forall₂ PhysicalLine.Alike ps ps') :
    Matches (gather o ps) (gather o' ps') (List.Forall₂ LogicalLine.Alike) fun _ _ => True := by
  induction alike generalizing o o' with
  | nil =>
    cases opened with
    | nothing => exact .ok .nil
    | line same => exact .ok (.cons same .nil)
    | comment => exact .error trivial
  | cons first _ ih =>
    obtain ⟨lines, opened⟩ := opened.take first
    rw [gather_cons, gather_cons]
    exact .map ((ih opened).mono fun _ _ later => List.rel_append lines later)

/-- Where nothing is left open, the line break at the end of the line makes no difference. -/
theorem take_of_content (content : p'.content = p.content) (closed : (o.take p).2 = .nothing) :
    (o.take p').2 = .nothing ∧ List.Forall₂ LogicalLine.Alike (o.take p).1 (o.take p').1 := by
  have extend : ∀ l l' : LogicalLine, l.Alike l' → (l.extend p).2 = .nothing →
      (l'.extend p').2 = .nothing ∧
        List.Forall₂ LogicalLine.Alike (l.extend p).1 (l'.extend p').1 := by
    intro l l' same closed
    unfold LogicalLine.extend at closed ⊢
    rw [content]
    cases mark : beforeContinuation? p.content with
    | some before =>
      rw [mark] at closed
      cases closed
    | none => exact ⟨rfl, .cons (congrArg (· ++ p.content) same) .nil⟩
  cases o with
  | nothing =>
    simp only [Open.take, content] at closed ⊢
    by_cases comment : opensComment p.content = true
    · rw [if_pos comment] at closed
      rw [if_pos comment, if_pos comment]
      by_cases whole : isWholeComment p.content = true
      · rw [if_pos whole]
        exact ⟨rfl, .nil⟩
      · rw [if_neg whole] at closed
        cases closed
    · rw [if_neg comment] at closed
      rw [if_neg comment, if_neg comment]
      exact extend _ _ rfl closed
  | line l => exact extend l l rfl closed
  | comment opened =>
    simp only [Open.take, content] at closed ⊢
    exact ⟨closed, .nil⟩

/-! ### Pieces of a source -/

/-- What a text leaves open at its end. -/
def opened (s : String) : Open :=
  Open.nothing.after (physicalLines s)

/-- A source can be cut after the text: it ends with a line, and leaves nothing open. -/
structure IsBoundary (s : String) : Prop where
  whole : isWhole s = true
  closed : opened s = .nothing

theorem logicalLines_of_closed {s : String} (closed : opened s = .nothing) :
    logicalLines s = .ok (Open.nothing.lines (physicalLines s)) :=
  gather_of_after closed

/-- `ls'` are lines `before`, and then lines as in `ls`. -/
def Continues (before ls ls' : List LogicalLine) : Prop :=
  ∃ rest, ls' = before ++ rest ∧ List.Forall₂ LogicalLine.Alike ls rest

/-- The lines of two pieces are those of the first, then those of the second. -/
theorem logicalLines_append {s t : String} {ls : List LogicalLine} (split : logicalLines s = .ok ls)
    (apart : IsBoundary s ∨ t = "") :
    Matches (logicalLines t) (logicalLines (s ++ t)) (Continues ls) fun _ _ => True := by
  rcases apart with boundary | rfl
  · obtain ⟨ps, lines, alike⟩ := physicalLines_append boundary.whole t
    rw [logicalLines_of_closed boundary.closed] at split
    obtain rfl := Except.ok.inj split
    have closed : Open.nothing.after (physicalLines s) = .nothing := boundary.closed
    unfold logicalLines
    rw [lines, gather_append, closed]
    have both := matches_gather .nothing alike
    generalize gather .nothing (physicalLines t) = x at both ⊢
    generalize gather .nothing ps = y at both ⊢
    cases both with
    | ok same => exact .ok ⟨_, rfl, same⟩
    | error => exact .error trivial
  · rw [String.append_empty, split]
    exact .ok ⟨[], (List.append_nil _).symm, .nil⟩

/-- The lines of a source around a piece of it. -/
theorem logicalLines_around {s t u : String} {a b : List LogicalLine} (start : IsBoundary s)
    (before : logicalLines s = .ok a) (split : logicalLines t = .ok b)
    (apart : IsBoundary t ∨ u = "") :
    Matches (logicalLines u) (logicalLines (s ++ (t ++ u)))
      (fun c ls => Continues a (b ++ c) ls) fun _ _ => True := by
  have inner := logicalLines_append split apart
  have outer := logicalLines_append before (.inl start) (t := t ++ u)
  generalize logicalLines u = x at inner
  generalize logicalLines (t ++ u) = y at inner outer
  generalize logicalLines (s ++ (t ++ u)) = z at outer
  cases inner with
  | error =>
    cases outer
    exact .error trivial
  | @ok c _ _ _ inner =>
    obtain ⟨c', rfl, same⟩ := inner
    cases outer with
    | ok outer =>
      obtain ⟨r, rfl, moved⟩ := outer
      refine .ok ⟨r, rfl, ?_⟩
      rw [alike_iff] at same moved ⊢
      rw [← moved, List.map_append, List.map_append, same]

theorem dropEndWhile_snoc {f : Char → Bool} {c : Char} (drops : f c = true) (cs : List Char) :
    Text.dropEndWhile f (cs ++ [c]) = Text.dropEndWhile f cs := by
  simp [Text.dropEndWhile, drops]

theorem Open.after_append (o : Open) (ps qs : List PhysicalLine) :
    o.after (ps ++ qs) = (o.after ps).after qs := by
  induction ps generalizing o with
  | nil => rfl
  | cons p ps ih => exact ih _

theorem Open.lines_append (o : Open) (ps qs : List PhysicalLine) :
    o.lines (ps ++ qs) = o.lines ps ++ (o.after ps).lines qs := by
  induction ps generalizing o with
  | nil => rfl
  | cons p ps ih => simp only [List.cons_append, Open.lines, Open.after, ih, List.append_assoc]

/-- The last line of a text without a line break at its end, without and with one. -/
theorem physicalLines_unfinished {s : String} (unfinished : isWhole s = false) :
    ∃ ps p p', physicalLines s = ps ++ [p] ∧ physicalLines (s ++ "\n") = ps ++ [p'] ∧
      p'.content = p.content := by
  obtain ⟨init, last, lines, lines'⟩ := rawLines_unfinished unfinished
  have single : ∀ n offset raw, ∃ p : PhysicalLine, number n offset [raw] = [p] ∧
      p.content = Text.dropEndWhile (fun c => c == '\n' || c == '\r') raw :=
    fun n offset raw => ⟨_, rfl, rfl⟩
  obtain ⟨p, own, content⟩ := single (1 + init.length) (0 + (init.map byteCount).sum) last
  obtain ⟨p', own', content'⟩ :=
    single (1 + init.length) (0 + (init.map byteCount).sum) (last ++ ['\n'])
  refine ⟨number 1 0 init, p, p', ?_, ?_, ?_⟩
  · rw [physicalLines, lines, number_append, own]
  · have text : (s ++ "\n").toList = s.toList ++ ['\n'] := String.toList_append
    rw [physicalLines, text, lines', number_append, own']
  · rw [content', content, dropEndWhile_snoc rfl]

/-- A line break at the end of a text that leaves nothing open ends its last line. -/
theorem ended_of_closed {s : String} (closed : opened s = .nothing) :
    IsBoundary (ended s) ∧ List.Forall₂ LogicalLine.Alike
      (Open.nothing.lines (physicalLines s)) (Open.nothing.lines (physicalLines (ended s))) := by
  unfold ended
  by_cases whole : isWhole s = true
  · rw [if_pos whole]
    exact ⟨⟨whole, closed⟩, List.forall₂_same.mpr fun _ _ => rfl⟩
  · rw [if_neg whole]
    obtain ⟨ps, p, p', lines, lines', content⟩ :=
      physicalLines_unfinished (Bool.of_not_eq_true whole)
    rw [opened, lines, Open.after_append] at closed
    obtain ⟨closed', same⟩ := take_of_content content closed
    constructor
    · constructor
      · simp [isWhole]
      · rw [opened, lines', Open.after_append]
        exact closed'
    · rw [lines, lines', Open.lines_append, Open.lines_append]
      apply List.rel_append
      · exact List.forall₂_same.mpr fun _ _ => rfl
      · exact List.rel_append same .nil

/-- Only a continued line leaves a line open. -/
theorem continues_of_take {l : LogicalLine} (left : (o.take p).2 = .line l) :
    continues p.content = true := by
  have extend : ∀ l' : LogicalLine, (l'.extend p).2 = .line l → continues p.content = true := by
    intro l' left
    unfold LogicalLine.extend at left
    cases mark : beforeContinuation? p.content with
    | some before => rw [continues, mark, Option.isSome_some]
    | none =>
      rw [mark] at left
      cases left
  cases o with
  | nothing =>
    rw [Open.take] at left
    split at left
    · dsimp only at left
      split at left <;> cases left
    · exact extend _ left
  | line l' => exact extend l' left
  | comment q =>
    rw [Open.take] at left
    dsimp only at left
    split at left <;> cases left

/-- A text that is split into lines, the last of which is not continued, leaves nothing open. -/
theorem opened_of_uncontinued {s : String} {ls : List LogicalLine}
    (split : logicalLines s = .ok ls)
    (last : ∀ p, (physicalLines s).getLast? = some p → continues p.content = false) :
    opened s = .nothing := by
  have all := gather_append .nothing (physicalLines s) []
  rw [List.append_nil, ← logicalLines, split] at all
  unfold opened
  cases left : Open.nothing.after (physicalLines s) with
  | nothing => rfl
  | comment p =>
    rw [left] at all
    cases all
  | line l =>
    exfalso
    rcases List.eq_nil_or_concat (physicalLines s) with none | ⟨init, p, lines⟩
    · rw [none] at left
      cases left
    · rw [List.concat_eq_append] at lines
      rw [lines, Open.after_append] at left
      have uncontinued : continues p.content = false := by
        apply last
        rw [lines, List.getLast?_concat]
      rw [continues_of_take left] at uncontinued
      cases uncontinued

end Edifice.Source
