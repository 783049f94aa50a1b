import Edifice.Proofs.Source.Offsets

/-!
Character boundaries and line numbers.

The lines of a source start where it says that they do: with as many line breaks before them
as their number counts (`StartsLine`).  What the lexer reports of a line, the ranges of its
tokens or that of quotes without an end, starts and stops at a character that is not blank or
at the end of the line (`Shown`).  Spaces that stand for a mark hide no such place, so these
are places between characters of the source as well (`boundaries_kept`).
-/

namespace Edifice

open Check

/-- Both ends of the range are in the set. -/
structure Span.Ends (S : Nat → Prop) (span : Span) : Prop where
  start : S span.start
  stop : S span.stop

theorem Span.Ends.between {S : Nat → Prop} {start stop : Nat} (start_mem : S start)
    (stop_mem : S stop) (le : start ≤ stop) : (Span.between start stop).Ends S where
  start := start_mem
  stop := by
    change S (max start stop)
    rwa [Nat.max_eq_right le]

namespace Source

/-- The offset is that of a place between characters of the text, or of one of its ends. -/
def OnBoundary (text : List Char) (offset : Nat) : Prop :=
  ∃ before after, text = before ++ after ∧ byteCount before = offset

/-- The line with this number starts at the offset, after as many line breaks. -/
def StartsLine (text : List Char) (number offset : Nat) : Prop :=
  ∃ before after, text = before ++ after ∧ byteCount before = offset ∧
    number = before.count '\n' + 1

section Boundaries

variable {text cs : List Char} {number offset start stop : Nat}

theorem onBoundary_zero (text : List Char) : OnBoundary text 0 :=
  ⟨[], text, rfl, rfl⟩

/-- Boundaries lie within the text. -/
theorem OnBoundary.le (boundary : OnBoundary text offset) : offset ≤ byteCount text := by
  obtain ⟨before, after, rfl, rfl⟩ := boundary
  rw [byteCount_append]
  exact Nat.le_add_right _ _

theorem StartsLine.onBoundary (starts : StartsLine text number offset) :
    OnBoundary text offset := by
  obtain ⟨before, after, whole, size, -⟩ := starts
  exact ⟨before, after, whole, size⟩

/-- A stretch of text starts and stops between characters. -/
theorem Stretch.onBoundary (stretch : Stretch text start stop cs) :
    OnBoundary text start ∧ OnBoundary text stop := by
  obtain ⟨before, after, rfl, rfl, rfl⟩ := stretch
  refine ⟨⟨before, _, rfl, rfl⟩, before ++ cs, after, (List.append_assoc ..).symm, ?_⟩
  rw [byteCount_append]

end Boundaries

/-! ### Numbered lines -/

/-- The line stands in the text, where its offset and its number say. -/
def PhysicalLine.StandsIn (p : PhysicalLine) (text : List Char) : Prop :=
  ∃ before after, text = before ++ (p.content ++ after) ∧ byteCount before = p.offset ∧
    p.number = before.count '\n' + 1

theorem PhysicalLine.StandsIn.startsLine {p : PhysicalLine} {text : List Char}
    (stands : p.StandsIn text) : StartsLine text p.number p.offset := by
  obtain ⟨before, after, whole, size, number⟩ := stands
  exact ⟨before, p.content ++ after, whole, size, number⟩

theorem PhysicalLine.StandsIn.onBoundary {p : PhysicalLine} {text : List Char}
    (stands : p.StandsIn text) : OnBoundary text (p.offset + byteCount p.content) := by
  obtain ⟨before, after, rfl, size, -⟩ := stands
  refine ⟨before ++ p.content, after, (List.append_assoc ..).symm, ?_⟩
  rw [byteCount_append, size]

/-- A line that others follow has one line break. -/
theorem count_of_ended {raw : List Char} (unbroken : '\n' ∉ raw.dropLast)
    (ends : raw.getLast? = some '\n') : raw.count '\n' = 1 := by
  have whole : raw = raw.dropLast ++ ['\n'] := List.dropLast_append_getLast? _ ends |>.symm
  rw [whole, List.count_append, List.count_eq_zero_of_not_mem unbroken]
  rfl

/-- Lines are numbered by the line breaks before them. -/
theorem standsIn_of_number {raws : List (List Char)} (are : AreLines raws)
    (before : List Char) : ∀ p ∈ number (before.count '\n' + 1) (byteCount before) raws,
      p.StandsIn (before ++ raws.flatten) := by
  induction raws generalizing before with
  | nil => exact List.forall_mem_nil _
  | cons raw raws ih =>
    obtain ⟨⟨-, unbroken, ends⟩, later⟩ := are
    obtain ⟨term, whole, -⟩ := eq_dropEndWhile_append (fun c => c == '\n' || c == '\r') raw
    refine List.forall_mem_cons.mpr ⟨⟨before, term ++ raws.flatten, ?_, rfl, rfl⟩, ?_⟩
    · rw [← List.append_assoc _ term, ← whole, List.flatten_cons]
    · cases raws with
      | nil => exact List.forall_mem_nil _
      | cons next others =>
        have one := count_of_ended unbroken (ends (List.cons_ne_nil _ _))
        have rest := ih later (before ++ raw)
        rw [List.count_append, one, byteCount_append, List.append_assoc,
          ← List.flatten_cons] at rest
        exact rest

/-- What is left open before some lines stands in the text. -/
def Open.StandsIn (text : List Char) : Open → Prop
  | .nothing => True
  | .line l => StartsLine text l.number l.offset
  | .comment p => p.StandsIn text

/-- A logical line starts where the first of its lines does. -/
theorem yields_gather {text : List Char} {ps : List PhysicalLine} {o : Open}
    (stand : ∀ p ∈ ps, p.StandsIn text) (opened : o.StandsIn text) :
    Yields (gather o ps) (fun ls => ∀ l ∈ ls, StartsLine text l.number l.offset)
      (·.StandsIn text) := by
  induction ps generalizing o with
  | nil =>
    cases o with
    | nothing => exact .ok (List.forall_mem_nil _)
    | line l => exact .ok (List.forall_mem_singleton.mpr opened)
    | comment p => exact .error opened
  | cons p ps ih =>
    obtain ⟨here, later⟩ := List.forall_mem_cons.mp stand
    have put : ∀ {l : LogicalLine}, StartsLine text l.number l.offset →
        Yields (do return l :: (← gather .nothing ps))
          (fun ls => ∀ l ∈ ls, StartsLine text l.number l.offset) (·.StandsIn text) :=
      fun starts => .bind (ih later (o := .nothing) trivial) fun _ rest =>
        .ok (List.forall_mem_cons.mpr ⟨starts, rest⟩)
    cases o with
    | comment opener =>
      rw [gather]
      split
      · exact ih later trivial
      · exact ih later opened
    | line l =>
      rw [gather]
      split
      · exact ih later opened
      · exact put opened
    | nothing =>
      rw [gather]
      split
      · split
        · exact ih later trivial
        · exact ih later here
      · split
        · exact ih later here.startsLine
        · exact put here.startsLine

/-- Every logical line starts where a line of the text does, and under its number. -/
theorem yields_logicalLines (source : String) :
    Yields (logicalLines source)
      (fun ls => ∀ l ∈ ls, StartsLine source.toList l.number l.offset)
      (·.StandsIn source.toList) := by
  have stand := standsIn_of_number (areLines_rawLines source.toList) []
  rw [List.nil_append, flatten_rawLines] at stand
  exact yields_gather stand trivial

/-! ### Places in a line -/

/-- The offset is that of a character which is not blank, or of the end of the text, which
starts at `pos`. -/
def Shown (pos : Nat) (cs : List Char) (offset : Nat) : Prop :=
  offset = pos + byteCount cs ∨
    ∃ before c after, cs = before ++ c :: after ∧ Text.isBlank c = false ∧
      offset = pos + byteCount before

section Shown

variable {pos offset : Nat} {c : Char} {cs text : List Char}

theorem Shown.here (visible : Text.isBlank c = false) : Shown pos (c :: cs) pos :=
  .inr ⟨[], c, cs, rfl, visible, rfl⟩

theorem Shown.cons (shown : Shown (pos + c.utf8Size) cs offset) : Shown pos (c :: cs) offset := by
  rcases shown with rfl | ⟨before, d, after, rfl, visible, rfl⟩
  · exact .inl (by rw [byteCount_cons, Nat.add_assoc])
  · exact .inr ⟨c :: before, d, after, rfl, visible, by rw [byteCount_cons, Nat.add_assoc]⟩

/-- What is shown of a veiled text is a place in the text. -/
theorem Shown.onBoundary {before after : List Char} (shown : Shown (byteCount before) text offset)
    (veils : Veils cs text) (size : byteCount text = byteCount cs) :
    OnBoundary (before ++ (cs ++ after)) offset := by
  rcases shown with rfl | ⟨ahead, c, rest, rfl, visible, rfl⟩
  · refine ⟨before ++ cs, after, (List.append_assoc ..).symm, ?_⟩
    rw [byteCount_append, size]
  · obtain ⟨ahead', rest', rfl, same, -⟩ := veils.shows rfl visible
    refine ⟨before ++ ahead', c :: rest' ++ after, by simp only [List.append_assoc], ?_⟩
    rw [byteCount_append, same]

end Shown

/-- Where the quotes start that the lexer is in. -/
def LexerState.opened? : LexerState → Option Nat
  | .quoted _ start _ | .escaped _ start _ => some start
  | .between _ | .bare _ _ => none

theorem stop_openRange {start pos : Nat} (earlier : start < pos) :
    (openRange start pos).stop = pos := by
  rw [openRange, Nat.max_eq_left earlier]
  exact Nat.max_eq_right (Nat.le_of_lt earlier)

theorem error_of_bind {ε α β : Type} {x : Except ε α} {f : α → β} {e : ε}
    (failed : (x >>= fun a => pure (f a)) = .error e) : x = .error e := by
  cases x with
  | ok a => cases failed
  | error e' => exact congrArg Except.error (Except.error.inj failed)

/-- Quotes without an end start at a quote, and go up to the end of the line or to the
backslash that ends it. -/
theorem shown_of_lex {s : LexerState} {pos : Nat} {cs : List Char} {span : Span}
    (earlier : ∀ start ∈ s.opened?, start < pos) (failed : lex s pos cs = .error span) :
    (s.opened? = some span.start ∨ Shown pos cs span.start) ∧ Shown pos cs span.stop := by
  induction cs generalizing s pos with
  | nil =>
    cases s with
    | between | bare => cases failed
    | quoted quote start text | escaped quote start text =>
      obtain rfl := Except.error.inj failed
      exact ⟨.inl rfl, .inl (stop_openRange (earlier start rfl))⟩
  | cons c cs ih =>
    have next : ∀ {s' : LexerState}, lex s' (pos + c.utf8Size) cs = .error span →
        (∀ start ∈ s'.opened?, start < pos + c.utf8Size) →
        (∀ start, s'.opened? = some start → s.opened? = some start ∨ Shown pos (c :: cs) start) →
        (s.opened? = some span.start ∨ Shown pos (c :: cs) span.start) ∧
          Shown pos (c :: cs) span.stop := by
      intro s' failed earlier same
      obtain ⟨start, stop⟩ := ih earlier failed
      exact ⟨start.elim (same _) fun shown => .inr shown.cons, stop.cons⟩
    have past : ∀ {start : Nat}, start < pos → start < pos + c.utf8Size :=
      fun earlier => Nat.lt_add_right _ earlier
    unfold lex at failed
    cases s with
    | between first =>
      dsimp only at failed
      by_cases blank : Text.isBlank c = true
      · rw [if_pos blank] at failed
        exact next failed (by rintro _ ⟨⟩) (by rintro _ ⟨⟩)
      rw [if_neg blank] at failed
      by_cases comment : startsComment first c cs = true
      · rw [if_pos comment] at failed
        cases failed
      rw [if_neg comment] at failed
      by_cases quote : isQuote c = true
      · rw [if_pos quote] at failed
        have here : Shown pos (c :: cs) pos := .here (isBlank_of_isQuote quote)
        refine next failed ?_ ?_
        · rintro _ ⟨⟩
          exact Nat.lt_add_of_pos_right c.utf8Size_pos
        · rintro _ ⟨⟩
          exact .inr here
      · rw [if_neg quote] at failed
        exact next failed (by rintro _ ⟨⟩) (by rintro _ ⟨⟩)
    | bare start text =>
      dsimp only at failed
      split at failed
      · exact next (error_of_bind failed) (by rintro _ ⟨⟩) (by rintro _ ⟨⟩)
      · exact next failed (by rintro _ ⟨⟩) (by rintro _ ⟨⟩)
    | quoted quote start text =>
      have within : ∀ start' ∈ some start, start' < pos + c.utf8Size := fun _ own =>
        past (earlier _ own)
      dsimp only at failed
      split at failed
      · exact next (error_of_bind failed) (by rintro _ ⟨⟩) (by rintro _ ⟨⟩)
      split at failed
      case isTrue backslash =>
        subst backslash
        split at failed
        · obtain rfl := Except.error.inj failed
          have here : Shown pos ('\\' :: cs) pos := .here (by decide)
          rw [stop_openRange (earlier start rfl)]
          exact ⟨.inl rfl, here⟩
        · split at failed
          · exact next failed within fun _ => .inl
          · exact next failed within fun _ => .inl
      case isFalse => exact next failed within fun _ => .inl
    | escaped quote start text =>
      exact next failed (fun _ own => past (earlier _ own)) fun _ => .inl

/-! ### Main theorem -/

/-- What a line says of its place in the source: where it starts and ends, the ranges of its
tokens, and where quotes in it have no end. -/
structure LogicalLine.Places (l : LogicalLine) (text : List Char) : Prop where
  starts : StartsLine text l.number l.offset
  stop : OnBoundary text l.stop
  ranges : Yields (tokenize l.text l.offset) (fun ts => ∀ t ∈ ts, t.span.Ends (OnBoundary text))
    (·.Ends (OnBoundary text))

/-- The lines of a source stand where they say, as does a line that opens a comment without
an end; and all ranges in lines start and stop between characters of the source. -/
theorem boundaries_kept (source : String) :
    Yields (logicalLines source) (fun ls => ∀ l ∈ ls, l.Places source.toList)
      (·.StandsIn source.toList) := by
  have numbered := yields_logicalLines source
  cases split : logicalLines source with
  | error opened =>
    rw [split] at numbered
    cases numbered with
    | error stands => exact .error stands
  | ok ls =>
    rw [split] at numbered
    cases numbered with
    | ok starts =>
    refine .ok fun l mem => ?_
    have line := isIn_of_mem split mem
    have ⟨part, stretch, spaced⟩ := line
    refine ⟨starts l mem, stretch.onBoundary.2, ?_⟩
    cases lexed : tokenize l.text l.offset with
    | ok ts =>
      refine .ok fun t listed => ?_
      obtain ⟨_, stands, -⟩ := ((isPlaced_of_tokenize line lexed).2 t listed).written
      exact ⟨stands.onBoundary.1, stands.onBoundary.2⟩
    | error span =>
      obtain ⟨before, after, whole, offset, -⟩ := stretch
      rw [tokenize, offset] at lexed
      obtain ⟨start, stop⟩ := shown_of_lex (by rintro _ ⟨⟩) lexed
      have here : ∀ {n}, Shown (byteCount before) l.text n → OnBoundary source.toList n :=
        fun shown => whole ▸ shown.onBoundary spaced.veils spaced.byteCount_eq
      refine .error ⟨here (start.resolve_left ?_), here stop⟩
      rintro ⟨⟩

end Source

end Edifice
