import Edifice.Proofs.Source.Offsets

/-!
Continued lines as the lexer sees them.

Whether a line is continued is found by a scan of its own, which takes every quote mark for
the end of a quoted text or for the start of one.  The lexer takes a quote mark for a start
only where a token starts.  On the tokens and blanks that make up a line (`Consists`) the two
go the same way except inside of bare words, so a line that the lexer ends with a backslash by
itself is continued where no bare word has a quote mark in it, and else where the scan finds
the marks closed in front of the backslash (`continued_by_lone_backslash`).
-/

namespace Edifice.Source

variable {first : Bool} {pos offset : Nat} {c quote : Char} {line cs before rest body : List Char}
  {ts : Tokens}

/-! ### Lines without comments -/

/-- Whether every character of `cs`, which starts at the offset `pos`, is a blank or stands in
one of the tokens: nothing is left out as a comment. -/
def covers (ts : Tokens) (pos : Nat) : List Char → Bool
  | [] => true
  | c :: cs =>
    (Text.isBlank c || ts.any fun t => t.span.start ≤ pos && pos < t.span.stop) &&
      covers ts (pos + c.utf8Size) cs

/-- What the tokens and the blanks of a line make up. -/
inductive Consists : Nat → List Char → Tokens → Prop where
  | nil {pos : Nat} : Consists pos [] []
  | blank {pos : Nat} {c : Char} {cs : List Char} {ts : Tokens} (blank : Text.isBlank c = true)
      (rest : Consists (pos + c.utf8Size) cs ts) : Consists pos (c :: cs) ts
  | word {pos : Nat} {c : Char} {cs rest : List Char} {ts : Tokens}
      (plain : ∀ x ∈ c :: cs, Text.isBlank x = false) (ends : Ends rest)
      (later : Consists (pos + byteCount (c :: cs)) rest ts) :
      Consists pos (c :: cs ++ rest)
        (tokenAt pos (pos + byteCount (c :: cs)) (c :: cs) false :: ts)
  | quoted {pos : Nat} {quote : Char} {cs text rest : List Char} {ts : Tokens}
      (opens : isQuote quote = true) (body : Quotes quote cs text)
      (later : Consists (pos + byteCount (quote :: cs ++ [quote])) rest ts) :
      Consists pos (quote :: cs ++ [quote] ++ rest)
        (tokenAt pos (pos + byteCount (quote :: cs ++ [quote])) text true :: ts)

/-- Whether tokens cover a text can be said of its parts, one after the other. -/
theorem covers_append (cs rest : List Char) :
    covers ts pos (cs ++ rest) = (covers ts pos cs && covers ts (pos + byteCount cs) rest) := by
  induction cs generalizing pos with
  | nil => simp [covers]
  | cons c cs ih => simp only [List.cons_append, covers, ih, byteCount_cons, Nat.add_assoc,
      Bool.and_assoc]

/-- A token that has ended covers nothing more. -/
theorem covers_of_ended {t : Token} (ended : t.span.stop ≤ pos) :
    covers (t :: ts) pos cs = covers ts pos cs := by
  induction cs generalizing pos with
  | nil => rfl
  | cons c cs ih =>
    have past : (t.span.start ≤ pos && pos < t.span.stop : Bool) = false := by
      simp only [Bool.and_eq_false_iff, decide_eq_false_iff_not]
      omega
    simp only [covers, List.any_cons, past, Bool.false_or]
    rw [ih (Nat.le_add_right_of_le ended)]

/-- A token covers what stands in it. -/
theorem covers_inside {t : Token} (starts : t.span.start ≤ pos)
    (ends : pos + byteCount cs ≤ t.span.stop) : covers (t :: ts) pos cs = true := by
  induction cs generalizing pos with
  | nil => rfl
  | cons c cs ih =>
    rw [byteCount_cons] at ends
    have inside : pos < t.span.stop := by have := c.utf8Size_pos; omega
    simp only [covers, List.any_cons, starts, inside, decide_true, Bool.and_self, Bool.true_or,
      Bool.or_true, Bool.true_and]
    exact ih (by omega) (by omega)

/-- A token covers its own text and leaves the rest to those behind it. -/
theorem covers_tokenAt (part text : List Char) (quoted : Bool) :
    covers (tokenAt pos (pos + byteCount part) text quoted :: ts) pos (part ++ rest) =
      covers ts (pos + byteCount part) rest := by
  have ended : (tokenAt pos (pos + byteCount part) text quoted).span.stop = pos + byteCount part :=
    stop_tokenAt (Nat.le_add_right _ _) text quoted
  rw [covers_append, covers_inside (Nat.le_refl pos) (Nat.le_of_eq ended.symm), Bool.true_and,
    covers_of_ended (Nat.le_of_eq ended)]

/-- The tokens and blanks make up the line where no comment has been left out, and only there. -/
theorem Lexes.consists_iff (lexes : Lexes first pos cs ts) :
    Consists pos cs ts ↔ covers ts pos cs = true := by
  constructor
  · intro consists
    clear lexes
    induction consists with
    | nil => rfl
    | blank blank _ ih => simp [covers, blank, ih]
    | word _ _ _ ih => rw [covers_tokenAt, ih]
    | quoted _ _ _ ih => rw [covers_tokenAt, ih]
  · intro covered
    induction lexes with
    | nil => exact .nil
    | blank blank _ ih =>
      simp only [covers, Bool.and_eq_true] at covered
      exact .blank blank (ih covered.2)
    | comment starts => simp [covers, isBlank_of_startsComment starts] at covered
    | word plain ends _ _ _ ih => exact .word plain ends (ih (covers_tokenAt .. ▸ covered))
    | quoted opens body _ ih => exact .quoted opens body (ih (covers_tokenAt .. ▸ covered))

/-! ### What ends a line -/

/-- A line without tokens is blank. -/
theorem Consists.blank_of_nil (consists : Consists pos cs []) :
    ∀ c ∈ cs, Text.isBlank c = true := by
  generalize none : ([] : Tokens) = ts at consists
  induction consists with
  | nil => exact List.forall_mem_nil _
  | blank blank _ ih => exact List.forall_mem_cons.mpr ⟨blank, ih none⟩
  | word => cases none
  | quoted => cases none

/-- A blank line has no tokens. -/
theorem Consists.eq_nil (consists : Consists pos cs ts)
    (blank : ∀ c ∈ cs, Text.isBlank c = true) : ts = [] := by
  induction consists with
  | nil => rfl
  | blank _ _ ih => exact ih (List.forall_mem_cons.mp blank).2
  | word plain =>
    have visible := plain _ List.mem_cons_self
    rw [blank _ List.mem_cons_self] at visible
    cases visible
  | quoted opens =>
    have visible := isBlank_of_isQuote opens
    rw [blank _ List.mem_cons_self] at visible
    cases visible

/-- Where the backslash that ends a text stands, if a part of the text is taken apart. -/
theorem split_before_backslash {part blanks : List Char}
    (ends : part ++ rest = before ++ '\\' :: blanks) :
    (∃ between, before = part ++ between ∧ rest = between ++ '\\' :: blanks) ∨
      ∃ between, part = before ++ '\\' :: between ∧ blanks = between ++ rest := by
  obtain ⟨between, rfl, rest⟩ | ⟨between, rfl, rest⟩ := List.append_eq_append_iff.mp ends
  · exact .inl ⟨between, rfl, rest⟩
  · cases between with
    | nil => exact .inl ⟨[], by simp, rest.symm⟩
    | cons d between =>
      obtain ⟨rfl, same⟩ := List.cons.inj rest
      exact .inr ⟨between, rfl, same⟩

/-- A word in which a backslash ends the text after a blank is that backslash alone. -/
theorem eq_nil_of_plain {between : List Char}
    (plain : ∀ x ∈ before ++ '\\' :: between, Text.isBlank x = false)
    (lone : before.getLast?.all Text.isBlank = true)
    (blank : ∀ b ∈ between, Text.isBlank b = true) : before = [] ∧ between = [] := by
  constructor
  · cases last : before.getLast? with
    | none => exact List.getLast?_eq_none_iff.mp last
    | some d =>
      have visible := plain d (List.mem_append_left _ (List.mem_of_getLast? last))
      rw [last, Option.all_some, visible] at lone
      cases lone
  · refine List.eq_nil_iff_forall_not_mem.mpr fun d member => ?_
    have visible := plain d (List.mem_append_right _ (List.mem_cons_of_mem _ member))
    rw [blank d member] at visible
    cases visible

/-- A quoted token ends in its quote, which is neither a backslash nor blank. -/
theorem quoted_ne_backslash {between : List Char} (opens : isQuote quote = true)
    (blank : ∀ b ∈ between, Text.isBlank b = true) :
    body ++ [quote] ≠ before ++ '\\' :: between := by
  intro same
  have last := congrArg List.getLast? same
  rw [List.getLast?_concat, List.getLast?_append_of_ne_nil _ (List.cons_ne_nil _ _)] at last
  obtain rfl | member := List.mem_cons.mp (List.mem_of_getLast? last.symm)
  · exact absurd opens (by decide)
  · have visible := isBlank_of_isQuote opens
    rw [blank quote member] at visible
    cases visible

abbrev backslashAt (pos : Nat) : Token :=
  tokenAt pos (pos + byteCount ['\\']) ['\\'] false

/-- A backslash that ends the text after a blank is a token by itself, the last one. -/
theorem Consists.cut {blanks : List Char} (consists : Consists pos cs ts)
    (ends : cs = before ++ '\\' :: blanks) (blank : ∀ b ∈ blanks, Text.isBlank b = true)
    (lone : before.getLast?.all Text.isBlank = true) :
    ∃ us, Consists pos before us ∧ ts = us ++ [backslashAt (pos + byteCount before)] := by
  induction consists generalizing before with
  | nil => simp at ends
  | @blank pos c cs ts here _ ih =>
    cases before with
    | nil =>
      obtain ⟨rfl, -⟩ := List.cons.inj ends
      exact absurd here (by decide)
    | cons d before =>
      obtain ⟨rfl, same⟩ := List.cons.inj ends
      have lone' : before.getLast?.all Text.isBlank = true := by
        cases before with
        | nil => rfl
        | cons => exact lone
      obtain ⟨us, consists, rfl⟩ := ih same lone'
      exact ⟨us, .blank here consists, by rw [byteCount_cons, Nat.add_assoc]⟩
  | @word pos c cs rest ts plain starts later ih =>
    obtain ⟨between, rfl, rfl⟩ | ⟨between, part, rfl⟩ := split_before_backslash ends
    · cases between with
      | nil => exact absurd starts (by simp [Ends]; decide)
      | cons d between =>
        rw [List.getLast?_append_of_ne_nil _ (List.cons_ne_nil _ _)] at lone
        obtain ⟨us, consists, rfl⟩ := ih rfl lone
        refine ⟨_ :: us, .word plain starts consists, ?_⟩
        rw [byteCount_append (c :: cs), ← Nat.add_assoc]
        rfl
    · rw [part] at plain
      obtain ⟨rfl, rfl⟩ := eq_nil_of_plain plain lone fun d member =>
        blank d (List.mem_append_left _ member)
      obtain ⟨rfl, rfl⟩ := List.cons.inj part
      rw [later.eq_nil blank]
      exact ⟨[], .nil, rfl⟩
  | @quoted pos quote cs text rest ts opens body later ih =>
    obtain ⟨between, rfl, rfl⟩ | ⟨between, part, rfl⟩ := split_before_backslash ends
    · cases between with
      | nil =>
        rw [List.append_nil, List.getLast?_concat] at lone
        exact absurd lone (by simp [isBlank_of_isQuote opens])
      | cons d between =>
        rw [List.getLast?_append_of_ne_nil _ (List.cons_ne_nil _ _)] at lone
        obtain ⟨us, consists, rfl⟩ := ih rfl lone
        refine ⟨_ :: us, .quoted opens body consists, ?_⟩
        rw [byteCount_append (quote :: cs ++ [quote]), ← Nat.add_assoc]
        rfl
    · exact absurd part (quoted_ne_backslash opens fun d member =>
        blank d (List.mem_append_left _ member))

/-- A bare backslash that is the last token stands in front of blanks only. -/
theorem Consists.lastBackslash (consists : Consists pos cs ts) {t : Token}
    (last : ts.getLast? = some t) (backslash : t.is "\\" = true) :
    ∃ before blanks, cs = before ++ '\\' :: blanks ∧ (∀ b ∈ blanks, Text.isBlank b = true) ∧
      t.span.start = pos + byteCount before := by
  have later : ∀ {pos : Nat} {part rest : List Char},
      (∃ before blanks, rest = before ++ '\\' :: blanks ∧ (∀ b ∈ blanks, Text.isBlank b = true) ∧
        t.span.start = pos + byteCount part + byteCount before) →
      ∃ before blanks, part ++ rest = before ++ '\\' :: blanks ∧
        (∀ b ∈ blanks, Text.isBlank b = true) ∧ t.span.start = pos + byteCount before := by
    rintro pos part rest ⟨before, blanks, rfl, blank, start⟩
    exact ⟨part ++ before, blanks, (List.append_assoc ..).symm, blank, by
      rw [start, byteCount_append, Nat.add_assoc]⟩
  induction consists with
  | nil => cases last
  | @blank pos c cs ts _ _ ih =>
    exact @later pos [c] cs (by simpa using ih last)
  | @word pos c cs rest ts plain starts consists ih =>
    cases ts with
    | nil =>
      obtain rfl := Option.some.inj last
      have text : String.ofList (c :: cs) = "\\" := by simpa [Token.is] using backslash
      obtain ⟨rfl, rfl⟩ : c = '\\' ∧ cs = [] := by
        simpa using (String.toList_ofList (l := c :: cs)).symm.trans (congrArg String.toList text)
      exact ⟨[], rest, rfl, consists.blank_of_nil, rfl⟩
    | cons u us =>
      rw [List.getLast?_cons_cons] at last
      exact later (ih last)
  | @quoted pos quote cs text rest ts opens body consists ih =>
    cases ts with
    | nil =>
      obtain rfl := Option.some.inj last
      cases backslash
    | cons u us =>
      rw [List.getLast?_cons_cons] at last
      exact later (ih last)

/-! ### Quote marks -/

theorem Quoting.step_outside :
    Quoting.outside.step c = if isQuote c then .inside c else .outside := by
  simp [Quoting.step, isQuote]

/-- Without quote marks, nothing is quoted. -/
theorem Quoting.foldl_unmarked (unmarked : ∀ c ∈ cs, isQuote c = false) :
    cs.foldl Quoting.step .outside = .outside := by
  induction cs with
  | nil => rfl
  | cons c cs ih =>
    obtain ⟨here, unmarked⟩ := List.forall_mem_cons.mp unmarked
    rw [List.foldl_cons, Quoting.step_outside, here]
    exact ih unmarked

/-- The scan goes through a quoted text as the lexer does. -/
theorem Quotes.scanned {text : List Char} (opens : isQuote quote = true)
    (quotes : Quotes quote body text) :
    body.foldl Quoting.step (.inside quote) = .inside quote := by
  induction quotes with
  | nil => rfl
  | plain inner bare _ ih => simpa [Quoting.step, bare, inner] using ih
  | escape _ _ ih => simpa [Quoting.step] using ih
  | @backslash c cs text bare _ ih =>
    -- The scan takes the next character along, which does not matter to it in this place.
    have inner : c ≠ quote := by
      rintro rfl
      rw [isEscaped_of_isQuote opens] at bare
      cases bare
    have plain : c ≠ '\\' := by
      rintro rfl
      cases bare
    simpa [Quoting.step, inner, plain] using ih

/-- Where no word has a quote mark in it, the scan comes out of all quotes. -/
theorem Consists.scanned (consists : Consists pos cs ts)
    (unmarked : ∀ t ∈ ts, t.quoted = false → ∀ c ∈ t.text.toList, isQuote c = false) :
    cs.foldl Quoting.step .outside = .outside := by
  induction consists with
  | nil => rfl
  | @blank pos c cs ts blank _ ih =>
    have plain : isQuote c = false := by
      refine Bool.eq_false_iff.mpr fun opens => ?_
      rw [isBlank_of_isQuote opens] at blank
      cases blank
    rw [List.foldl_cons, Quoting.step_outside, plain]
    exact ih unmarked
  | @word pos c cs rest ts plain ends _ ih =>
    obtain ⟨here, unmarked⟩ := List.forall_mem_cons.mp unmarked
    have word := here rfl
    rw [String.toList_ofList] at word
    rw [List.foldl_append, Quoting.foldl_unmarked word]
    exact ih unmarked
  | @quoted pos quote cs text rest ts opens body _ ih =>
    have closed : Quoting.step (.inside quote) quote = .outside := by
      simp [Quoting.step, ne_backslash_of_isQuote opens]
    have opened : (quote :: cs).foldl Quoting.step .outside = .inside quote := by
      rw [List.foldl_cons, Quoting.step_outside, opens, if_pos rfl, body.scanned opens]
    rw [List.foldl_append, List.foldl_append, opened, List.foldl_cons, closed]
    exact ih (List.forall_mem_cons.mp unmarked).2

/-! ### Continued lines -/

/-- The last of the tokens is a bare backslash, which stands behind `before`, at the start of
the line or after a blank. -/
structure LoneBackslash (pos : Nat) (cs : List Char) (ts : Tokens) (before : List Char) : Prop where
  last : ∃ t, ts.getLast? = some t ∧ t.is "\\" = true ∧ t.span.start = pos + byteCount before
  stands : ∃ after, cs = before ++ '\\' :: after
  lone : before.getLast?.all Text.isBlank = true

/-- Two beginnings of a text that are of one size are the same. -/
theorem eq_of_byteCount {before' after after' : List Char}
    (same : before ++ after = before' ++ after') (size : byteCount before = byteCount before') :
    before = before' := by
  obtain ⟨between, rfl, -⟩ | ⟨between, rfl, -⟩ := List.append_eq_append_iff.mp same
  all_goals
    rw [byteCount_append] at size
    have empty : between = [] := eq_nil_of_byteCount (by omega)
    rw [empty, List.append_nil]

/-- The last token is a backslash by itself where the text ends with one after a blank. -/
theorem loneBackslash_iff (consists : Consists pos cs ts) : LoneBackslash pos cs ts before ↔
    beforeBackslash? cs = some before ∧ before.getLast?.all Text.isBlank = true := by
  rw [beforeBackslash?_eq_some_iff]
  constructor
  · rintro ⟨⟨t, last, backslash, start⟩, ⟨after, stands⟩, lone⟩
    obtain ⟨before', blanks, rfl, blank, start'⟩ := consists.lastBackslash last backslash
    obtain rfl : before = before' := eq_of_byteCount stands.symm (by omega)
    exact ⟨⟨blanks, rfl, blank⟩, lone⟩
  · rintro ⟨⟨blanks, ends, blank⟩, lone⟩
    obtain ⟨us, -, rfl⟩ := consists.cut ends blank lone
    exact ⟨⟨_, List.getLast?_concat, rfl, rfl⟩, ⟨blanks, ends⟩, lone⟩

/-- The mark that continues a line is a backslash by itself behind quotes that are closed. -/
theorem beforeContinuation?_eq_some_iff (consists : Consists pos cs ts) :
    beforeContinuation? cs = some before ↔ LoneBackslash pos cs ts before ∧
      before.foldl Quoting.step .outside = .outside := by
  rw [loneBackslash_iff consists, beforeContinuation?, Option.filter_eq_some_iff,
    marksContinuation, Bool.and_eq_true, beq_iff_eq, and_assoc]

/-- **A line is continued where the lexer sees a backslash by itself at its end, as long as its
words have no quote marks in them.**  Of a line that is read without leaving out a comment, the
mark that continues it is always a last token which is a bare backslash at the start of the line
or after a blank.  The other way around, such a token continues the line where the scan finds
the quote marks in front of it closed; it does find them so where no bare word has one in it,
whatever stands in quotes. -/
theorem continued_by_lone_backslash (read : tokenize line offset = .ok ts)
    (covered : covers ts offset line = true) :
    (∀ before, beforeContinuation? line = some before ↔ LoneBackslash offset line ts before ∧
      before.foldl Quoting.step .outside = .outside) ∧
    ((∀ t ∈ ts, t.quoted = false → ∀ c ∈ t.text.toList, isQuote c = false) →
      (continues line = true ↔ ∃ before, LoneBackslash offset line ts before)) := by
  have consists := (lex_eq_ok_iff.mp read).consists_iff.mpr covered
  refine ⟨fun before => beforeContinuation?_eq_some_iff consists, fun unmarked => ?_⟩
  rw [continues, Option.isSome_iff_exists]
  refine exists_congr fun before => (beforeContinuation?_eq_some_iff consists).trans ?_
  refine and_iff_left_of_imp fun lone => ?_
  obtain ⟨mark, lone⟩ := (loneBackslash_iff consists).mp lone
  obtain ⟨blanks, ends, blank⟩ := beforeBackslash?_eq_some_iff.mp mark
  obtain ⟨us, front, rfl⟩ := consists.cut ends blank lone
  exact front.scanned fun t member => unmarked t (List.mem_append_left _ member)

/-- A line with quote marks around a text only, and at its end a backslash by itself. -/
def describedLine : List Char :=
  "shop \"it's \\\"open\\\"\" \\ ".toList

/-- Such a line is continued. -/
theorem describedLine_continued : ∃ ts before, tokenize describedLine 7 = .ok ts ∧
    covers ts 7 describedLine = true ∧ continues describedLine = true ∧
      LoneBackslash 7 describedLine ts before := by
  have answer : (tokenize describedLine 7).toOption.map (fun ts => covers ts 7 describedLine &&
      ts.all fun t => t.quoted || t.text.toList.all fun c => !isQuote c) = some true := by
    decide +kernel
  obtain ⟨ts, read, answers⟩ := Check.toOption_map_eq_some.mp answer
  obtain ⟨covered, plain⟩ := Bool.and_eq_true_iff.mp answers
  have unmarked : ∀ t ∈ ts, t.quoted = false → ∀ c ∈ t.text.toList, isQuote c = false := by
    intro t member bare c inside
    have here := List.all_eq_true.mp plain t member
    rw [bare, Bool.false_or] at here
    simpa using List.all_eq_true.mp here c inside
  have continued : continues describedLine = true := by decide +kernel
  obtain ⟨before, lone⟩ := ((continued_by_lone_backslash read covered).2 unmarked).mp continued
  exact ⟨ts, before, read, covered, continued, lone⟩

/-- A word with a quote mark in it hides the backslash behind it from the scan, but not from
the lexer. -/
theorem apostrophe_hides_backslash :
    ¬ ∀ (line : List Char) (offset : Nat) (ts : Tokens), tokenize line offset = .ok ts →
      covers ts offset line = true →
        (continues line = true ↔ ∃ before, LoneBackslash offset line ts before) := by
  intro agree
  have iff := agree "it's \\".toList 0 _ rfl (by decide)
  have lone : LoneBackslash 0 "it's \\".toList
      [tokenAt 0 4 "it's".toList false, backslashAt 5] "it's ".toList :=
    ⟨⟨_, rfl, rfl, rfl⟩, ⟨[], rfl⟩, rfl⟩
  exact absurd (iff.mpr ⟨_, lone⟩) (by decide)

end Edifice.Source
