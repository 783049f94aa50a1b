import Edifice.Source.Lexer
import Edifice.Check

/-!
The lexical grammar.

`Lexes` says what the tokens of a line are without saying how they are found: blanks, bare
words and quoted texts follow each other, each token with the range where it stands, up to
the end of the line or to a comment.  The lexer finds the tokens of every line that has some
and of no other one (`lex_eq_ok_iff`), so what holds of its tokens is shown of the grammar.
-/

namespace Edifice.Source

open Check

/-! ### The grammar -/

/-- What stands between two quotes of a kind, and the text that it stands for. -/
inductive Quotes (quote : Char) : List Char → List Char → Prop where
  | nil : Quotes quote [] []
  | plain {c : Char} {cs text : List Char} (inner : c ≠ quote) (bare : c ≠ '\\')
      (rest : Quotes quote cs text) : Quotes quote (c :: cs) (c :: text)
  | escape {c : Char} {cs text : List Char} (escaped : isEscaped c = true)
      (rest : Quotes quote cs text) : Quotes quote ('\\' :: c :: cs) (c :: text)
  /-- In front of any other character, a backslash stands for itself. -/
  | backslash {c : Char} {cs text : List Char} (bare : isEscaped c = false)
      (rest : Quotes quote (c :: cs) text) : Quotes quote ('\\' :: c :: cs) ('\\' :: text)

abbrev tokenAt (start stop : Nat) (text : List Char) (quoted : Bool) : Token :=
  { text := String.ofList text, span := .between start stop, quoted }

/-- The text starts with a blank, or there is none. -/
def Ends (cs : List Char) : Prop :=
  cs.head?.all Text.isBlank = true

/-- `Lexes first pos cs ts`: the tokens of a line from `cs` on, which starts at the offset
`pos`, are `ts`, and the `first` one of the line is among them or there is none. -/
inductive Lexes : Bool → Nat → List Char → Tokens → Prop where
  | nil {first : Bool} {pos : Nat} : Lexes first pos [] []
  | blank {first : Bool} {pos : Nat} {c : Char} {cs : List Char} {ts : Tokens}
      (blank : Text.isBlank c = true) (rest : Lexes first (pos + c.utf8Size) cs ts) :
      Lexes first pos (c :: cs) ts
  | comment {first : Bool} {pos : Nat} {c : Char} {cs : List Char}
      (starts : startsComment first c cs = true) : Lexes first pos (c :: cs) []
  | word {first : Bool} {pos : Nat} {c : Char} {cs rest : List Char} {ts : Tokens}
      (plain : ∀ x ∈ c :: cs, Text.isBlank x = false) (ends : Ends rest)
      (uncommented : startsComment first c (cs ++ rest) = false) (unquoted : isQuote c = false)
      (later : Lexes false (pos + byteCount (c :: cs)) rest ts) :
      Lexes first pos (c :: cs ++ rest)
        (tokenAt pos (pos + byteCount (c :: cs)) (c :: cs) false :: ts)
  | quoted {first : Bool} {pos : Nat} {quote : Char} {cs text rest : List Char} {ts : Tokens}
      (opens : isQuote quote = true) (body : Quotes quote cs text)
      (later : Lexes false (pos + byteCount (quote :: cs ++ [quote])) rest ts) :
      Lexes first pos (quote :: cs ++ [quote] ++ rest)
        (tokenAt pos (pos + byteCount (quote :: cs ++ [quote])) text true :: ts)

/-! ### Characters -/

variable {first : Bool} {c quote : Char} {cs rest text : List Char} {pos start stop : Nat}
  {ts : Tokens}

theorem isBlank_of_startsComment (starts : startsComment first c cs = true) :
    Text.isBlank c = false := by
  simp only [startsComment, Bool.or_eq_true, Bool.and_eq_true, beq_iff_eq] at starts
  rcases starts with ⟨-, rfl⟩ | ⟨rfl, -⟩ <;> decide

theorem isBlank_of_isQuote (opens : isQuote c = true) : Text.isBlank c = false := by
  simp only [isQuote, Bool.or_eq_true, beq_iff_eq] at opens
  rcases opens with rfl | rfl <;> decide

theorem startsComment_of_isQuote (opens : isQuote c = true) : startsComment first c cs = false := by
  simp only [isQuote, Bool.or_eq_true, beq_iff_eq] at opens
  rcases opens with rfl | rfl <;> simp [startsComment]

theorem ne_backslash_of_isQuote (opens : isQuote c = true) : c ≠ '\\' := by
  rintro rfl
  exact absurd opens (by decide)

theorem isEscaped_of_isQuote (opens : isQuote c = true) : isEscaped c = true := by
  rw [isEscaped, opens, Bool.true_or]

/-! ### What is in the grammar is read -/

/-- A word goes on up to a blank or to the end of the line. -/
theorem lex_bare (plain : ∀ x ∈ cs, Text.isBlank x = false) (ends : Ends rest)
    (stands : pos + byteCount cs = stop) :
    lex (.bare start text) pos (cs ++ rest) =
      (lex (.between false) stop rest).map
        (tokenOf start stop (cs.reverse ++ text) false :: ·) := by
  induction cs generalizing text pos with
  | nil =>
    obtain rfl : pos = stop := stands
    cases rest with
    | nil => rfl
    | cons d rest =>
      have blank : Text.isBlank d = true := ends
      simp only [List.nil_append, lex, blank, if_true, List.reverse_nil]
      cases lex (.between false) (pos + d.utf8Size) rest <;> rfl
  | cons c cs ih =>
    obtain ⟨here, plain⟩ := List.forall_mem_cons.mp plain
    rw [byteCount_cons, ← Nat.add_assoc] at stands
    simp only [List.cons_append, lex, here, Bool.false_eq_true, if_false, ih plain stands,
      List.reverse_cons, List.append_assoc, List.nil_append]

/-- A quoted text goes on up to its quote. -/
theorem lex_quoted (opens : isQuote quote = true) {body : List Char}
    (quotes : Quotes quote body cs) (stands : pos + byteCount (body ++ [quote]) = stop) :
    lex (.quoted quote start text) pos (body ++ quote :: rest) =
      (lex (.between false) stop rest).map
        (tokenOf start stop (cs.reverse ++ text) true :: ·) := by
  have unescaped := ne_backslash_of_isQuote opens
  induction quotes generalizing text pos with
  | nil =>
    obtain rfl : pos + quote.utf8Size = stop := by simpa using stands
    simp only [List.nil_append, lex, if_true, List.reverse_nil]
    cases lex (.between false) (pos + quote.utf8Size) rest <;> rfl
  | @plain c cs _ inner bare _ ih =>
    have stands : pos + c.utf8Size + byteCount (cs ++ [quote]) = stop := by
      simp only [← stands, List.cons_append, byteCount_cons, Nat.add_assoc]
    simp only [List.cons_append, lex, if_neg inner, if_neg bare, ih stands, List.reverse_cons,
      List.append_assoc, List.nil_append]
  | @escape c cs _ escaped _ ih =>
    have stands : pos + '\\'.utf8Size + c.utf8Size + byteCount (cs ++ [quote]) = stop := by
      simp only [← stands, List.cons_append, byteCount_cons, Nat.add_assoc]
    simp only [List.cons_append, lex, if_neg unescaped.symm, if_true, List.head?_cons, escaped,
      ih stands, List.reverse_cons, List.append_assoc, List.nil_append]
  | @backslash c cs _ bare _ ih =>
    have stands : pos + '\\'.utf8Size + byteCount (c :: cs ++ [quote]) = stop := by
      simp only [← stands, List.cons_append, byteCount_cons, Nat.add_assoc]
    rw [List.cons_append, List.cons_append, lex]
    simp only [if_neg unescaped.symm, if_true, List.head?_cons, bare, Bool.false_eq_true,
      if_false]
    rw [← List.cons_append, ih stands, List.reverse_cons, List.append_assoc]
    rfl

/-- The lexer finds the tokens of a line that has some. -/
theorem Lexes.lex_eq_ok (lexes : Lexes first pos cs ts) : lex (.between first) pos cs = .ok ts := by
  induction lexes with
  | nil => rfl
  | blank blank _ ih => simp only [lex, blank, if_true, ih]
  | comment starts => simp [lex, isBlank_of_startsComment starts, starts]
  | @word first pos c cs rest ts plain ends uncommented unquoted _ ih =>
    obtain ⟨here, plain⟩ := List.forall_mem_cons.mp plain
    have stands : pos + c.utf8Size + byteCount cs = pos + byteCount (c :: cs) := by
      rw [byteCount_cons, Nat.add_assoc]
    simp only [List.cons_append, lex, here, uncommented, unquoted, Bool.false_eq_true, if_false]
    rw [lex_bare plain ends stands, ih]
    simp [Except.map, tokenOf]
  | @quoted first pos quote cs text rest ts opens body _ ih =>
    have stands : pos + quote.utf8Size + byteCount (cs ++ [quote]) =
        pos + byteCount (quote :: cs ++ [quote]) := by
      rw [List.cons_append, byteCount_cons, Nat.add_assoc]
    rw [List.append_assoc, List.singleton_append, List.cons_append, lex]
    simp only [isBlank_of_isQuote opens, startsComment_of_isQuote opens, opens,
      Bool.false_eq_true, if_false, if_true]
    rw [lex_quoted opens body stands, ih]
    simp [Except.map, tokenOf]

/-! ### What is read is in the grammar -/

/-- A quoted text is under way between quotes alone. -/
def LexerState.IsSound : LexerState → Prop
  | .between _ | .bare _ _ => True
  | .quoted quote _ _ | .escaped quote _ _ => isQuote quote = true

/-- What the tokens from a state on are: the token that is under way, then those of the rest
of the line. -/
def LexerState.Reads : LexerState → Nat → List Char → Tokens → Prop
  | .between first, pos, cs, ts => Lexes first pos cs ts
  | .bare start text, pos, cs, ts => ∃ word rest later, cs = word ++ rest ∧
      (∀ x ∈ word, Text.isBlank x = false) ∧ Ends rest ∧
      Lexes false (pos + byteCount word) rest later ∧
      ts = tokenAt start (pos + byteCount word) (text.reverse ++ word) false :: later
  | .quoted quote start text, pos, cs, ts => ∃ body inner rest later,
      cs = body ++ quote :: rest ∧ Quotes quote body inner ∧
      Lexes false (pos + byteCount (body ++ [quote])) rest later ∧
      ts = tokenAt start (pos + byteCount (body ++ [quote])) (text.reverse ++ inner) true :: later
  | .escaped quote start text, pos, cs, ts => ∃ c body inner rest later,
      cs = c :: body ++ quote :: rest ∧ Quotes quote body inner ∧
      Lexes false (pos + byteCount (c :: body ++ [quote])) rest later ∧
      ts = tokenAt start (pos + byteCount (c :: body ++ [quote])) (text.reverse ++ c :: inner)
        true :: later

/-- What the lexer finds from its states on, in what is left of a line, is in the grammar. -/
def SoundFrom (pos : Nat) (cs : List Char) : Prop :=
  ∀ s : LexerState, s.IsSound → ∀ ts, lex s pos cs = .ok ts → s.Reads pos cs ts

/-- At the end of a line, what the lexer finds in each of its states is in the grammar. -/
theorem soundFrom_nil (pos : Nat) : SoundFrom pos [] := by
  intro s _ ts read
  cases s with
  | between first =>
    obtain rfl := Except.ok.inj read
    exact .nil
  | bare start text =>
    obtain rfl := Except.ok.inj read
    exact ⟨[], [], [], rfl, List.forall_mem_nil _, rfl, .nil, by simp [tokenOf]⟩
  | quoted | escaped => cases read

section Step

variable (later : SoundFrom (pos + c.utf8Size) cs)
include later

/-- Between tokens, a character is blank, starts a comment or starts a token. -/
theorem reads_between (read : lex (.between first) pos (c :: cs) = .ok ts) :
    (LexerState.between first).Reads pos (c :: cs) ts := by
  rw [lex] at read
  split at read
  case isTrue blank => exact .blank blank (later (.between first) trivial _ read)
  case isFalse nonblank =>
  split at read
  case isTrue starts =>
    obtain rfl := Except.ok.inj read
    exact .comment starts
  case isFalse uncommented =>
  split at read
  case isTrue quote =>
    obtain ⟨body, inner, rest, others, rfl, quotes, lexes, rfl⟩ :=
      later (.quoted c pos []) quote _ read
    have token : Lexes first pos _ _ :=
      .quoted quote quotes (by simpa [Nat.add_assoc] using lexes)
    simpa [LexerState.Reads, Nat.add_assoc] using token
  case isFalse unquoted =>
    obtain ⟨word, rest, others, rfl, plain, ends, lexes, rfl⟩ :=
      later (.bare pos [c]) trivial _ read
    have token : Lexes first pos _ _ :=
      .word (List.forall_mem_cons.mpr ⟨Bool.of_not_eq_true nonblank, plain⟩) ends
        (Bool.of_not_eq_true uncommented) (Bool.of_not_eq_true unquoted)
        (by simpa [Nat.add_assoc] using lexes)
    simpa [LexerState.Reads, Nat.add_assoc] using token

/-- A word ends in front of a blank. -/
theorem reads_bare (read : lex (.bare start text) pos (c :: cs) = .ok ts) :
    (LexerState.bare start text).Reads pos (c :: cs) ts := by
  rw [lex] at read
  split at read
  case isTrue blank =>
    obtain ⟨others, lexes, stays⟩ := bind_eq_ok.mp read
    obtain rfl := Except.ok.inj stays
    have lexes := later (.between false) trivial _ lexes
    exact ⟨[], c :: cs, others, rfl, List.forall_mem_nil _, blank, .blank blank lexes,
      by simp [tokenOf]⟩
  case isFalse nonblank =>
    obtain ⟨word, rest, others, rfl, plain, ends, lexes, rfl⟩ :=
      later (.bare start (c :: text)) trivial _ read
    exact ⟨c :: word, rest, others, rfl,
      List.forall_mem_cons.mpr ⟨Bool.of_not_eq_true nonblank, plain⟩, ends,
      by simpa [Nat.add_assoc] using lexes, by simp [Nat.add_assoc]⟩

/-- After its backslash, a character stands for itself. -/
theorem reads_escaped (opens : isQuote quote = true)
    (read : lex (.escaped quote start text) pos (c :: cs) = .ok ts) :
    (LexerState.escaped quote start text).Reads pos (c :: cs) ts := by
  obtain ⟨body, inner, rest, others, rfl, quotes, lexes, rfl⟩ :=
    later (.quoted quote start (c :: text)) opens _ read
  exact ⟨c, body, inner, rest, others, rfl, quotes, by simpa [Nat.add_assoc] using lexes,
    by simp [Nat.add_assoc]⟩

omit later in
/-- A backslash between quotes escapes the character after it, or stands for itself. -/
theorem reads_backslash (later : SoundFrom (pos + '\\'.utf8Size) cs) (opens : isQuote quote = true)
    (read : lex (.quoted quote start text) pos ('\\' :: cs) = .ok ts) :
    (LexerState.quoted quote start text).Reads pos ('\\' :: cs) ts := by
  rw [lex, if_neg (ne_backslash_of_isQuote opens).symm, if_pos rfl] at read
  split at read
  case h_1 => cases read
  case h_2 d head =>
  split at read
  case isTrue escaped =>
    obtain ⟨e, body, inner, rest, others, rfl, quotes, lexes, rfl⟩ :=
      later (.escaped quote start text) opens _ read
    obtain rfl : e = d := Option.some.inj head
    exact ⟨'\\' :: e :: body, e :: inner, rest, others, rfl, .escape escaped quotes,
      by simpa [Nat.add_assoc] using lexes, by simp [Nat.add_assoc]⟩
  case isFalse unescaped =>
    obtain ⟨body, inner, rest, others, rfl, quotes, lexes, rfl⟩ :=
      later (.quoted quote start ('\\' :: text)) opens _ read
    -- The quote itself could have been escaped, so there is something in front of it.
    cases body with
    | nil =>
      obtain rfl : quote = d := Option.some.inj head
      exact absurd (isEscaped_of_isQuote opens) unescaped
    | cons e body =>
      obtain rfl : e = d := Option.some.inj head
      exact ⟨'\\' :: e :: body, '\\' :: inner, rest, others, rfl,
        .backslash (Bool.of_not_eq_true unescaped) quotes,
        by simpa [Nat.add_assoc] using lexes, by simp [Nat.add_assoc]⟩

/-- Between quotes, a character closes them, is a backslash or stands for itself. -/
theorem reads_quoted (opens : isQuote quote = true)
    (read : lex (.quoted quote start text) pos (c :: cs) = .ok ts) :
    (LexerState.quoted quote start text).Reads pos (c :: cs) ts := by
  by_cases closes : c = quote
  · subst closes
    rw [lex, if_pos rfl] at read
    obtain ⟨others, lexes, stays⟩ := bind_eq_ok.mp read
    obtain rfl := Except.ok.inj stays
    have lexes := later (.between false) trivial _ lexes
    exact ⟨[], [], cs, others, rfl, .nil, by simpa [LexerState.Reads] using lexes,
      by simp [tokenOf]⟩
  by_cases backslash : c = '\\'
  · subst backslash
    exact reads_backslash later opens read
  · rw [lex, if_neg closes, if_neg backslash] at read
    obtain ⟨body, inner, rest, others, rfl, quotes, lexes, rfl⟩ :=
      later (.quoted quote start (c :: text)) opens _ read
    exact ⟨c :: body, c :: inner, rest, others, rfl, .plain closes backslash quotes,
      by simpa [Nat.add_assoc] using lexes, by simp [Nat.add_assoc]⟩

/-- One more character keeps the lexer sound, state by state. -/
theorem soundFrom_cons : SoundFrom pos (c :: cs) := by
  intro s sound ts read
  cases s with
  | between first => exact reads_between later read
  | bare start text => exact reads_bare later read
  | quoted quote start text => exact reads_quoted later sound read
  | escaped quote start text => exact reads_escaped later sound read

end Step

/-- What the lexer finds from a state on is in the grammar. -/
theorem soundFrom_lex (pos : Nat) (cs : List Char) : SoundFrom pos cs := by
  induction cs generalizing pos with
  | nil => exact soundFrom_nil pos
  | cons c cs ih => exact soundFrom_cons (ih _)

/-- The lexer finds the tokens of every line that has some, and of no other one. -/
theorem lex_eq_ok_iff : lex (.between first) pos cs = .ok ts ↔ Lexes first pos cs ts :=
  ⟨fun read => soundFrom_lex pos cs (.between first) trivial _ read, Lexes.lex_eq_ok⟩

end Edifice.Source
