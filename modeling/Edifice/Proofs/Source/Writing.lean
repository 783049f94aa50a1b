import Edifice.Proofs.Source.Lexemes

/-!
Tokens written out and read back.

A text is written bare where it is a word of the grammar by itself, and between double quotes
with its escapes otherwise.  The line made of such texts is read as one token for each of them
(`tokenize_toSource`), whatever they hold, and so writing is settled after one turn
(`tokens_read_back`).
-/

namespace Edifice.Source

variable {first : Bool} {pos : Nat} {rest : List Char} {s : String} {t : Token} {ts : Tokens}

/-! ### Texts of their own -/

/-- The escaped text stands for the text itself between double quotes. -/
theorem quotes_escape (cs : List Char) : Quotes '"' (cs.flatMap escape) cs := by
  induction cs with
  | nil => exact .nil
  | cons c cs ih =>
    rw [List.flatMap_cons, escape]
    by_cases special : c = '"' ∨ c = '\\'
    · have escaped : isEscaped c = true := by rcases special with rfl | rfl <;> rfl
      rw [if_pos special]
      exact .escape escaped ih
    · rw [if_neg special]
      rw [not_or] at special
      exact .plain special.1 special.2 ih

/-- A text that needs no quotes is a word: it neither breaks off nor starts a comment. -/
theorem word_of_needsQuotes_eq_false (bare : needsQuotes s = false) :
    ∃ c cs, s.toList = c :: cs ∧ (∀ x ∈ c :: cs, Text.isBlank x = false) ∧ isQuote c = false ∧
      c ≠ '#' ∧ (c = '/' → cs.head? ≠ some '/') := by
  simp only [needsQuotes, Bool.or_eq_false_iff, beq_eq_false_iff_ne, ne_eq] at bare
  obtain ⟨⟨⟨⟨nonempty, slashes⟩, sign⟩, -⟩, unbroken⟩ := bare
  cases letters : s.toList with
  | nil => exact absurd (String.toList_eq_nil_iff.mp letters) nonempty
  | cons c cs =>
    rw [letters, List.any_eq_false] at unbroken
    simp only [breaksBare, Bool.or_eq_true, beq_iff_eq, not_or] at unbroken
    refine ⟨c, cs, rfl, fun x mem => Bool.of_not_eq_true (unbroken x mem).1.1.1, ?_, ?_, ?_⟩
    · have marks := unbroken c List.mem_cons_self
      simp [isQuote, marks]
    · rintro rfl
      simp [Text.startsWith, letters] at sign
    · rintro rfl next
      obtain ⟨ds, rfl⟩ := List.head?_eq_some_iff.mp next
      simp [Text.startsWith, letters] at slashes

/-- What is written for a text is read as one token with that text. -/
theorem Lexes.quote (ends : Ends rest)
    (later : Lexes false (pos + byteCount (quote s).toList) rest ts) :
    Lexes first pos ((Edifice.quote s).toList ++ rest)
      (tokenAt pos (pos + byteCount (Edifice.quote s).toList) s.toList (needsQuotes s) :: ts) := by
  cases form : needsQuotes s with
  | false =>
    obtain ⟨c, cs, letters, plain, unquoted, sign, slashes⟩ := word_of_needsQuotes_eq_false form
    rw [Edifice.quote, form, if_neg Bool.false_ne_true, letters] at later ⊢
    refine .word plain ends ?_ unquoted later
    cases cs with
    | nil =>
      cases rest with
      | nil => simp [startsComment, sign]
      | cons d rest =>
        have slash : d ≠ '/' := by
          rintro rfl
          have blank : Text.isBlank '/' = true := ends
          exact absurd blank (by decide)
        simp [startsComment, sign, slash]
    | cons d cs => simpa [startsComment, sign] using slashes
  | true =>
    rw [Edifice.quote, form, if_pos rfl, String.toList_ofList] at later ⊢
    exact .quoted rfl (quotes_escape s.toList) later

/-! ### Lines of texts -/

/-- The tokens that are read where the texts of some tokens are written out. -/
def rewritten : Nat → Tokens → Tokens
  | _, [] => []
  | pos, t :: ts =>
    let stop := pos + byteCount (quote t.text).toList
    tokenAt pos stop t.text.toList (needsQuotes t.text) :: rewritten (stop + ' '.utf8Size) ts

/-- Tokens written out are read back, each from where it stands. -/
theorem lexes_toSource (first : Bool) (pos : Nat) (ts : Tokens) :
    Lexes first pos ts.toSource.toList (rewritten pos ts) := by
  induction ts generalizing first pos with
  | nil => exact .nil
  | cons t ts ih =>
    cases ts with
    | nil =>
      have one : Tokens.toSource [t] = quote t.text := String.intercalate_singleton
      have token : Lexes first pos ((quote t.text).toList ++ []) (rewritten pos [t]) :=
        .quote rfl .nil
      rwa [List.append_nil, ← one] at token
    | cons u us =>
      have spaced : Tokens.toSource (t :: u :: us) =
          quote t.text ++ " " ++ Tokens.toSource (u :: us) := String.intercalate_cons_cons
      rw [spaced, String.append_assoc, String.toList_append, String.toList_append]
      exact .quote rfl (.blank rfl (ih ..))

theorem texts_rewritten (pos : Nat) (ts : Tokens) :
    (rewritten pos ts).map (·.text) = ts.map (·.text) := by
  induction ts generalizing pos with
  | nil => rfl
  | cons t ts ih => simp only [rewritten, List.map_cons, String.ofList_toList, ih]

/-- What is written for tokens depends on their texts alone. -/
theorem toSource_congr {us : Tokens} (same : ts.map (·.text) = us.map (·.text)) :
    ts.toSource = us.toSource := by
  have written : ∀ vs : Tokens, vs.toSource = " ".intercalate ((vs.map (·.text)).map quote) := by
    intro vs
    rw [Tokens.toSource, List.map_map]
    rfl
  rw [written, written, same]

/-- Written out at any place, tokens are read back there. -/
theorem tokenize_toSource (ts : Tokens) (offset : Nat) :
    tokenize ts.toSource.toList offset = .ok (rewritten offset ts) :=
  (lexes_toSource true offset ts).lex_eq_ok

/-- The tokens `ts` are written out and read back as `us`: with the same texts in the same
order, and so nothing changes when they are written out once more. -/
structure ReadBack (ts us : Tokens) : Prop where
  texts : us.map (·.text) = ts.map (·.text)
  settled : us.toSource = ts.toSource

/-- Whatever their texts are, tokens are written out as a line that is read as tokens with
these texts; so are the tokens of every line that has some. -/
theorem tokens_read_back :
    (∀ (ts : Tokens) (offset : Nat), ∃ us,
      tokenize ts.toSource.toList offset = .ok us ∧ ReadBack ts us) ∧
    ∀ (line : List Char) (place : Nat) (ts : Tokens), tokenize line place = .ok ts →
      ∀ offset, ∃ us, tokenize ts.toSource.toList offset = .ok us ∧ ReadBack ts us := by
  have readBack : ∀ (ts : Tokens) (offset : Nat), ∃ us,
      tokenize ts.toSource.toList offset = .ok us ∧ ReadBack ts us := by
    intro ts offset
    have texts := texts_rewritten offset ts
    exact ⟨rewritten offset ts, tokenize_toSource ts offset, texts, toSource_congr texts⟩
  exact ⟨readBack, fun _ _ ts _ offset => readBack ts offset⟩

/-- A line with a quoted text, with escapes and with a comment at its end. -/
def annotatedLine : List Char :=
  "a = person \"the \\\"user\\\"\" '//' \x7b // by name".toList

/-- Without its comment the line is read back from what is written. -/
theorem annotatedLine_read_back : ∃ ts, tokenize annotatedLine 3 = .ok ts ∧
    ts.map (·.text) = ["a", "=", "person", "the \"user\"", "//", "\x7b"] ∧
    ∃ us, tokenize ts.toSource.toList 0 = .ok us ∧ ReadBack ts us := by
  have lexed : tokenize annotatedLine 3 = .ok _ := rfl
  exact ⟨_, lexed, by decide, tokens_read_back.2 annotatedLine 3 _ lexed 0⟩

end Edifice.Source
