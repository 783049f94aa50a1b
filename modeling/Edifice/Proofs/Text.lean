import Edifice.Text.Ascii
import Edifice.Text.Blank
import Edifice.Text.Split
import Mathlib.Data.List.DropRight

/-!
Trimmed texts and texts cut at marks.

A trimmed text has no blank at either end (`Trimmed`); trimming makes one of any text, leaves
alone those that are trimmed already, and takes no notice of blanks in front or behind.  A text
is known without a mark at its start or at its end exactly if the mark stands there.
-/

namespace Edifice.Text

variable {s t mark rest : String} {cs before : List Char}

/-! ### Letters and digits -/

theorem toNat_of_isAlphanum {c : Char} (plain : c.isAlphanum = true) :
    (48 ≤ c.toNat ∧ c.toNat ≤ 57) ∨ (65 ≤ c.toNat ∧ c.toNat ≤ 90) ∨
      (97 ≤ c.toNat ∧ c.toNat ≤ 122) := by
  have ranges : (decide (c.val ≥ 65 ∧ c.val ≤ 90) || c.val ≥ 97 && c.val ≤ 122 ||
      c.val ≥ 48 && c.val ≤ 57) = true := plain
  simp [UInt32.le_iff_toNat_le] at ranges
  omega

theorem isBlank_of_isAlphanum {c : Char} (plain : c.isAlphanum = true) : isBlank c = false := by
  have bounds := toNat_of_isAlphanum plain
  simp [isBlank]
  omega

theorem isPunctuation_of_isAlphanum {c : Char} (plain : c.isAlphanum = true) :
    isPunctuation c = false := by
  have bounds := toNat_of_isAlphanum plain
  simp [isPunctuation]
  omega

/-! ### Trimming -/

/-- No blank stands at either end of the text. -/
structure Trimmed (s : String) : Prop where
  first : ∀ c, s.toList.head? = some c → isBlank c = false
  last : ∀ c, s.toList.getLast? = some c → isBlank c = false

theorem toList_trim (s : String) : (trim s).toList = trimRight (trimLeft s.toList) :=
  String.toList_ofList

theorem trimRight_append_of_last {c : Char} (solid : isBlank c = false) :
    trimRight (cs ++ [c]) = cs ++ [c] :=
  List.rdropWhile_concat_neg _ _ _ (by simp [solid])

/-- Blanks in front are trimmed off. -/
theorem trim_append_of_blank (blank : ∀ c ∈ s.toList, isBlank c = true) :
    trim (s ++ t) = trim t := by
  rw [trim, String.toList_append, trimLeft, List.dropWhile_append_of_pos blank]
  rfl

/-- What follows a character that is not blank is not trimmed from the left. -/
theorem trimLeft_append_cons {c : Char} (solid : isBlank c = false) :
    trimLeft (before ++ c :: cs) = trimLeft before ++ c :: cs := by
  rw [trimLeft, List.dropWhile_append, List.dropWhile_cons_of_neg (by simp [solid])]
  split
  case isTrue blank => rw [trimLeft, List.isEmpty_iff.mp blank, List.nil_append]
  case isFalse => rfl

/-- What is trimmed already is not trimmed further. -/
theorem Trimmed.trim_eq (trimmed : Trimmed s) : trim s = s := by
  rw [← String.toList_inj, toList_trim]
  have left : trimLeft s.toList = s.toList := by
    cases letters : s.toList with
    | nil => rfl
    | cons c cs => exact List.dropWhile_cons_of_neg (by simp [trimmed.first c (by simp [letters])])
  rw [left]
  exact List.rdropWhile_eq_self_iff.mpr fun some_ => by
    simp [trimmed.last _ (List.getLast?_eq_some_getLast some_)]

/-- Unless all is trimmed from the right, what starts the text stays there. -/
theorem head?_trim (s : String) : (trim s).toList.head? = (trimLeft s.toList).head? := by
  rw [toList_trim]
  cases left : trimLeft s.toList with
  | nil => rfl
  | cons c cs =>
    have solid := List.head?_dropWhile_not isBlank s.toList
    rw [← trimLeft, left] at solid
    have some_letter : trimRight (c :: cs) ≠ [] := fun nothing =>
      Bool.false_ne_true (solid.symm.trans (List.rdropWhile_eq_nil_iff.mp nothing c (by simp)))
    obtain ⟨dropped, whole⟩ := List.rdropWhile_prefix isBlank (c :: cs)
    exact (List.head?_append_of_ne_nil _ some_letter).symm.trans (congrArg List.head? whole)

/-- Nothing is left to trim on either side. -/
theorem trimmed_trim (s : String) : Trimmed (trim s) := by
  constructor
  · intro c starts
    have solid := List.head?_dropWhile_not isBlank s.toList
    rw [head?_trim, trimLeft] at starts
    rwa [starts] at solid
  · intro c ends
    rw [toList_trim] at ends
    have some_ : trimRight (trimLeft s.toList) ≠ [] := by
      rintro nothing
      simp [nothing] at ends
    have solid := List.rdropWhile_last_not isBlank (trimLeft s.toList) some_
    rw [List.getLast?_eq_some_getLast some_, Option.some.injEq] at ends
    subst ends
    exact Bool.eq_false_iff.mpr solid

/-- What ends like a trimmed text and does not start with a blank is trimmed. -/
theorem Trimmed.prepend (trimmed : Trimmed t) (some_text : t ≠ "") (first : ∃ c cs,
    s.toList = c :: cs ∧ isBlank c = false) : Trimmed (s ++ t) := by
  obtain ⟨c, cs, letters, solid⟩ := first
  constructor
  · intro d starts
    rw [String.toList_append, letters, List.cons_append, List.head?_cons,
      Option.some.injEq] at starts
    exact starts ▸ solid
  · intro d ends
    have some_letter : t.toList ≠ [] := mt String.toList_eq_nil_iff.mp some_text
    rw [String.toList_append, List.getLast?_append_of_ne_nil _ some_letter] at ends
    exact trimmed.last d ends

/-- A text without blanks is trimmed. -/
theorem trimmed_of_solid (solid : ∀ c ∈ s.toList, isBlank c = false) : Trimmed s where
  first c starts := solid c (List.mem_of_mem_head? starts)
  last c ends := solid c (List.mem_of_getLast? ends)

theorem trim_trimLeft (s : String) : trim (String.ofList (trimLeft s.toList)) = trim s := by
  simp only [trim, String.toList_ofList, trimLeft, List.dropWhile_idempotent]

/-- Nothing but characters of a text is left of it when it is trimmed. -/
theorem mem_of_mem_trim {c : Char} (mem : c ∈ (trim s).toList) : c ∈ s.toList := by
  rw [toList_trim] at mem
  exact (List.dropWhile_sublist _).subset ((List.rdropWhile_prefix isBlank _).subset mem)

/-- Nothing is left of a text exactly if it is blank. -/
theorem trim_eq_empty_iff : trim s = "" ↔ isBlankText s = true := by
  rw [← String.toList_inj, toList_trim, isBlankText, List.all_eq_true]
  constructor
  · intro nothing
    have dropped : ∀ c ∈ trimLeft s.toList, isBlank c = true :=
      List.rdropWhile_eq_nil_iff.mp nothing
    intro c mem
    rcases List.mem_append.mp
      (List.takeWhile_append_dropWhile (p := isBlank) (l := s.toList) ▸ mem) with mem | mem
    · exact List.all_eq_true.mp List.all_takeWhile c mem
    · exact dropped c mem
  · intro blank
    rw [trimLeft, List.dropWhile_eq_nil_iff.mpr blank]
    rfl

/-! ### Marks at the ends -/

theorem startsWith_singleton {c : Char} :
    startsWith (String.singleton c) s = true ↔ s.toList.head? = some c := by
  rw [startsWith, String.toList_singleton, List.isPrefixOf_iff_prefix]
  cases s.toList <;> simp [eq_comm]

/-- A mark is taken off exactly where the text starts with it. -/
theorem afterMark?_eq_some {mark cs rest : List Char} :
    afterMark? mark cs = some rest ↔ cs = mark ++ rest := by
  unfold afterMark?
  split
  case isTrue starts =>
    obtain ⟨after, rfl⟩ := List.isPrefixOf_iff_prefix.mp starts
    simp
  case isFalse other =>
    refine iff_of_false nofun ?_
    rintro rfl
    exact other (List.isPrefixOf_iff_prefix.mpr (List.prefix_append _ _))

/-- What starts with a mark is known without it. -/
theorem stripStart?_eq_some : stripStart? mark s = some rest ↔ s = mark ++ rest := by
  rw [stripStart?, Option.map_eq_some_iff, ← String.toList_inj, String.toList_append]
  simp only [afterMark?_eq_some, ← String.toList_inj, String.toList_ofList]
  exact ⟨fun ⟨_, whole, same⟩ => same ▸ whole, fun whole => ⟨_, whole, rfl⟩⟩

theorem stripStart?_eq_none : stripStart? mark s = none ↔ ¬ mark.toList <+: s.toList := by
  rw [Option.eq_none_iff_forall_ne_some]
  simp only [ne_eq, stripStart?_eq_some]
  constructor
  · rintro other ⟨rest, whole⟩
    exact other (String.ofList rest) (String.toList_inj.mp (by simp [whole]))
  · rintro other rest rfl
    exact other ⟨rest.toList, by simp⟩

/-- What ends with a mark is known without it. -/
theorem stripEnd?_eq_some : stripEnd? mark s = some rest ↔ s = rest ++ mark := by
  have ends : endsWith mark s = true ↔ mark.toList <:+ s.toList := List.isSuffixOf_iff_suffix
  unfold stripEnd?
  split
  case isTrue suffix =>
    obtain ⟨front, own⟩ := ends.mp suffix
    have length : s.length - mark.length = front.length := by
      rw [← String.length_toList, ← own, List.length_append, String.length_toList]
      omega
    have cut : s = rest ++ mark ↔ front = rest.toList := by
      rw [← String.toList_inj, String.toList_append, ← own, List.append_left_inj]
    rw [length, ← own, List.take_left', Option.some.injEq, cut, ← String.toList_inj,
      String.toList_ofList]
    rfl
  case isFalse other =>
    refine iff_of_false nofun ?_
    rintro rfl
    exact other (ends.mpr ⟨rest.toList, by simp⟩)

/-! ### Pieces -/

/-- Texts with a mark between them are cut into the pieces of both. -/
theorem pieces_append (mark : Char) (s t : String) :
    pieces mark (s ++ String.singleton mark ++ t) = pieces mark s ++ pieces mark t := by
  have cut := List.splitOn_append_cons_of_beq (a := mark) s.toList t.toList (beq_self_eq_true mark)
  simp [pieces, cut]

/-- Texts without the mark, put together with it, are cut apart again. -/
theorem pieces_intercalate {mark : Char} {texts : List String} (some_text : texts ≠ [])
    (absent : ∀ s ∈ texts, mark ∉ s.toList) :
    pieces mark ((String.singleton mark).intercalate texts) = texts := by
  have cut := List.splitOn_intercalate mark (List.forall_mem_map.mpr absent)
    (by simpa using some_text)
  rw [pieces, String.toList_intercalate, String.toList_singleton, cut, List.map_map]
  simp [Function.comp_def]

/-- A mark stands in no piece that it cuts out. -/
theorem not_mem_of_mem_pieces {mark : Char} {piece : String} (cut : piece ∈ pieces mark s) :
    mark ∉ piece.toList := by
  obtain ⟨cs, listed, rfl⟩ := List.mem_map.mp cut
  clear cut
  rw [String.toList_ofList]
  generalize s.toList = letters at listed
  induction letters generalizing cs with
  | nil => simp_all
  | cons c letters ih =>
    rw [List.splitOn_cons_eq_if_modifyHead] at listed
    split at listed
    case isTrue =>
      rcases List.mem_cons.mp listed with rfl | further
      · exact List.not_mem_nil
      · exact ih cs further
    case isFalse other =>
      cases cut : letters.splitOn mark with
      | nil => exact absurd cut (List.splitOn_ne_nil mark letters)
      | cons first others =>
        rw [cut, List.modifyHead_cons] at listed
        rcases List.mem_cons.mp listed with rfl | further
        · have here : mark ≠ c := fun same => other (by simp [same])
          exact List.not_mem_cons_of_ne_of_not_mem here (ih first (by simp [cut]))
        · exact ih cs (by simp [cut, further])

/-- Every other character of a text stands in one of its pieces. -/
theorem exists_piece_of_mem {mark c : Char} (mem : c ∈ s.toList) (other : c ≠ mark) :
    ∃ piece ∈ pieces mark s, c ∈ piece.toList := by
  suffices ∀ letters : List Char, c ∈ letters → ∃ cs ∈ letters.splitOn mark, c ∈ cs by
    obtain ⟨cs, listed, mem⟩ := this s.toList mem
    exact ⟨String.ofList cs, List.mem_map_of_mem listed, by rwa [String.toList_ofList]⟩
  intro letters mem
  induction letters with
  | nil => cases mem
  | cons d letters ih =>
    rw [List.splitOn_cons_eq_if_modifyHead]
    split
    case isTrue same =>
      have elsewhere : c ≠ d := fun here => other (here.trans (beq_iff_eq.mp same))
      have further := List.mem_of_ne_of_mem elsewhere mem
      obtain ⟨cs, listed, mem⟩ := ih further
      exact ⟨cs, List.mem_cons_of_mem _ listed, mem⟩
    case isFalse =>
      cases cut : letters.splitOn mark with
      | nil => exact absurd cut (List.splitOn_ne_nil mark letters)
      | cons first others =>
        rw [List.modifyHead_cons]
        rcases List.mem_cons.mp mem with rfl | further
        · exact ⟨c :: first, List.mem_cons_self, List.mem_cons_self⟩
        · obtain ⟨cs, listed, mem⟩ := ih further
          rw [cut] at listed
          rcases List.mem_cons.mp listed with rfl | later
          · exact ⟨d :: cs, List.mem_cons_self, List.mem_cons_of_mem d mem⟩
          · exact ⟨cs, List.mem_cons_of_mem _ later, mem⟩

end Edifice.Text
