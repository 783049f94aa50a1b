import Edifice.Identifier.Basic
import Edifice.Proofs.Text
import Mathlib.Data.Nat.Init
import Mathlib.Logic.Function.Basic

/-!
Names and paths as texts.

A name that an author may choose is no path and starts with no two underscores; the name of
something unnamed is no path either, and tells its number.  A path is taken apart into the
names that it was put together from (`segments_intercalate`), and its first segment is the
name of something unnamed only if the path starts like one.
-/

namespace Edifice.Identifier

variable {name : String}

/-! ### Chosen names -/

theorem isAnonymous_of_isValid (valid : isValid name = true) : isAnonymous name = false := by
  simp only [isValid, Bool.and_eq_true, Bool.not_eq_true'] at valid
  exact valid.1.2

/-- The mark of paths does not stand in identifiers. -/
theorem isPath_of_isValid (valid : isValid name = true) : isPath name = false := by
  simp only [isValid, Bool.and_eq_true, List.all_eq_true] at valid
  have absent : pathMark ∉ name.toList := by
    intro listed
    have permitted := valid.2 pathMark listed
    have refused : isIdentifierChar pathMark = false := by decide +kernel
    rw [refused] at permitted
    cases permitted
  simpa [isPath, Text.contains] using absent

/-! ### Names of what is unnamed -/

theorem isAnonymous_anonymous (index : Nat) : isAnonymous (anonymous index) = true := by
  simp [isAnonymous, anonymous, Text.startsWith]

/-- No identifier that can be written is one of those for blocks without a name. -/
theorem isPath_anonymous (index : Nat) : isPath (anonymous index) = false := by
  have digits : ∀ c ∈ Nat.toDigits 10 index, c ≠ pathMark := by
    rintro c listed rfl
    have digit := Nat.isDigit_of_mem_toDigits (by omega) (by omega) listed
    simp [pathMark, Char.isDigit] at digit
  have stem : pathMark ∉ anonymousStem.toList := by decide
  have absent : pathMark ∉ (anonymous index).toList := by
    rw [anonymous, String.toList_append, Nat.toString_eq_repr, Nat.toList_repr, List.mem_append]
    rintro (listed | listed)
    · exact stem listed
    · exact digits _ listed rfl
  simpa [isPath, Text.contains] using absent

/-- Different numbers make different names. -/
theorem anonymous_injective : Function.Injective anonymous := by
  intro i j same
  have digits : Nat.toDigits 10 i = Nat.toDigits 10 j := by
    simpa [anonymous, Nat.toString_eq_repr] using congrArg String.toList same
  rw [← Nat.ofDigitChars_ten_toDigits (n := i), digits, Nat.ofDigitChars_ten_toDigits]

/-! ### Segments -/

/-- The segments of a path, put together again. -/
theorem intercalate_segments (name : String) :
    (String.singleton pathMark).intercalate (segments name) = name := by
  rw [← String.toList_inj, String.toList_intercalate, segments, Text.pieces, List.map_map]
  have texts : (String.toList ∘ String.ofList) = id := by
    funext cs
    exact String.toList_ofList
  rw [texts, List.map_id]
  exact List.intercalate_splitOn pathMark

/-- The first segment starts the path. -/
theorem isAnonymous_of_segments {first : String} {rest : List String}
    (cut : segments name = first :: rest) (unnamed : isAnonymous first = true) :
    isAnonymous name = true := by
  have whole := congrArg String.toList (intercalate_segments name)
  rw [cut, String.toList_intercalate] at whole
  have starts : first.toList <+: name.toList := by
    rw [← whole]
    cases rest with
    | nil => simp
    | cons next rest => simp [List.intercalate_cons_cons]
  simp only [isAnonymous, Text.startsWith, List.isPrefixOf_iff_prefix] at unnamed ⊢
  exact unnamed.trans starts

/-- A path is taken apart into the names that it was put together from. -/
theorem segments_intercalate {names : List String} (some_name : names ≠ [])
    (plain : ∀ n ∈ names, isPath n = false) :
    segments ((String.singleton pathMark).intercalate names) = names := by
  refine Text.pieces_intercalate some_name fun n listed => ?_
  simpa [isPath, Text.contains] using plain n listed

/-- Two names put together are a path. -/
theorem isPath_intercalate (first next : String) (rest : List String) :
    isPath ((String.singleton pathMark).intercalate (first :: next :: rest)) = true := by
  simp [isPath, Text.contains, String.toList_intercalate]

end Edifice.Identifier
