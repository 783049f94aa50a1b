import Edifice.Builder.Views
import Mathlib.Data.List.Nodup

/-!
Generated keys are free.

The keys of one stem differ for different numbers, however many digits these have
(`generatedKey_injective`).  Among as many numbers as there are taken keys, and one more,
there is therefore one whose key is free, and the search finds the first of them
(`generateKey_not_mem`).
-/

namespace Edifice

/-- Padding changes the writing of a number, not its value. -/
theorem Text.padded_injective (width : Nat) : Function.Injective (Text.padded width) := by
  have value : ∀ n, Nat.ofDigitChars 10 (Text.padded width n).toList 0 = n := by
    intro n
    simp [Text.padded, Nat.toString_eq_repr, Nat.ofDigitChars_append,
      Nat.ofDigitChars_replicate_zero, Nat.ofDigitChars_ten_toDigits]
  intro a b same
  rw [← value a, same, value b]

/-- Different numbers make different keys. -/
theorem generatedKey_injective (stem : String) : Function.Injective (generatedKey stem) := by
  intro a b same
  have digits : (Text.padded 3 a).toList = (Text.padded 3 b).toList := by
    simpa [generatedKey] using congrArg String.toList same
  exact Text.padded_injective 3 (String.toList_inj.mp digits)

section Fresh

variable {taken : List String} {stem : String}

/-- The search passes over taken keys only. -/
theorem mem_of_lt_freshNumber {limit n i : Nat} (from_ : n ≤ i)
    (passed : i < freshNumber taken stem limit n) : generatedKey stem i ∈ taken := by
  induction limit generalizing n with
  | zero =>
    simp only [freshNumber] at passed
    omega
  | succ limit ih =>
    unfold freshNumber at passed
    split at passed
    case isTrue listed =>
      rcases Nat.eq_or_lt_of_le from_ with rfl | later
      · simpa using listed
      · exact ih later passed
    case isFalse => omega

/-- The search ends at a free key, or after all the numbers it may try. -/
theorem freshNumber_eq_of_mem {limit n : Nat}
    (listed : generatedKey stem (freshNumber taken stem limit n) ∈ taken) :
    freshNumber taken stem limit n = n + limit := by
  induction limit generalizing n with
  | zero => rfl
  | succ limit ih =>
    unfold freshNumber at listed ⊢
    split
    case isTrue passed =>
      rw [if_pos passed] at listed
      rw [ih listed]
      omega
    case isFalse free =>
      rw [if_neg free] at listed
      exact absurd (List.contains_iff_mem.mpr listed) free

/-- Not all keys of as many numbers as are taken, and one more, can be taken. -/
theorem freshNumber_not_mem (n : Nat) :
    generatedKey stem (freshNumber taken stem taken.length n) ∉ taken := by
  intro listed
  have last := freshNumber_eq_of_mem listed
  let tried := (List.range' n (taken.length + 1)).map (generatedKey stem)
  have distinct : tried.Nodup := List.Nodup.map (generatedKey_injective stem) List.nodup_range'
  have all_taken : tried ⊆ taken := by
    intro key member
    obtain ⟨i, tried, rfl⟩ := List.mem_map.mp member
    obtain ⟨from_, until_⟩ := List.mem_range'_1.mp tried
    rcases Nat.lt_or_ge i (n + taken.length) with before | at_end
    · exact mem_of_lt_freshNumber from_ (last ▸ before)
    · obtain rfl : i = freshNumber taken stem taken.length n := by omega
      exact listed
  have := distinct.length_le_of_subset all_taken
  simp only [tried, List.length_map, List.length_range'] at this
  omega

end Fresh

namespace Builder

/-- A generated key is the key of no view. -/
theorem generateKey_not_mem (b : Builder) (kind : ViewKind) :
    (b.generateKey kind).1 ∉ b.views.keys :=
  freshNumber_not_mem _

end Builder

end Edifice
