import Edifice.Ordered
import Mathlib.Data.Prod.Lex
import Mathlib.Data.String.Basic

/-!
Lists in ascending order.

Where values are compared by a key in a linear order, `insertSorted` keeps a list in strictly
ascending order, and leaves in it all but the value with the key of the new one.
-/

namespace Edifice

section Keyed

variable {α κ : Type} [LinearOrder κ] {key : α → κ} {below : α → α → Bool} {x y : α} {l : List α}

/-- A sorted insertion replaces what has the same key and keeps everything else. -/
theorem mem_insertSorted (by_key : ∀ x y, below x y = true ↔ key x < key y)
    (ascend : l.Pairwise fun x y => key x < key y) :
    y ∈ insertSorted below x l ↔ y = x ∨ (y ∈ l ∧ key y ≠ key x) := by
  induction l with
  | nil => simp [insertSorted]
  | cons z rest ih =>
    obtain ⟨least, ascend⟩ := List.pairwise_cons.mp ascend
    rcases lt_trichotomy (key x) (key z) with before | same | after
    · have others : ∀ y ∈ z :: rest, key y ≠ key x := by
        refine List.forall_mem_cons.mpr ⟨before.ne', fun y listed => ?_⟩
        exact (before.trans (least y listed)).ne'
      rw [insertSorted, if_pos ((by_key x z).mpr before), List.mem_cons]
      exact or_congr_right ⟨fun listed => ⟨listed, others y listed⟩, And.left⟩
    · have others : ∀ y ∈ rest, key y ≠ key x := fun y listed => same ▸ (least y listed).ne'
      have here : ¬ below x z ∧ ¬ below z x := by simp [by_key, same]
      rw [insertSorted, if_neg here.1, if_neg here.2, List.mem_cons, List.mem_cons]
      refine or_congr_right ⟨fun listed => ⟨.inr listed, others y listed⟩, ?_⟩
      rintro ⟨rfl | listed, different⟩
      · exact absurd same.symm different
      · exact listed
    · rw [insertSorted, if_neg (by simp [by_key, after.le]), if_pos ((by_key z x).mpr after),
        List.mem_cons, ih ascend, List.mem_cons]
      constructor
      · rintro (rfl | rfl | ⟨listed, different⟩)
        · exact .inr ⟨.inl rfl, after.ne⟩
        · exact .inl rfl
        · exact .inr ⟨.inr listed, different⟩
      · rintro (rfl | ⟨rfl | listed, different⟩)
        · exact .inr (.inl rfl)
        · exact .inl rfl
        · exact .inr (.inr ⟨listed, different⟩)

/-- A sorted insertion keeps the order, so that no key comes twice. -/
theorem pairwise_insertSorted (by_key : ∀ x y, below x y = true ↔ key x < key y)
    (ascend : l.Pairwise fun x y => key x < key y) :
    (insertSorted below x l).Pairwise fun x y => key x < key y := by
  induction l with
  | nil => exact List.pairwise_singleton _ _
  | cons z rest ih =>
    obtain ⟨least, further⟩ := List.pairwise_cons.mp ascend
    rcases lt_trichotomy (key x) (key z) with before | same | after
    · rw [insertSorted, if_pos ((by_key x z).mpr before), List.pairwise_cons, List.forall_mem_cons]
      exact ⟨⟨before, fun y listed => before.trans (least y listed)⟩, ascend⟩
    · have here : ¬ below x z ∧ ¬ below z x := by simp [by_key, same]
      rw [insertSorted, if_neg here.1, if_neg here.2, List.pairwise_cons]
      exact ⟨fun y listed => same ▸ least y listed, further⟩
    · rw [insertSorted, if_neg (by simp [by_key, after.le]), if_pos ((by_key z x).mpr after),
        List.pairwise_cons]
      refine ⟨fun y listed => ?_, ih further⟩
      rcases (mem_insertSorted by_key further).mp listed with rfl | ⟨listed, -⟩
      · exact after
      · exact least y listed

end Keyed

/-! ### Pairs of names -/

theorem pairBelow_iff (a b : String × String) : pairBelow a b = true ↔ toLex a < toLex b := by
  simp [pairBelow, Prod.Lex.toLex_lt_toLex]

end Edifice
