/-!
Lists kept in ascending order of a key.

`insertSorted` puts a value in its place and replaces a value with an equal key.
Names are compared by code points, which is also the order of their UTF-8 bytes.
-/

namespace Edifice

/-- Puts `x` in front of the first value that is not below it, replacing a value that
is neither below nor above it. -/
def insertSorted {α : Type} (below : α → α → Bool) (x : α) : List α → List α
  | [] => [x]
  | y :: ys =>
    if below x y then x :: y :: ys
    else if below y x then y :: insertSorted below x ys
    else x :: ys

/-- Nothing but the inserted value is new. -/
theorem mem_of_mem_insertSorted {α : Type} {below : α → α → Bool} {x y : α} {l : List α}
    (h : y ∈ insertSorted below x l) : y = x ∨ y ∈ l := by
  induction l with
  | nil => simpa [insertSorted] using h
  | cons z zs ih =>
    unfold insertSorted at h
    split at h
    · simpa using h
    · split at h
      · rcases List.mem_cons.mp h with rfl | h'
        · exact Or.inr (List.mem_cons_self ..)
        · exact (ih h').imp_right (List.mem_cons_of_mem z)
      · rcases List.mem_cons.mp h with rfl | h'
        · exact Or.inl rfl
        · exact Or.inr (List.mem_cons_of_mem z h')

/-- Ascending order of pairs of names, the first name deciding before the second. -/
def pairBelow (a b : String × String) : Bool :=
  decide (a.1 < b.1) || (a.1 == b.1 && decide (a.2 < b.2))

end Edifice
