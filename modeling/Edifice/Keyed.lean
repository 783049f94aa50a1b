/-!
Lists that hold one value for each key.

A new key goes to the end; a value for a known key takes the place of the earlier one.
Elements and relationships are kept this way under their own ids, views and decisions as
pairs with the keys they were entered under, and what a view shows is kept as a list
without repetition.
-/

namespace Edifice

/-- Adds a value at the end unless it is there already. -/
def insertLast {α : Type} [BEq α] (x : α) (l : List α) : List α :=
  if l.contains x then l else l ++ [x]

section Keyed

variable {α κ : Type} [BEq κ] (key : α → κ)

/-- Puts a value in the place of the one with its key, or else at the end. -/
def putKeyed (x : α) : List α → List α
  | [] => [x]
  | y :: rest => if key y == key x then x :: rest else y :: putKeyed x rest

variable {key} [LawfulBEq κ]

/-- A value with a new key goes to the end. -/
theorem putKeyed_of_new {x : α} {l : List α} (new : ∀ y ∈ l, key y ≠ key x) :
    putKeyed key x l = l ++ [x] := by
  induction l with
  | nil => rfl
  | cons y rest ih =>
    have other : key y ≠ key x := new y (List.mem_cons_self ..)
    have further := ih fun z member => new z (List.mem_cons_of_mem y member)
    simp [putKeyed, other, further]

/-- A put adds its key at the end unless it is listed already. -/
theorem map_key_putKeyed [DecidableEq κ] (x : α) (l : List α) :
    (putKeyed key x l).map key =
      if key x ∈ l.map key then l.map key else l.map key ++ [key x] := by
  induction l with
  | nil => simp [putKeyed]
  | cons y rest ih =>
    by_cases same : key y = key x
    · simp [putKeyed, same]
    · have other : key x ≠ key y := fun h => same h.symm
      by_cases listed : key x ∈ rest.map key <;> simp_all [putKeyed]

omit [LawfulBEq κ] in
/-- A put brings in nothing but the value that is put. -/
theorem mem_of_mem_putKeyed {x y : α} {l : List α} (member : y ∈ putKeyed key x l) :
    y = x ∨ y ∈ l := by
  induction l with
  | nil => exact .inl (List.mem_singleton.mp member)
  | cons z rest ih =>
    unfold putKeyed at member
    split at member
    · exact (List.mem_cons.mp member).imp_right (List.mem_cons_of_mem z)
    · rcases List.mem_cons.mp member with rfl | further
      · exact .inr (List.mem_cons_self ..)
      · exact (ih further).imp_right (List.mem_cons_of_mem z)

/-- A put leaves the values with other keys alone. -/
theorem filter_putKeyed (x : α) (l : List α) :
    (putKeyed key x l).filter (fun y => key y != key x) = l.filter fun y => key y != key x := by
  induction l with
  | nil => simp [putKeyed]
  | cons z rest ih =>
    unfold putKeyed
    by_cases same : key z = key x
    · simp [same]
    · simp [same, ih]

/-- After a put, its value is found under its key and all others are found as before. -/
theorem find?_putKeyed [DecidableEq κ] (x : α) (l : List α) (k : κ) :
    (putKeyed key x l).find? (fun y => key y == k) =
      if key x = k then some x else l.find? fun y => key y == k := by
  induction l with
  | nil => by_cases own : key x = k <;> simp [putKeyed, own]
  | cons z rest ih =>
    unfold putKeyed
    by_cases same : key z = key x
    · by_cases own : key x = k <;> simp [same, own]
    · rw [if_neg (by simpa using same), List.find?_cons, ih]
      by_cases own : key x = k
      · have other : key z ≠ k := fun here => same (here.trans own.symm)
        simp [own, beq_false_of_ne other]
      · rw [if_neg own, if_neg own, List.find?_cons]

/-- A value is found under its key where no other one has it. -/
theorem find?_key_of_mem {x : α} {l : List α} (distinct : (l.map key).Nodup) (member : x ∈ l) :
    l.find? (fun y => key y == key x) = some x := by
  induction l with
  | nil => cases member
  | cons z rest ih =>
    rw [List.map_cons, List.nodup_cons] at distinct
    rcases List.mem_cons.mp member with rfl | further
    · simp
    · have other : key z ≠ key x := by
        intro same
        exact distinct.1 (same ▸ List.mem_map_of_mem further)
      simp [other, ih distinct.2 further]

/-- Values of another form that agree on the value found and the one put in its place
agree on the lists. -/
theorem map_putKeyed_of_found {β : Type} {f : α → β} {x y : α} {l : List α}
    (found : l.find? (fun z => key z == key x) = some y) (agree : f x = f y) :
    (putKeyed key x l).map f = l.map f := by
  induction l with
  | nil => cases found
  | cons z rest ih =>
    by_cases same : key z = key x
    · obtain rfl : z = y := by simpa [same] using found
      simp [putKeyed, same, agree]
    · have further := ih (by simpa [same] using found)
      simp [putKeyed, same, further]

/-- Putting the value that is found in its own place changes nothing. -/
theorem putKeyed_found {x : α} {l : List α}
    (found : l.find? (fun z => key z == key x) = some x) : putKeyed key x l = l := by
  simpa using map_putKeyed_of_found (f := id) found rfl

/-- Of two values that are put under one key the later one stays. -/
theorem putKeyed_putKeyed {x y : α} (own : key x = key y) (l : List α) :
    putKeyed key x (putKeyed key y l) = putKeyed key x l := by
  induction l with
  | nil => simp [putKeyed, own]
  | cons z rest ih =>
    by_cases same : key z = key y
    · simp [putKeyed, same, own]
    · simp [putKeyed, same, own, ih]

end Keyed

end Edifice
