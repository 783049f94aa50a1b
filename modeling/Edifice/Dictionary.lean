import Edifice.Keyed

/-!
Dictionaries that remember the order in which their names were first entered.

Properties, constants and deployment environments are kept this way: a later value
for a name replaces the earlier one in place (`get?_insert`), and a name is listed
once (`names_insert`).
-/

namespace Edifice

/-- Values under names, listed in the order in which the names were first entered. -/
structure Dictionary (α : Type) where
  entries : List (String × α) := []
deriving DecidableEq, Repr

namespace Dictionary

variable {α : Type}

def empty : Dictionary α := ⟨[]⟩

/-- The names in the order of their first entry. -/
def names (d : Dictionary α) : List String :=
  d.entries.map Prod.fst

def get? (d : Dictionary α) (name : String) : Option α :=
  d.entries.lookup name

def contains (d : Dictionary α) (name : String) : Bool :=
  (d.get? name).isSome

/-- Replaces the value under `name` in place, or puts a new entry at the end. -/
def insertEntry (name : String) (value : α) : List (String × α) → List (String × α)
  | [] => [(name, value)]
  | (n, v) :: rest =>
    if n = name then (name, value) :: rest else (n, v) :: insertEntry name value rest

def insert (d : Dictionary α) (name : String) (value : α) : Dictionary α :=
  ⟨insertEntry name value d.entries⟩

/-! ### The view of an entry -/

/-- After an insertion the name has the new value, and every other name the one it had. -/
theorem lookup_insertEntry (name other : String) (value : α) (l : List (String × α)) :
    (insertEntry name value l).lookup other =
      if other = name then some value else l.lookup other := by
  induction l with
  | nil =>
    by_cases h : other = name
    · simp [insertEntry, h]
    · have hb : (other == name) = false := by simpa using h
      simp [insertEntry, List.lookup_cons, hb, h]
  | cons e rest ih =>
    obtain ⟨n, v⟩ := e
    by_cases hn : n = name
    · subst hn
      by_cases h : other = n
      · simp [insertEntry, h]
      · have hb : (other == n) = false := by simpa using h
        simp [insertEntry, List.lookup_cons, hb, h]
    · by_cases h : other = n
      · subst h
        simp [insertEntry, hn]
      · have hb : (other == n) = false := by simpa using h
        simp [insertEntry, List.lookup_cons, hn, hb, ih]

/-- Reading after an entry: the new value under its name, the old ones elsewhere. -/
@[simp] theorem get?_insert (d : Dictionary α) (name other : String) (value : α) :
    (d.insert name value).get? other = if other = name then some value else d.get? other :=
  lookup_insertEntry name other value d.entries

/-- Entries are kept under their names. -/
theorem insertEntry_eq (name : String) (value : α) (l : List (String × α)) :
    insertEntry name value l = putKeyed Prod.fst (name, value) l := by
  induction l with
  | nil => rfl
  | cons e rest ih => simp [insertEntry, putKeyed, ih]

/-- An entry adds its name at the end unless it is listed already. -/
theorem names_insert (d : Dictionary α) (name : String) (value : α) :
    (d.insert name value).names = if name ∈ d.names then d.names else d.names ++ [name] := by
  simp only [insert, names, insertEntry_eq]
  exact map_key_putKeyed (name, value) d.entries

end Dictionary

end Edifice
