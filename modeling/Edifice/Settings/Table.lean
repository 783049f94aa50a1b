import Edifice.Settings.Number

/-!
The tables of a settings file.

A table remembers how it came to be.  A name is given a value once; later lines may only
add to tables that no line was meant to hold in full.
-/

namespace Edifice.Settings

/-- How a table came to be. -/
inductive TableForm where
  /-- By a header that names it. -/
  | header
  /-- By a header that names a table inside it. -/
  | implied
  /-- By a dotted key. -/
  | dotted
  /-- In braces. -/
  | inline
deriving DecidableEq, Repr

/-- What stands under a key. -/
inductive Value where
  | text (s : String)
  | boolean (b : Bool)
  | number (n : Number)
  /-- A point in time. -/
  | moment
  | array (items : List Value)
  | table (form : TableForm) (entries : List (String × Value))
  /-- The tables with one repeated header, in their order. -/
  | tables (items : List (List (String × Value)))
deriving Repr

mutual

def Value.inRange : Value → Bool
  | .text _ | .boolean _ | .moment => true
  | .number n => n.inRange
  | .array items => itemsInRange items
  | .table _ entries => entriesInRange entries
  | .tables items => tablesInRange items

def itemsInRange : List Value → Bool
  | [] => true
  | v :: vs => v.inRange && itemsInRange vs

def entriesInRange : List (String × Value) → Bool
  | [] => true
  | (_, v) :: es => v.inRange && entriesInRange es

def tablesInRange : List (List (String × Value)) → Bool
  | [] => true
  | es :: tables => entriesInRange es && tablesInRange tables

end

/-- The keys of a table with what stands under them. -/
abbrev Entries := List (String × Value)

namespace Entries

/-- The table with another value under a key that it has. -/
def replace (es : Entries) (key : String) (value : Value) : Entries :=
  es.map fun e => if e.1 == key then (key, value) else e

/-- The table with a value under a key that it does not have. -/
def add? (es : Entries) (key : String) (value : Value) : Option Entries :=
  match es.lookup key with
  | some _ => none
  | none => some (es ++ [(key, value)])

/-- The tables with a change made to the last of them. -/
def changeLast? (change : Entries → Option Entries) : List Entries → Option (List Entries)
  | [] => none
  | [last] => (change last).map ([·])
  | first :: rest => (changeLast? change rest).map (first :: ·)

/-- The table with a value under a dotted key.  The value goes into a new table or into
one that a dotted key has made.  On the way there it may also pass a table that is known
from the header of a table inside it only, and the last of the tables with a repeated
header. -/
def assign? (value : Value) : List String → Entries → Option Entries
  | [], _ => none
  | [key], es => es.add? key value
  | key :: rest, es =>
    match es.lookup key with
    | none => (assign? value rest []).map fun child => es ++ [(key, .table .dotted child)]
    | some (.table .dotted child) =>
      (assign? value rest child).map fun child => es.replace key (.table .dotted child)
    | some (.table .implied child) =>
      if rest.length = 1 then none
      else (assign? value rest child).map fun child => es.replace key (.table .implied child)
    | some (.tables items) =>
      if rest.length = 1 then none
      else (changeLast? (assign? value rest) items).map fun items =>
        es.replace key (.tables items)
    | some _ => none

/-- The table with a change made to the table that a header leads to.  Of tables with a
repeated header the last is meant. -/
def within? (change : Entries → Option Entries) : List String → Entries → Option Entries
  | [], es => change es
  | key :: rest, es =>
    match es.lookup key with
    | none => (within? change rest []).map fun child => es ++ [(key, .table .implied child)]
    | some (.table .inline _) => none
    | some (.table form child) =>
      (within? change rest child).map fun child => es.replace key (.table form child)
    | some (.tables items) =>
      (changeLast? (within? change rest) items).map fun items =>
        es.replace key (.tables items)
    | some _ => none

/-- The table after the header of a table inside it. -/
def openTable? (key : String) (es : Entries) : Option Entries :=
  match es.lookup key with
  | none => some (es ++ [(key, .table .header [])])
  | some (.table .implied child) => some (es.replace key (.table .header child))
  | some _ => none

/-- The table after a repeated header of a table inside it. -/
def repeatTable? (key : String) (es : Entries) : Option Entries :=
  match es.lookup key with
  | none => some (es ++ [(key, .tables [[]])])
  | some (.tables items) => some (es.replace key (.tables (items ++ [[]])))
  | some _ => none

end Entries

end Edifice.Settings
