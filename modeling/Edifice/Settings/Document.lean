import Edifice.Settings.Reader
import Edifice.Settings.Table

/-!
Reading a settings file, which is a TOML document.

A document is lines of headers and of keys with their values.  A key belongs to the table
of the header before it.
-/

namespace Edifice.Settings

/-! ### Values -/

/-- How many arrays and tables in braces may be open at once, and how many keys dots may
join. -/
def nestingLimit : Nat := 80

mutual

/-- A value, in which `room` arrays and tables in braces may be open at once.  Loops and
values inside take `fuel` steps at most. -/
def value (room : Nat) : (fuel : Nat) → Reader Value
  | 0 => failure
  | fuel + 1 => do
    if ← take? "\"" then return .text (← stringBody '"')
    if ← take? "'" then return .text (← stringBody '\'')
    if ← take? "[" then return .array (← items room fuel)
    if ← take? "\x7b" then return .table .inline (← pairs room fuel [])
    let cs ← scalarText
    if cs == "true".toList then return .boolean true
    if cs == "false".toList then return .boolean false
    if isMoment cs then return .moment
    return .number (← liftM (Number.read? cs))

def items (room : Nat) : (fuel : Nat) → Reader (List Value)
  | 0 => failure
  | fuel + 1 => do
    if room = 0 then failure
    gap (fuel + 1)
    if ← take? "]" then return []
    let v ← value (room - 1) fuel
    gap (fuel + 1)
    if ← take? "," then return v :: (← items room fuel)
    expect "]"
    return [v]

/-- The rest of a table in braces. -/
def pairs (room : Nat) : (fuel : Nat) → Entries → Reader Entries
  | 0, _ => failure
  | fuel + 1, es => do
    if room = 0 then failure
    gap (fuel + 1)
    if ← take? "\x7d" then return es
    let key ← dottedKey nestingLimit
    gap (fuel + 1)
    expect "="
    gap (fuel + 1)
    let v ← value (room - 1) fuel
    let es ← liftM (Entries.assign? v key es)
    gap (fuel + 1)
    if ← take? "," then return ← pairs room fuel es
    expect "\x7d"
    return es

end

/-! ### Lines -/

/-- A document while it is read, and the header of the current table. -/
structure Draft where
  entries : Entries := []
  header : List String := []

/-- Opens the table that a header names. -/
def Draft.enter (d : Draft) (change : String → Entries → Option Entries) (key : List String) :
    Option Draft := do
  let last ← key.getLast?
  let entries ← Entries.within? (change last) key.dropLast d.entries
  return { entries, header := key }

def headerKey : Reader (List String) := do
  spaces
  let key ← dottedKey nestingLimit
  spaces
  return key

def line (fuel : Nat) (d : Draft) : Reader Draft := do
  if ← take? "[[" then
    let key ← headerKey
    expect "]]"
    liftM (d.enter Entries.repeatTable? key)
  else if ← take? "[" then
    let key ← headerKey
    expect "]"
    liftM (d.enter Entries.openTable? key)
  else
    let key ← dottedKey nestingLimit
    spaces
    expect "="
    spaces
    let v ← value nestingLimit fuel
    let entries ← liftM (Entries.within? (Entries.assign? v key) d.header d.entries)
    return { d with entries }

def lines : (fuel : Nat) → Draft → Reader Draft
  | 0, _ => failure
  | fuel + 1, d => do
    gap (fuel + 1)
    if (← get).isEmpty then return d
    let d ← line (fuel + 1) d
    lineEnd
    lines fuel d

/-- Reads a document; there is none if the text is not one. -/
def readDocument? (text : String) : Option Entries :=
  let body := match text.toList with
    | '\uFEFF' :: rest => rest
    | cs => cs
  ((lines (body.length + 1) {}).run body).map fun (d, _) => d.entries

end Edifice.Settings
