import Edifice.Language.Directives
import Edifice.Settings.Document

/-!
The options for reading sources, as a settings file holds them.

The options stand in the table `parser`, or in an array of that name in a fixed order.
What is not there keeps its default.  What is not known is passed over, but its numbers
have to be in range.
-/

namespace Edifice.Settings

def tableName : String := "parser"

/-- The names of the options in the order in which an array gives them. -/
def optionNames : List String :=
  ["identifiers", "implied_relationships", "restricted", "warnings_as_errors"]

/-- Whether a value is an array or a table that holds nothing. -/
def Value.isVacant : Value → Bool
  | .array items => items.isEmpty
  | .table _ entries => entries.isEmpty
  | .tables items => items.isEmpty
  | _ => false

def readSwitch? : Value → Option Bool
  | .boolean b => some b
  | _ => none

def modeNamed? : String → Option IdentifierMode
  | "flat" => some .flat
  | "hierarchical" => some .hierarchical
  | _ => none

/-- Reads the identifier mode: its name, or a table with nothing under its name. -/
def readMode? : Value → Option IdentifierMode
  | .text name => modeNamed? name
  | .table _ [(name, v)] => if v.isVacant then modeNamed? name else none
  | _ => none

/-- Whether every number under other keys than `names` is in range. -/
def restInRange (names : List String) (es : Entries) : Bool :=
  entriesInRange (es.filter fun e => !names.contains e.1)

/-- Reads what stands under a key, or else takes the default. -/
def readOr? {α : Type} (read : Value → Option α) (es : Entries) (key : String) (default : α) :
    Option α :=
  match es.lookup key with
  | some v => read v
  | none => some default

/-- The options by their names. -/
def namedOptions? : Value → Option Entries
  | .table _ es => some es
  | .array items => some (optionNames.zip items)
  | .tables items => some (optionNames.zip (items.map (.table .header)))
  | .moment => some []
  | _ => none

def readTable? (es : Entries) : Option Language.Options := do
  let d : Language.Options := {}
  let identifiers ← readOr? readMode? es "identifiers" d.identifiers
  let impliedRelationships ←
    readOr? readSwitch? es "implied_relationships" d.impliedRelationships
  let restricted ← readOr? readSwitch? es "restricted" d.restricted
  let warningsAsErrors ← readOr? readSwitch? es "warnings_as_errors" d.warningsAsErrors
  guard (restInRange optionNames es)
  return { identifiers, impliedRelationships, restricted, warningsAsErrors }

/-- Reads the options from the text of a settings file. -/
def readOptions? (text : String) : Option Language.Options := do
  let es ← readDocument? text
  guard (restInRange [tableName] es)
  match es.lookup tableName with
  | none => return {}
  | some v => readTable? (← namedOptions? v)

end Edifice.Settings
