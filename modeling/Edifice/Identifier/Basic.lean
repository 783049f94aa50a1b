import Edifice.Text.Alphanumeric
import Edifice.Text.Ascii
import Edifice.Text.Split

/-!
The names by which authors refer to elements and relationships.

An identifier is a run of letters, digits, underscores and hyphens.  Names that start
with two underscores are kept for what its author left unnamed, and names joined by dots
are paths through the elements around what they name.
-/

namespace Edifice

namespace Identifier

/-- The start of the names given to what its author left unnamed. -/
def anonymousStem : String := "__"

/-- The name of an unnamed element or relationship, after its id. -/
def anonymous (index : Nat) : String :=
  anonymousStem ++ toString index

/-- Whether the name belongs to something unnamed. -/
def isAnonymous (name : String) : Bool :=
  Text.startsWith anonymousStem name

def pathMark : Char := '.'

/-- The path that leads through `parent` to `child`. -/
def nested (parent child : String) : String :=
  parent ++ String.singleton pathMark ++ child

def isPath (name : String) : Bool :=
  Text.contains pathMark name

def segments (name : String) : List String :=
  Text.pieces pathMark name

def isIdentifierChar (c : Char) : Bool :=
  Text.isAlphanumeric c || c == '_' || c == '-'

def isValid (name : String) : Bool :=
  name != "" && !isAnonymous name && name.toList.all isIdentifierChar

end Identifier

/-- How the identifiers declared inside an element are seen from outside. -/
inductive IdentifierMode where
  /-- All identifiers share one scope. -/
  | flat
  /-- The identifiers declared inside an element are reached by a path. -/
  | hierarchical
deriving DecidableEq, Repr

def IdentifierMode.name : IdentifierMode → String
  | .flat => "Flat"
  | .hierarchical => "Hierarchical"

def IdentifierMode.parse (s : String) : Except String IdentifierMode :=
  match Text.lower s with
  | "flat" => .ok .flat
  | "hierarchical" => .ok .hierarchical
  | other =>
    .error s!"identifier mode `{other}` is not supported, expected `flat` or `hierarchical`"

end Edifice
