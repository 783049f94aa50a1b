import Edifice.Source.Span
import Edifice.Text.Blank
import Edifice.Text.Split

/-!
The tokens of a logical line.

A quoted token is plain text: it is never taken for punctuation (`Token.is`).  Written
out with `quote`, a token is read back as it was.
-/

namespace Edifice

def arrow : String := "->"

def blockStart : String := "\x7b"

def blockEnd : String := "\x7d"

/-- The mark between an identifier and the statement it names. -/
def assignment : String := "="

/-- A piece of a line, its quotes taken off and its escapes resolved. -/
structure Token where
  text : String
  /-- Where the token stands in its source. -/
  span : Span
  quoted : Bool := false
deriving DecidableEq, Repr

def Token.is (t : Token) (mark : String) : Bool :=
  !t.quoted && t.text == mark

/-- The tokens of a line in their order. -/
abbrev Tokens := List Token

namespace Tokens

def text? (ts : Tokens) (i : Nat) : Option String :=
  ts[i]?.map (·.text)

/-- The text of the token at an index, empty when there is none. -/
def text (ts : Tokens) (i : Nat) : String :=
  (ts.text? i).getD ""

/-- Whether the token at an index is the given punctuation. -/
def isAt (ts : Tokens) (i : Nat) (mark : String) : Bool :=
  ts[i]?.any (·.is mark)

def stop (ts : Tokens) : Nat :=
  (ts.getLast?.map (·.span.stop)).getD 0

/-- The range of the token at an index, and past the last one the empty range at the end
of the line. -/
def span (ts : Tokens) (i : Nat) : Span :=
  match ts[i]? with
  | some t => t.span
  | none => .point ts.stop

/-- The range from the token at an index to the end of the line. -/
def spanFrom (ts : Tokens) (i : Nat) : Span :=
  match ts.getLast? with
  | some last => (ts.span i).union last.span
  | none => ts.span i

def opensBlock (ts : Tokens) : Bool :=
  ts.getLast?.any (·.is blockStart)

end Tokens

/-! ### Writing tokens -/

/-- Whether a character has a meaning of its own outside of quotes. -/
def breaksBare (c : Char) : Bool :=
  Text.isBlank c || c == '"' || c == '\'' || c == '\\'

/-- Whether a text has to be quoted to stand for itself. -/
def needsQuotes (s : String) : Bool :=
  s == "" || Text.startsWith "//" s || Text.startsWith "#" s || Text.startsWith "/*" s ||
    s.toList.any breaksBare

/-- A character as it is written inside double quotes. -/
def escape (c : Char) : List Char :=
  if c = '"' ∨ c = '\\' then ['\\', c] else [c]

/-- A text as it is written in a source, in quotes where it needs them. -/
def quote (s : String) : String :=
  if needsQuotes s then String.ofList (['"'] ++ s.toList.flatMap escape ++ ['"']) else s

/-- The tokens written out as a line. -/
def Tokens.toSource (ts : Tokens) : String :=
  " ".intercalate (ts.map fun t => quote t.text)

end Edifice
