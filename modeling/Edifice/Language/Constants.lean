import Edifice.Dictionary
import Edifice.Source.Token

/-!
Constants in tokens.

A dollar sign and a name in braces stand for the value of the constant.  The name goes up
to the first closing brace; a value is put in as it is, and a name that is not defined is
left as written and reported.
-/

namespace Edifice.Language

/-- The text with constants put in, and the names that are not defined, in their order.
The first argument is the name being read, in reverse, after a dollar sign and a brace. -/
def substituteChars (constants : Dictionary String) :
    Option (List Char) → List Char → List Char × List String
  | none, [] => ([], [])
  | some name, [] => ('$' :: '\x7b' :: name.reverse, [])
  | none, '$' :: '\x7b' :: cs => substituteChars constants (some []) cs
  | none, c :: cs =>
    let (text, missing) := substituteChars constants none cs
    (c :: text, missing)
  | some name, c :: cs =>
    if c = '\x7d' then
      let (text, missing) := substituteChars constants none cs
      match constants.get? (String.ofList name.reverse) with
      | some value => (value.toList ++ text, missing)
      | none =>
        ('$' :: '\x7b' :: (name.reverse ++ '\x7d' :: text),
          String.ofList name.reverse :: missing)
    else substituteChars constants (some (c :: name)) cs

/-- A text with constants put in, and the names that are not defined. -/
def substitute (constants : Dictionary String) (s : String) : String × List String :=
  let (text, missing) := substituteChars constants none s.toList
  (String.ofList text, missing)

def substituteToken (constants : Dictionary String) (t : Token) : Token :=
  { t with text := (substitute constants t.text).1 }

def substituteTokens (constants : Dictionary String) (ts : Tokens) : Tokens :=
  ts.map (substituteToken constants)

/-- The names in a line that are not defined, each with the range of its token. -/
def undefinedConstants (constants : Dictionary String) (ts : Tokens) : List (String × Span) :=
  ts.flatMap fun t => (substitute constants t.text).2.map fun name => (name, t.span)

end Edifice.Language
