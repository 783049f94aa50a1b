import Edifice.Diagnostic.Basic
import Edifice.Language.Block
import Edifice.Source.Token
import Edifice.Text.Decimal

/-!
Statements and the errors of their grammar.

A statement is a line without the brace that opens its block.  Each form of statement has
a number of tokens it needs and a number it may have (`checkTokens`), and its tokens are
read as words, numbers and truth values that may be out of range.
-/

namespace Edifice.Language

/-- A line without the brace at its end. -/
structure Statement where
  tokens : Tokens
  /-- Whether the line ended with a brace that opens a block. -/
  opensBlock : Bool
deriving DecidableEq, Repr

namespace Statement

def ofTokens (tokens : Tokens) : Statement :=
  if tokens.opensBlock then { tokens := tokens.dropLast, opensBlock := true }
  else { tokens, opensBlock := false }

def keyword (st : Statement) : String :=
  st.tokens.text 0

def span (st : Statement) : Span :=
  st.tokens.spanFrom 0

def drop (st : Statement) (count : Nat) : Statement :=
  { st with tokens := st.tokens.drop count }

end Statement

/-! ### Counting tokens -/

/-- The error of a line with tokens past the one at `last`. -/
def tooManyTokens (ts : Tokens) (last : Nat) (grammar : String) : Diagnostic :=
  .error .tooManyTokens s!"too many tokens, expected: {grammar}" (ts.spanFrom (last + 1))
    "unexpected tokens"

def missingTokens (ts : Tokens) (grammar : String) : Diagnostic :=
  .error .missingTokens s!"expected: {grammar}" (ts.span ts.length) "missing tokens"

/-- Checks that there is a token at `needed` and none past `last`. -/
def checkTokens (ts : Tokens) (needed last : Nat) (grammar : String) : Except Diagnostic Unit :=
  if ts.length > last + 1 then .error (tooManyTokens ts last grammar)
  else if ts.length ≤ needed then .error (missingTokens ts grammar)
  else .ok ()

def requireBlock (st : Statement) (grammar : String) : Except Diagnostic Unit :=
  if st.opensBlock then .ok ()
  else
    .error (.error .missingTokens s!"expected: {grammar}" (st.tokens.span st.tokens.length)
      "missing `\x7b`")

/-- Checks that the statement is a keyword alone and opens a block. -/
def checkBare (st : Statement) : Except Diagnostic Unit := do
  let keyword := st.keyword
  let grammar := s!"{keyword} \x7b"
  checkTokens st.tokens 0 0 grammar
  requireBlock st grammar

/-- The error of a statement that has no place in a block. -/
def unexpectedStatement (st : Statement) (block : Option Block) : Diagnostic :=
  let keyword := st.keyword
  let message := match block with
    | some block =>
      let name := block.name
      s!"unexpected statement `{keyword}` in a {name} block"
    | none => s!"unexpected statement `{keyword}`, expected a workspace"
  .error .unexpectedStatement message (st.tokens.span 0) "not permitted here"

/-! ### Reading tokens -/

def invalidValue (ts : Tokens) (i : Nat) (message : String) : Diagnostic :=
  .error .invalidValue message (ts.span i) "invalid value"

def readWord {α : Type} (ts : Tokens) (i : Nat) (parse : String → Except String α) :
    Except Diagnostic α :=
  match parse (ts.text i) with
  | .ok a => .ok a
  | .error message => .error (invalidValue ts i message)

def readBool (ts : Tokens) (i : Nat) : Except Diagnostic Bool :=
  let text := ts.text i
  match Text.lower text with
  | "true" => .ok true
  | "false" => .ok false
  | _ =>
    .error (invalidValue ts i s!"`{text}` is not a valid boolean, expected `true` or `false`")

/-- Reads the token at an index as a number of at most `limit`. -/
def readNumber (ts : Tokens) (i : Nat) (limit : Nat) (what : String) : Except Diagnostic Nat :=
  let text := ts.text i
  match Text.readNat? limit text with
  | some n => .ok n
  | none => .error (invalidValue ts i s!"`{text}` is not a valid {what}")

def readSize (ts : Tokens) (i : Nat) : Except Diagnostic Nat :=
  readNumber ts i Text.wordLimit "size, expected a non-negative number"

def percentageLimit : Nat := 100

def readPercentage (ts : Tokens) (i : Nat) : Except Diagnostic Nat := do
  let n ← readNumber ts i Text.octetLimit "percentage, expected 0 to 100"
  if n > percentageLimit then
    throw (invalidValue ts i s!"`{n}` is not a valid percentage, expected 0 to 100")
  return n

end Edifice.Language
