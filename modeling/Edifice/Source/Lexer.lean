import Edifice.Source.Line
import Edifice.Source.Token

/-!
Splitting a logical line into tokens.

Blanks separate tokens.  A token that starts with a quote goes on to the next quote of
its kind; inside it a backslash before a quote or another backslash gives that character,
and any other backslash stands for itself.  Two slashes at the start of a token leave the
rest of the line out, and so does a number sign at the start of the first one.
-/

namespace Edifice.Source

def isQuote (c : Char) : Bool :=
  c == '"' || c == '\''

/-- Whether a backslash in front of the character is resolved inside quotes. -/
def isEscaped (c : Char) : Bool :=
  isQuote c || c == '\\'

/-- Where the lexer is; the text read so far stands in reverse. -/
inductive LexerState where
  /-- Between tokens, at the `first` one or a later one. -/
  | between (first : Bool)
  | bare (start : Nat) (text : List Char)
  | quoted (quote : Char) (start : Nat) (text : List Char)
  /-- Inside quotes, after a backslash that the next character resolves. -/
  | escaped (quote : Char) (start : Nat) (text : List Char)
deriving DecidableEq, Repr

/-- A token from its text in reverse. -/
def tokenOf (start stop : Nat) (text : List Char) (quoted : Bool) : Token :=
  { text := String.ofList text.reverse, span := .between start stop, quoted }

/-- Whether the rest of the line is a comment. -/
def startsComment (first : Bool) (c : Char) (rest : List Char) : Bool :=
  (first && c == '#') || (c == '/' && rest.head? == some '/')

/-- The range of a quoted token that has no end: what was read of it. -/
def openRange (start stop : Nat) : Span :=
  .between start (max stop (start + 1))

/-- Reads tokens from the state `s` and the offset `pos` on.  The error is the range of a
quoted token without end. -/
def lex (s : LexerState) (pos : Nat) : List Char → Except Span Tokens
  | [] =>
    match s with
    | .between _ => .ok []
    | .bare start text => .ok [tokenOf start pos text false]
    | .quoted _ start _ | .escaped _ start _ => .error (openRange start pos)
  | c :: cs =>
    let next := pos + c.utf8Size
    match s with
    | .between first =>
      if Text.isBlank c then lex (.between first) next cs
      else if startsComment first c cs then .ok []
      else if isQuote c then lex (.quoted c pos []) next cs
      else lex (.bare pos [c]) next cs
    | .bare start text =>
      if Text.isBlank c then do
        return tokenOf start pos text false :: (← lex (.between false) next cs)
      else lex (.bare start (c :: text)) next cs
    | .quoted quote start text =>
      if c = quote then do
        return tokenOf start next text true :: (← lex (.between false) next cs)
      else if c = '\\' then
        match cs.head? with
        | none => .error (openRange start pos)
        | some d =>
          if isEscaped d then lex (.escaped quote start text) next cs
          else lex (.quoted quote start (c :: text)) next cs
      else lex (.quoted quote start (c :: text)) next cs
    | .escaped quote start text => lex (.quoted quote start (c :: text)) next cs

def tokenize (line : List Char) (offset : Nat) : Except Span Tokens :=
  lex (.between true) offset line

end Edifice.Source
