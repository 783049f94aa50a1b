import Edifice.Settings.Moment
import Edifice.Text.Ascii
import Edifice.Text.Split

/-!
Reading the parts of a settings file: white space, keys, strings and scalars.

A reader takes characters off the front of the text and fails where the text is not a
document.  Loops take as many rounds as there are characters left at most.
-/

namespace Edifice.Settings

/-- A computation on the text that is left. -/
abbrev Reader := StateT (List Char) Option

def next : Reader Char := do
  match ← get with
  | c :: rest =>
    set rest
    return c
  | [] => failure

def take? (mark : String) : Reader Bool := do
  match Text.afterMark? mark.toList (← get) with
  | some rest =>
    set rest
    return true
  | none => return false

/-- Takes a mark that has to come next. -/
def expect (mark : String) : Reader Unit := do
  if ← take? mark then return ()
  failure

def takeWhile (p : Char → Bool) : Reader (List Char) := do
  let cs ← get
  set (cs.dropWhile p)
  return cs.takeWhile p

/-! ### White space -/

def isSpace (c : Char) : Bool :=
  c == ' ' || c == '\t'

/-- A control character, which stands for itself nowhere. -/
def isControl (c : Char) : Bool :=
  c != '\t' && (c.toNat < 0x20 || c.toNat == 0x7F)

def spaces : Reader Unit := do
  let _ ← takeWhile isSpace

def lineBreak? : Reader Bool := do
  if ← take? "\n" then return true
  take? "\r\n"

/-- Skips white space and a comment. -/
def trailing : Reader Unit := do
  spaces
  if ← take? "#" then
    let _ ← takeWhile fun c => !isControl c

def lineEnd : Reader Unit := do
  trailing
  if (← get).isEmpty then return ()
  if ← lineBreak? then return ()
  failure

/-- Skips white space, comments and line breaks, `fuel` lines at most. -/
def gap : (fuel : Nat) → Reader Unit
  | 0 => return ()
  | fuel + 1 => do
    trailing
    if ← lineBreak? then gap fuel

/-! ### Strings -/

/-- The character of a number of hexadecimal digits. -/
def hexChar (digits : Nat) : Reader Char := do
  let cs ← get
  set (cs.drop digits)
  let values ← liftM ((cs.take digits).mapM Text.hexDigit?)
  let n := values.foldl (fun n d => 16 * n + d) 0
  if values.length = digits && n.isValidChar then return Char.ofNat n
  failure

/-- The character that is written after a backslash. -/
def escaped : Reader Char := do
  match ← next with
  | 'b' => return '\x08'
  | 't' => return '\t'
  | 'n' => return '\n'
  | 'f' => return '\x0C'
  | 'r' => return '\r'
  | 'e' => return '\x1B'
  | '"' => return '"'
  | '\\' => return '\\'
  | 'x' => hexChar 2
  | 'u' => hexChar 4
  | 'U' => hexChar 8
  | _ => failure

/-- The rest of a string in one line that ends with `quote`. -/
def lineString (quote : Char) : (fuel : Nat) → Reader (List Char)
  | 0 => failure
  | fuel + 1 => do
    let c ← next
    if c == quote then return []
    if isControl c then failure
    let c ← if quote == '"' && c == '\\' then escaped else pure c
    return c :: (← lineString quote fuel)

/-- Up to `count` quotes, which are part of a string right before its end. -/
def extraQuotes (quote : Char) : (count : Nat) → Reader (List Char)
  | 0 => return []
  | count + 1 => do
    if ← take? (String.singleton quote) then
      return quote :: (← extraQuotes quote count)
    return []

/-- Whether a backslash joins the line to the next: nothing but spaces follows. -/
def joinsLines (cs : List Char) : Bool :=
  match cs.dropWhile isSpace with
  | '\n' :: _ | '\r' :: '\n' :: _ => true
  | _ => false

/-- The text after the spaces and line breaks in front. -/
def afterBlank : List Char → List Char
  | '\r' :: '\n' :: cs => afterBlank cs
  | c :: cs => if isSpace c || c == '\n' then afterBlank cs else c :: cs
  | [] => []

/-- The rest of a string over several lines that ends with three times `quote`. -/
def blockString (quote : Char) : (fuel : Nat) → Reader (List Char)
  | 0 => failure
  | fuel + 1 => do
    if ← take? (String.ofList [quote, quote, quote]) then return ← extraQuotes quote 2
    let c ← if ← take? "\r\n" then pure '\n' else next
    if isControl c && c != '\n' then failure
    if quote == '"' && c == '\\' then
      if joinsLines (← get) then
        modify afterBlank
        blockString quote fuel
      else
        let c ← escaped
        return c :: (← blockString quote fuel)
    else return c :: (← blockString quote fuel)

/-- The string after its first quote. -/
def stringBody (quote : Char) : Reader String := do
  let fuel := (← get).length
  if ← take? (String.ofList [quote, quote]) then
    let _ ← lineBreak?
    return String.ofList (← blockString quote (fuel + 1))
  return String.ofList (← lineString quote (fuel + 1))

/-! ### Keys -/

def isKeyChar (c : Char) : Bool :=
  c.isAlphanum || c == '_' || c == '-'

/-- One key, quoted or not. -/
def simpleKey : Reader String := do
  let fuel := (← get).length
  if ← take? "\"" then return String.ofList (← lineString '"' (fuel + 1))
  if ← take? "'" then return String.ofList (← lineString '\'' (fuel + 1))
  match ← takeWhile isKeyChar with
  | [] => failure
  | cs => return String.ofList cs

/-- Keys joined by dots, `fuel` of them at most. -/
def dottedKey : (fuel : Nat) → Reader (List String)
  | 0 => failure
  | fuel + 1 => do
    let key ← simpleKey
    spaces
    if ← take? "." then
      spaces
      return key :: (← dottedKey fuel)
    return [key]

/-! ### Scalars -/

def isScalarChar (c : Char) : Bool :=
  c.isAlphanum || c == '_' || c == '-' || c == '+' || c == '.' || c == ':'

/-- The text of a scalar; one space may part a date from a time. -/
def scalarText : Reader (List Char) := do
  let cs ← takeWhile isScalarChar
  match isDate cs, ← get with
  | true, ' ' :: c :: rest =>
    if c.isDigit then
      set (c :: rest)
      return cs ++ ' ' :: (← takeWhile isScalarChar)
    return cs
  | _, _ => return cs

end Edifice.Settings
