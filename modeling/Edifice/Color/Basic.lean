import Edifice.Color.Names
import Edifice.Text.Ascii
import Edifice.Text.Blank

/-!
CSS colours such as `#1168bd`, `rgb(8, 66, 123)` and `white`.

A colour keeps the text its author wrote, so that a style can be shown verbatim; two
colours are the same when the texts mean the same (`Color.same`), whatever their
spelling.  What texts mean is for a `ColorReader` to say.  The one at hand (`Color.css`)
reads the notations of CSS, and consumes the characters one syntactic unit at a time
(`Scan`).
-/

namespace Edifice

/-- What a colour's text means. -/
inductive Paint where
  /-- Hexadecimal notation: four channels from 0 to 255. -/
  | channels (red green blue alpha : Nat)
  /-- A colour name in lower case. -/
  | named (name : String)
  /-- A colour function with its arguments as written, in lower case. -/
  | function (name : String) (arguments : List String)
deriving DecidableEq, Repr

/-- Gives what a colour's text means, or says why it means no colour. -/
abbrev ColorReader := String → Except String Paint

/-- A colour and the text it was read from. -/
structure Color where
  source : String
  paint : Paint
deriving DecidableEq, Repr

inductive ColorError where
  | hexDigits
  | syntaxUnknown
  | identifierUnknown
  | endExpected
  | argumentsExpected
  | commaExpected
  | closingExpected
  | componentUnknown
  | angleUnknown
  | angleDimensionUnknown
  | spaceExpected
  | spaceUnknown
deriving DecidableEq, Repr

def ColorError.message : ColorError → String
  | .hexDigits => "wrong number of hex digits"
  | .syntaxUnknown => "unknown color syntax"
  | .identifierUnknown => "unknown color identifier"
  | .endExpected => "expected end of string"
  | .argumentsExpected => "expected arguments"
  | .commaExpected => "expected comma"
  | .closingExpected => "expected closing parenthesis"
  | .componentUnknown => "unknown color component"
  | .angleUnknown => "unknown angle"
  | .angleDimensionUnknown => "unknown angle dimension"
  | .spaceExpected => "expected color space identifier"
  | .spaceUnknown => "unknown color space"

namespace Color

/-- Whether two colours mean the same. -/
def same (a b : Color) : Bool :=
  a.paint == b.paint

/-! ### Syntactic units -/

/-- Reading colour text: the characters still to come, or an error. -/
abbrev Scan := StateT (List Char) (Except ColorError)

/-- What follows the end of a comment, if it has one. -/
def afterComment? : List Char → Option (List Char)
  | '*' :: '/' :: rest => some rest
  | _ :: rest => afterComment? rest
  | [] => none

/-- What follows spaces, tabs, line ends and closed comments, in at most `fuel` steps. -/
def dropSpace : (fuel : Nat) → List Char → List Char
  | 0, cs => cs
  | fuel + 1, '/' :: '*' :: rest =>
    match afterComment? rest with
    | some rest => dropSpace fuel rest
    | none => '/' :: '*' :: rest
  | fuel + 1, c :: rest =>
    if c == ' ' || c == '\t' || c == '\r' || c == '\n' then dropSpace fuel rest else c :: rest
  | _ + 1, [] => []

def skipSpace : Scan Unit :=
  modify fun cs => dropSpace cs.length cs

def take (c : Char) : Scan Bool := do
  match ← get with
  | d :: rest => if d = c then set rest; return true else return false
  | [] => return false

/-- Takes the mark `c` if it comes next after optional space.  The slash of a comment that
is not closed is no mark. -/
def takeMark (c : Char) : Scan Bool := do
  skipSpace
  match ← get with
  | '/' :: '*' :: _ => return false
  | _ => take c

def isWordChar (c : Char) : Bool :=
  c.isAlphanum || c == '_' || c == '-'

/-- The characters that may start an identifier, after at most one hyphen. -/
def isWordStart (c : Char) : Bool :=
  c.isAlpha || c == '_'

/-- The length of the identifier at the front: an optional hyphen, a letter or
underscore, then letters, digits, underscores and hyphens. -/
def wordLength : List Char → Nat
  | '-' :: c :: rest => if isWordStart c then 2 + (rest.takeWhile isWordChar).length else 0
  | c :: rest => if isWordStart c then 1 + (rest.takeWhile isWordChar).length else 0
  | [] => 0

def word? : Scan (Option String) := do
  let cs ← get
  match wordLength cs with
  | 0 => return none
  | n =>
    set (cs.drop n)
    return some (String.ofList ((cs.take n).map Char.toLower))

def signLength : List Char → Nat
  | '+' :: _ => 1
  | '-' :: _ => 1
  | _ => 0

def digitsLength (cs : List Char) : Nat :=
  (cs.takeWhile Char.isDigit).length

/-- The length of a point and the digits after it; a bare point has none. -/
def fractionLength : List Char → Nat
  | '.' :: rest => if digitsLength rest = 0 then 0 else 1 + digitsLength rest
  | _ => 0

/-- The length of an exponent, which needs digits. -/
def exponentLength : List Char → Nat
  | c :: rest =>
    if c = 'e' ∨ c = 'E' then
      let sign := signLength rest
      let digits := digitsLength (rest.drop sign)
      if digits = 0 then 0 else 1 + sign + digits
    else 0
  | [] => 0

/-- The length of the number at the front: a sign, digits with or without a fraction
and an exponent, where digits or fraction may be missing but not both. -/
def numberLength (cs : List Char) : Nat :=
  let sign := signLength cs
  let whole := digitsLength (cs.drop sign)
  let fraction := fractionLength (cs.drop (sign + whole))
  let mantissa := whole + fraction
  if mantissa = 0 then 0 else sign + mantissa + exponentLength (cs.drop (sign + mantissa))

def number? : Scan (Option String) := do
  let cs ← get
  match numberLength cs with
  | 0 => return none
  | n =>
    set (cs.drop n)
    return some (String.ofList ((cs.take n).map Char.toLower))

/-- One argument of a colour function. -/
inductive Argument where
  | number (text : String)
  | percentage (text : String)
  | dimension (text unit : String)
  | symbol (name : String)
deriving DecidableEq, Repr

/-- Takes an argument after optional space. -/
def argument? : Scan (Option Argument) := do
  skipSpace
  match ← number? with
  | some text =>
    if ← take '%' then return some (.percentage text)
    match ← word? with
    | some unit => return some (.dimension text unit)
    | none => return some (.number text)
  | none => return (← word?).map .symbol

/-- A colour component: a number, a percentage or `none`. -/
def component : Scan String := do
  match ← argument? with
  | some (.number text) => return text
  | some (.percentage text) => return text ++ "%"
  | some (.symbol "none") => return "none"
  | _ => throw .componentUnknown

def angleUnits : List String := ["deg", "rad", "grad", "turn"]

/-- An angle: a number, a number with a unit, or `none`. -/
def angle : Scan String := do
  match ← argument? with
  | some (.number text) => return text
  | some (.symbol "none") => return "none"
  | some (.dimension text unit) =>
    if angleUnits.contains unit then return text ++ unit else throw .angleDimensionUnknown
  | _ => throw .angleUnknown

/-- Takes the comma between two components where commas are used. -/
def separator (commas : Bool) : Scan Unit := do
  if commas then
    unless ← takeMark ',' do throw .commaExpected

/-- An optional alpha component and the closing parenthesis. -/
def finish (commas : Bool) : Scan (List String) := do
  let alpha ← if ← takeMark (if commas then ',' else '/') then pure [← component] else pure []
  unless ← takeMark ')' do throw .closingExpected
  return alpha

/-- The three components of a colour, the outer ones read by `first` and `last`, with its
alpha.  A comma after the first one asks for commas throughout, where `legacy` permits
them. -/
def components (first last : Scan String) (legacy : Bool) : Scan (List String) := do
  let a ← first
  let commas ← if legacy then takeMark ',' else pure false
  let b ← component
  separator commas
  let c ← last
  return [a, b, c] ++ (← finish commas)

/-- The parenthesis that has to follow the name of a function at once. -/
def opening : Scan Unit := do
  unless ← take '(' do throw .argumentsExpected

def arguments (first last : Scan String) (legacy : Bool) : Scan (List String) := do
  opening
  components first last legacy

/-- The colour spaces that the function `color` knows, each with the one it stands for. -/
def spaces : List (String × String) :=
  [("srgb", "srgb"), ("srgb-linear", "srgb-linear"), ("display-p3", "display-p3"),
    ("a98-rgb", "a98-rgb"), ("prophoto-rgb", "prophoto-rgb"), ("rec2020", "rec2020"),
    ("xyz", "xyz-d65"), ("xyz-d50", "xyz-d50"), ("xyz-d65", "xyz-d65")]

def space : Scan String := do
  skipSpace
  match ← word? with
  | none => throw .spaceExpected
  | some name =>
    match spaces.lookup name with
    | some space => return space
    | none => throw .spaceUnknown

/-- The arguments of the function `color`: a colour space, then components in it. -/
def spaceArguments : Scan (List String) := do
  opening
  let space ← space
  return space :: (← components component component false)

def hexDigits : Scan (List Nat) := do
  let cs ← get
  let digits := ((cs.take 8).takeWhile fun c => (Text.hexDigit? c).isSome)
  set (cs.drop digits.length)
  return digits.filterMap Text.hexDigit?

/-- The meaning of three, four, six or eight hexadecimal digits. -/
def ofHexDigits : List Nat → Except ColorError Paint
  | [r, g, b] => .ok (.channels (17 * r) (17 * g) (17 * b) 255)
  | [r, g, b, a] => .ok (.channels (17 * r) (17 * g) (17 * b) (17 * a))
  | [r, r', g, g', b, b'] => .ok (.channels (16 * r + r') (16 * g + g') (16 * b + b') 255)
  | [r, r', g, g', b, b', a, a'] =>
    .ok (.channels (16 * r + r') (16 * g + g') (16 * b + b') (16 * a + a'))
  | _ => .error .hexDigits

/-- A colour in hexadecimal notation, as a function or by name. -/
def anyPaint : Scan Paint := do
  if ← take '#' then
    match ofHexDigits (← hexDigits) with
    | .ok p => return p
    | .error e => throw e
  match ← word? with
  | none => throw .syntaxUnknown
  | some "rgb" | some "rgba" => return .function "rgb" (← arguments component component true)
  | some "hsl" | some "hsla" => return .function "hsl" (← arguments angle component true)
  | some "hwb" => return .function "hwb" (← arguments angle component false)
  | some "lab" => return .function "lab" (← arguments component component false)
  | some "lch" => return .function "lch" (← arguments component angle false)
  | some "oklab" => return .function "oklab" (← arguments component component false)
  | some "oklch" => return .function "oklch" (← arguments component angle false)
  | some "color" => return .function "color" (← spaceArguments)
  | some name => if names.contains name then return .named name else throw .identifierUnknown

/-- The meaning of a whole text, blanks at its ends apart. -/
def meaning (s : String) : Except ColorError Paint := do
  let (p, rest) ← anyPaint.run (Text.trim s).toList
  if rest.isEmpty then return p else throw .endExpected

/-- Reads colours as CSS writes them. -/
def css : ColorReader := fun s =>
  match meaning s with
  | .ok p => .ok p
  | .error e => .error e.message

def parse (s : String) (reader : ColorReader := css) : Except String Color :=
  match reader s with
  | .ok p => .ok ⟨s, p⟩
  | .error reason => .error s!"invalid colour `{s}`: {reason}"

end Color

end Edifice
