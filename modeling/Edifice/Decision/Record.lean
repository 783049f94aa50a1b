import Edifice.Decision.Basic
import Edifice.Text.Ascii

/-!
Reading decision records.

A record is a Markdown file named `NNNN-slug.md`.  The number in its name is the id of
the decision; the text gives the title under `# N. Title`, the date after `Date:`, and
the status in the section `## Status`.  Every link of that section to another record is a
link of the decision, described by the text in front of it.
-/

namespace Edifice

inductive RecordError where
  | unnumbered (file : String)
  | untitled (file : String)
  | undated (date file : String)
deriving DecidableEq, Repr

def RecordError.message : RecordError → String
  | .unnumbered file =>
    s!"`{file}` is not named like a decision record, expected e.g. `0001-title.md`"
  | .untitled file => s!"`{file}` has no `# N. Title` heading"
  | .undated date file => s!"`{date}` in `{file}` is not a date, expected yyyy-mm-dd"

namespace Record

def fileName (path : String) : String :=
  String.ofList ((path.toList.reverse.takeWhile fun c => c != '/' && c != '\\').reverse)

def withoutZeros (digits : List Char) : String :=
  match digits.dropWhile (· == '0') with
  | [] => "0"
  | rest => String.ofList rest

def number? (file : String) : Option String :=
  match file.toList.takeWhile Char.isDigit with
  | [] => none
  | digits => some (withoutZeros digits)

/-- A title without the number in front of it, as in `2. Use a queue`. -/
def withoutNumber (title : String) : String :=
  let title := Text.trim title
  let rest := String.ofList (title.toList.dropWhile Char.isDigit)
  match Text.stripStart? ". " rest with
  | some stripped => if rest.length < title.length then Text.trim stripped else title
  | none => title

def isDate (s : String) : Bool :=
  match s.toList with
  | [a, b, c, d, '-', e, f, '-', g, h] => [a, b, c, d, e, f, g, h].all Char.isDigit
  | _ => false

def lines (content : String) : List String :=
  (Text.pieces '\n' content).map Text.trim

/-- What follows `mark` in the first line that starts with it. -/
def after? (mark content : String) : Option String :=
  (lines content).findSome? (Text.stripStart? mark)

/-- The lines of the section `## Status` that are not blank. -/
def statusSection (content : String) : List String :=
  let fromHeading :=
    (lines content).dropWhile fun line => !Text.eqIgnoreCase line "## status"
  ((fromHeading.drop 1).takeWhile fun line => !Text.startsWith "#" line).filter (· != "")

/-! ### Links -/

/-- Where the reading of links is; texts stand in reverse. -/
inductive LinkState where
  /-- In the text in front of a link. -/
  | description (text : List Char)
  /-- Between the brackets that show the link. -/
  | shown (text : List Char)
  /-- Between the parentheses that hold the target. -/
  | target (text path : List Char)
deriving DecidableEq, Repr

/-- The link to a record with its description; nothing when the target is no record. -/
def link? (text path : List Char) : Option (String × String) :=
  (number? (fileName (String.ofList path.reverse))).map fun id =>
    (id, Text.trim (String.ofList text.reverse))

/-- The links of a line, read from a state on. -/
def scanLinks : LinkState → List Char → List (String × String)
  | _, [] => []
  | .description text, c :: cs =>
    if c = '[' then scanLinks (.shown text) cs else scanLinks (.description (c :: text)) cs
  | .shown text, ']' :: '(' :: cs => scanLinks (.target text []) cs
  | .shown text, _ :: cs => scanLinks (.shown text) cs
  | .target text path, c :: cs =>
    if c = ')' then (link? text path).toList ++ scanLinks (.description []) cs
    else scanLinks (.target text (c :: path)) cs

def links (line : String) : List (String × String) :=
  scanLinks (.description []) line.toList

/-- The status that a line starts with, without the punctuation after it. -/
def statusWord (line : String) : String :=
  String.ofList (Text.dropEndWhile Text.isPunctuation (Text.firstWord line).toList)

/-- The decision with the status and the links of a status section. -/
def withStatus (d : Decision) : List String → Decision
  | [] => d
  | first :: rest =>
    ((first :: rest).flatMap links).foldl (fun d (target, text) => d.addLink target text)
      { d with status := statusWord first }

/-- Reads a record from its name and its text. -/
def read (name content : String) : Except RecordError Decision := do
  let file := fileName name
  let some id := number? file | throw (.unnumbered file)
  let some title := after? "# " content | throw (.untitled file)
  let d : Decision := { id, title := withoutNumber title, content }
  let d ← match after? "Date:" content with
    | none => pure d
    | some rest =>
      let date := Text.trim rest
      if isDate date then pure { d with date } else throw (.undated date file)
  return withStatus d (statusSection content)

end Record

end Edifice
