import Edifice.Text.Blank
import Edifice.Text.Split

/-!
The links an element, a relationship or a theme may carry.

A link points inside the workspace, to another workspace by number, or is an absolute
URL: a scheme, `://` and a rest that is not empty and has no blanks.
-/

namespace Edifice.Url

/-- The start of a link inside the workspace. -/
def sameWorkspace : String := "\x7bworkspace\x7d"

/-- The start of a link to another workspace, whose number follows. -/
def otherWorkspace : String := "\x7bworkspace:"

/-- The scheme of a URL: a letter, then letters, digits, `+`, `-` and `.`. -/
def isScheme : List Char → Bool
  | [] => false
  | c :: cs =>
    c.isAlpha && cs.all fun c => c.isAlphanum || c == '+' || c == '-' || c == '.'

/-- The rest of a link to another workspace: its number, a closing brace and a path. -/
def isWorkspacePath (rest : String) : Bool :=
  match Text.cut? "\x7d" rest with
  | some (number, path) =>
    number != "" && number.toList.all Char.isDigit && Text.startsWith "/" path
  | none => false

/-- Whether the text is a link the model accepts. -/
def isValid (url : String) : Bool :=
  if Text.startsWith sameWorkspace url then true
  else
    match Text.stripStart? otherWorkspace url with
    | some rest => isWorkspacePath rest
    | none =>
      match Text.cut? "://" url with
      | some (scheme, rest) =>
        isScheme scheme.toList && rest != "" && !rest.toList.any Text.isBlank
      | none => false

end Edifice.Url
