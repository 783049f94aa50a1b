import Edifice.Text.Split

/-!
Paths of files as text.

A path is names between slashes, absolute when a slash comes first.  Nothing here asks
whether what a path names exists, and paths are not shortened: a joined path shows both
of its parts as they were written.
-/

namespace Edifice.Path

def isAbsolute (path : String) : Bool :=
  Text.startsWith "/" path

/-- The path of what `path` names in the directory `base`. -/
def join (base path : String) : String :=
  if isAbsolute path || base.isEmpty then path
  else if Text.endsWith "/" base then base ++ path
  else base ++ "/" ++ path

/-- Whether a piece of a path leads nowhere. -/
def isIdle (piece : String) : Bool :=
  piece == "" || piece == "."

/-- What a path starts with besides names: the root or the current directory. -/
def anchor (path : String) : String :=
  if isAbsolute path then "/"
  else if path == "." || Text.startsWith "./" path then "."
  else ""

def parent? (path : String) : Option String :=
  let start := anchor path
  let body := String.ofList (path.toList.drop start.length)
  match (Text.pieces '/' body).reverse.dropWhile isIdle with
  | _ :: rest => some (start ++ "/".intercalate (rest.dropWhile isIdle).reverse)
  | [] => if start == "." then some "" else none

/-- What follows the last dot of the name of a file, unless nothing comes before that. -/
def extension? (name : String) : Option String :=
  match (Text.pieces '.' name).reverse with
  | last :: before =>
    if (".".intercalate before.reverse).isEmpty then none else some last
  | [] => none

end Edifice.Path
