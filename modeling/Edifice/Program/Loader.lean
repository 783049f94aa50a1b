import Edifice.Files.Resolver
import Edifice.Language.Interpreter

/-!
Loading workspaces from text and from files.
-/

namespace Edifice

inductive LoadError where
  /-- A file other than the source could not be read or written. -/
  | file (error : FileError)
  /-- The source at a path could not be read. -/
  | unreadable (path : String) (error : FileError)
  /-- The source is wrong; `name` is that of its file, if it has one. -/
  | source (failure : Failure) (content : String) (name : Option String)
  /-- The settings are wrong. -/
  | settings (message : String)
deriving DecidableEq, Repr

def LoadError.message : LoadError → String
  | .file e => "I/O error: " ++ e.message
  | .unreadable path e => "Cannot read " ++ path ++ ": " ++ e.message
  | .source failure _ _ => failure.message
  | .settings message => "Configuration error: " ++ message

/-- Loads a workspace from text, which can bring in nothing. -/
def loadText (options : Language.Options) (content : String) :
    Except LoadError Language.Parsed :=
  match Language.parse { options } none content with
  | .ok parsed => .ok parsed
  | .error failure => .error (.source failure content none)

/-- Loads a workspace from a file. -/
def FileTree.load (t : FileTree) (options : Language.Options) (path : String) :
    Except LoadError Language.Parsed :=
  match t.read path with
  | .error e => .error (.unreadable path e)
  | .ok content =>
    let name := t.canonicalPath path
    let resolver := t.resolver ((Path.parent? path).getD ".")
    match Language.parse { options, resolver } (some name) content with
    | .ok parsed => .ok parsed
    | .error failure => .error (.source failure content (some name))

end Edifice
