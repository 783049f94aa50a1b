import Edifice.Files.Tree
import Edifice.Resolver

/-!
The resolver for sources and documents in files.

A path is seen from the directory of the source that it is written in.  A source is named
by its full path, so that one file has one name whatever paths lead to it.
-/

namespace Edifice

/-- The extension of the sources that are read when a directory is included. -/
def sourceExtension : String := "dsl"

def Path.isRemote (path : String) : Bool :=
  Text.startsWith "http://" path || Text.startsWith "https://" path

namespace FileTree

/-- The path of a target that is written in the source `origin`, or in no source. -/
def target (base path : String) (origin : Option String) : String :=
  Path.join ((origin.bind Path.parent?).getD base) path

def readDocument (t : FileTree) (path : String) : Except String Document :=
  match t.read path with
  | .ok content => .ok { name := t.canonicalPath path, content }
  | .error e =>
    let reason := e.message
    .error s!"cannot read `{path}`: {reason}"

/-- Reads the files directly in a directory that have an extension, in the order of their
names. -/
def readDirectory (t : FileTree) (path extension : String) : Except String (List Document) :=
  ((t.namesIn path).filter fun name => Path.extension? name == some extension).mapM
    fun name => t.readDocument (Path.join path name)

/-- The sources that a path leads to: one file, or those of a directory. -/
def sources (t : FileTree) (base path : String) (origin : Option String) :
    Except String (List Document) := do
  if Path.isRemote path then
    throw s!"cannot include `{path}`: only local files can be included"
  let file := target base path origin
  if t.holdsDirectory file then t.readDirectory file sourceExtension
  else if t.holdsFile file then return [← t.readDocument file]
  else throw s!"`{file}` does not exist"

/-- The documents of the directory that a path leads to. -/
def documents (t : FileTree) (base path : String) (origin : Option String)
    (extension : String) : Except String (List Document) := do
  if Path.isRemote path then
    throw s!"cannot read `{path}`: only local directories can be read"
  let directory := target base path origin
  if t.holdsDirectory directory then t.readDirectory directory extension
  else throw s!"`{directory}` is not a directory"

/-- The resolver for the files of a tree.  Paths that are written in no named source are
seen from the directory `base`. -/
def resolver (t : FileTree) (base : String) : Resolver where
  sources := t.sources base
  documents := t.documents base
  limit := t.entries.length

end FileTree

end Edifice
