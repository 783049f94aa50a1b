import Edifice.Files.Path

/-!
A tree of files and directories.

A path is followed name by name.  Every name but the last has to be one of a directory,
also a name that leads nowhere and the name of the directory above: `a/..` is not the
current directory when `a` is a file.
-/

namespace Edifice

inductive FileError where
  | notFound
  | notDirectory
  | isDirectory
  | notText
deriving DecidableEq, Repr

def FileError.message : FileError → String
  | .notFound => "No such file or directory (os error 2)"
  | .notDirectory => "Not a directory (os error 20)"
  | .isDirectory => "Is a directory (os error 21)"
  | .notText => "stream did not contain valid UTF-8"

/-- What stands at a place in the tree. -/
inductive FileEntry where
  | directory
  | file (content : ByteArray)

instance : DecidableEq FileEntry
  | .directory, .directory => .isTrue rfl
  | .directory, .file _ | .file _, .directory => .isFalse nofun
  | .file ⟨a⟩, .file ⟨b⟩ => decidable_of_iff (a = b) (by simp)

/-- A place in the tree: the names from the root directory down. -/
abbrev FilePlace := List String

/-- Files and directories, and the directory that relative paths start from. -/
structure FileTree where
  /-- What was put in the tree; the directories above it need not be listed. -/
  entries : List (FilePlace × FileEntry) := []
  current : FilePlace := []
deriving DecidableEq

namespace FileTree

/-! ### Places -/

def entry? (t : FileTree) (place : FilePlace) : Option FileEntry :=
  match t.entries.lookup place with
  | some entry => some entry
  | none =>
    if place.isEmpty || t.entries.any (fun e => place.isPrefixOf e.1) then some .directory
    else none

def put (t : FileTree) (place : FilePlace) (entry : FileEntry) : FileTree :=
  { t with entries := t.entries.filter (fun e => e.1 != place) ++ [(place, entry)] }

/-- Follows names from a place. -/
def follow (t : FileTree) : FilePlace → List String → Except FileError FilePlace
  | place, [] => .ok place
  | place, name :: rest =>
    match t.entry? place with
    | none => .error .notFound
    | some (.file _) => .error .notDirectory
    | some .directory =>
      if Path.isIdle name then follow t place rest
      else if name == ".." then follow t place.dropLast rest
      else follow t (place ++ [name]) rest

/-- Where following a path starts. -/
def origin (t : FileTree) (path : String) : FilePlace :=
  if Path.isAbsolute path then [] else t.current

def place (t : FileTree) (path : String) : Except FileError FilePlace :=
  if path.isEmpty then .error .notFound else t.follow (t.origin path) (Text.pieces '/' path)

/-! ### Looking -/

/-- What a path leads to. -/
def find (t : FileTree) (path : String) : Except FileError FileEntry := do
  match t.entry? (← t.place path) with
  | some entry => return entry
  | none => throw .notFound

def holds (t : FileTree) (path : String) : Bool :=
  match t.find path with
  | .ok _ => true
  | .error _ => false

def holdsDirectory (t : FileTree) (path : String) : Bool :=
  match t.find path with
  | .ok .directory => true
  | _ => false

def holdsFile (t : FileTree) (path : String) : Bool :=
  match t.find path with
  | .ok (.file _) => true
  | _ => false

def fullPath (place : FilePlace) : String :=
  "/" ++ "/".intercalate place

/-- The one full path of what a path leads to; the path itself when it leads nowhere. -/
def canonicalPath (t : FileTree) (path : String) : String :=
  match t.place path with
  | .ok place => fullPath place
  | .error _ => path

/-- The name of an entry that is a file directly in the directory at `place`. -/
def nameIn? (place : FilePlace) : FilePlace × FileEntry → Option String
  | (p, .file _) => if p.dropLast == place then p.getLast? else none
  | (_, .directory) => none

/-- The names of the files directly in a directory, in ascending order. -/
def namesIn (t : FileTree) (path : String) : List String :=
  match t.place path with
  | .ok place => (t.entries.filterMap (nameIn? place)).mergeSort fun a b => decide (a ≤ b)
  | .error _ => []

/-! ### Reading and writing -/

def read (t : FileTree) (path : String) : Except FileError String := do
  match ← t.find path with
  | .directory => throw .isDirectory
  | .file content =>
    match String.fromUTF8? content with
    | some text => return text
    | none => throw .notText

/-- The pieces of a path up to its last name, and that name. -/
def splitLast (path : String) : List String × String :=
  match (Text.pieces '/' path).reverse.dropWhile (· == "") with
  | last :: before => (before.reverse, last)
  | [] => ([], "")

/-- Writes text to the file that a path leads to, a new one where none is.  The last name
has to be that of a file, without a slash after it. -/
def write (t : FileTree) (path content : String) : Except FileError FileTree := do
  if path.isEmpty then throw .notFound
  let (before, last) := splitLast path
  let directory ← t.follow (t.origin path) before
  match t.entry? directory with
  | none => throw .notFound
  | some (.file _) => throw .notDirectory
  | some .directory =>
    if Path.isIdle last || last == ".." || Text.endsWith "/" path then throw .isDirectory
    let place := directory ++ [last]
    match t.entry? place with
    | some .directory => throw .isDirectory
    | _ => return t.put place (.file content.toUTF8)

end FileTree

end Edifice
