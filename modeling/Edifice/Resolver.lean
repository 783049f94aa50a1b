import Edifice.Text.Blank
import Edifice.Text.Split

/-!
Where the sources and documents that a source names come from.

Reading a source never touches files by itself: a resolver turns the target of an
include into sources and a directory into its documents.  A source is known by its name,
and `limit` bounds how many sources of different names a resolver can give.
-/

namespace Edifice

/-- A named piece of text. -/
structure Document where
  /-- Names the text for good, such as the full path of its file. -/
  name : String
  content : String
deriving DecidableEq, Repr

/-- Gives the sources and documents that a source names.  Both functions take the path as
written and the name of the source that it is written in, if that has one. -/
structure Resolver where
  /-- The sources to include for a path, in their order. -/
  sources : (path : String) → (origin : Option String) → Except String (List Document)
  /-- The documents in a directory with an extension, in the order of their names. -/
  documents :
    (path : String) → (origin : Option String) → (extension : String) →
      Except String (List Document)
  /-- The number of names that sources can have. -/
  limit : Nat

namespace Resolver

def empty : Resolver where
  sources := fun path _ =>
    .error s!"cannot include `{path}`: no include resolver is configured"
  documents := fun path _ _ =>
    .error s!"cannot read documents from `{path}`: no document resolver is configured"
  limit := 0

/-- The name inside a directory, if a document is directly in the directory and has the
extension. -/
def isDirectlyIn (directory extension : String) (d : Document) : Bool :=
  match Text.stripStart? directory d.name with
  | some rest => !Text.contains '/' rest && Text.endsWith ("." ++ extension) rest
  | none => false

def sortByName (documents : List Document) : List Document :=
  documents.mergeSort fun a b => decide (a.name ≤ b.name)

/-- The resolver for sources that are at hand, each found by its name. -/
def inMemory (available : List Document) : Resolver where
  sources := fun path _ =>
    match available.find? fun d => d.name == path with
    | some d => .ok [d]
    | none => .error s!"`{path}` does not exist"
  documents := fun path _ extension =>
    let directory := String.ofList (Text.dropEndWhile (· == '/') path.toList) ++ "/"
    match sortByName (available.filter (isDirectlyIn directory extension)) with
    | [] => .error s!"`{path}` contains no `.{extension}` documents"
    | found => .ok found
  limit := available.length

end Resolver

end Edifice
