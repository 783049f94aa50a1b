/-!
Cutting text at fixed marks.

All cuts are defined on character lists by structural recursion; the `String`
forms convert at the boundary.
-/

namespace Edifice.Text

/-- The rest of `cs` after the leading `mark`, if it starts with it. -/
def afterMark? (mark cs : List Char) : Option (List Char) :=
  if mark.isPrefixOf cs then some (cs.drop mark.length) else none

/-- Cuts at the first occurrence of `mark`, which is dropped. -/
def cutAt? (mark : List Char) : List Char → Option (List Char × List Char)
  | [] => if mark.isEmpty then some ([], []) else none
  | c :: cs =>
    match afterMark? mark (c :: cs) with
    | some rest => some ([], rest)
    | none => (cutAt? mark cs).map fun (before, after) => (c :: before, after)

def startsWith (mark s : String) : Bool :=
  mark.toList.isPrefixOf s.toList

def endsWith (mark s : String) : Bool :=
  mark.toList.isSuffixOf s.toList

/-- `s` without a leading `mark`, if it has one. -/
def stripStart? (mark s : String) : Option String :=
  (afterMark? mark.toList s.toList).map String.ofList

/-- `s` without a trailing `mark`, if it has one. -/
def stripEnd? (mark s : String) : Option String :=
  if endsWith mark s then some (String.ofList (s.toList.take (s.length - mark.length))) else none

/-- `s` cut at the first occurrence of `mark`, which is dropped. -/
def cut? (mark s : String) : Option (String × String) :=
  (cutAt? mark.toList s.toList).map fun (before, after) =>
    (String.ofList before, String.ofList after)

/-- The pieces of `s` between the occurrences of `mark`; one more than there are
occurrences. -/
def pieces (mark : Char) (s : String) : List String :=
  (s.toList.splitOn mark).map String.ofList

def contains (mark : Char) (s : String) : Bool :=
  s.toList.contains mark

end Edifice.Text
