import Edifice.Workspace

/-!
The summary of a workspace as plain text.

The elements are listed as an outline: every element follows its parent, two spaces
deeper, before the next element of its parent.  Relationships, views and decisions are
listed in their order.  An element with no name to show is written as a question mark.
-/

namespace Edifice

/-! ### The outline of a model -/

/-- An element in an outline. -/
structure OutlineEntry where
  /-- How deep the element stands; those without parent stand at depth 1. -/
  depth : Nat
  element : Element
deriving DecidableEq, Repr

namespace Model

/-- An element at a depth with the elements inside it, `limit` levels of them. -/
def outlineFrom (m : Model) : (limit : Nat) → (depth : Nat) → Element → List OutlineEntry
  | 0, depth, e => [{ depth, element := e }]
  | limit + 1, depth, e =>
    { depth, element := e } :: (m.childrenOf e.id).flatMap (outlineFrom m limit (depth + 1))

def roots (m : Model) : List Element :=
  m.elements.filter fun e => e.parent.isNone

/-- The elements of the model, each followed by those inside it.  Containment has no more
levels than there are elements. -/
def outline (m : Model) : List OutlineEntry :=
  m.roots.flatMap (m.outlineFrom m.elements.length 1)

def nameOf (m : Model) (id : ElementId) : String :=
  match m.element? id with
  | some e => e.name
  | none => "?"

end Model

/-! ### Lines -/

namespace Summary

/-- A remark that is there only with a value. -/
def remark (before : String) (value : Option String) (after : String) : String :=
  match value with
  | some value => before ++ value ++ after
  | none => ""

/-- A remark that is there only with a value that is not empty. -/
def remarkUnlessEmpty (before value after : String) : String :=
  remark before (if value.isEmpty then none else some value) after

def heading (what : String) (count : Nat) : String :=
  s!"{what} ({count}):"

/-- The line of an element, two spaces for each level of depth before it. -/
def elementLine (entry : OutlineEntry) : String :=
  let e := entry.element
  String.ofList (List.replicate (2 * entry.depth) ' ') ++ e.kind.keyword ++ " " ++ e.name ++
    remark " [" e.technology "]" ++ remark " (group: " e.group ")"

def relationshipLine (m : Model) (r : Relationship) : String :=
  "  " ++ m.nameOf r.source ++ " -> " ++ m.nameOf r.destination ++
    remarkUnlessEmpty " \"" r.description "\"" ++ remarkUnlessEmpty " [" r.technology "]" ++
    (if r.origin.isImplied then " (implied)" else "")

def viewLine (m : Model) (v : View) : String :=
  let elements := v.elements.length
  let relationships := v.lines.length
  "  " ++ v.key ++ " [" ++ v.kind.keyword ++ "]" ++ remark " of " (v.scope.map m.nameOf) "" ++
    remark " in " v.environment "" ++ s!": {elements} elements, {relationships} relationships"

def decisionLine (m : Model) (d : Decision) : String :=
  "  " ++ d.id ++ ". " ++ d.title ++ remarkUnlessEmpty " [" d.status "]" ++
    remark " of " (d.element.map m.nameOf) ""

/-! ### The whole text -/

def titleLines (w : Workspace) : List String :=
  let name := if w.name.isEmpty then "(unnamed workspace)" else w.name
  ("Workspace: " ++ name) :: if w.description.isEmpty then [] else ["  " ++ w.description]

def elementLines (m : Model) : List String :=
  ["", heading "Elements" m.elements.length] ++ m.outline.map elementLine

def relationshipLines (m : Model) : List String :=
  ["", heading "Relationships" m.relationships.length] ++
    m.relationships.map (relationshipLine m)

def viewLines (w : Workspace) : List String :=
  ["", heading "Views" w.views.views.length] ++ w.views.views.map (viewLine w.model)

/-- The decisions of a workspace, if there are any. -/
def decisionLines (w : Workspace) : List String :=
  if w.decisions.isEmpty then []
  else ["", heading "Decisions" w.decisions.length] ++ w.decisions.map (decisionLine w.model)

end Summary

/-- The lines of the summary of a workspace. -/
def Workspace.summaryLines (w : Workspace) : List String :=
  Summary.titleLines w ++ Summary.elementLines w.model ++ Summary.relationshipLines w.model ++
    Summary.viewLines w ++ Summary.decisionLines w

/-- The summary of a workspace, a text whose lines all end in a line break. -/
def Workspace.summary (w : Workspace) : String :=
  String.join (w.summaryLines.map (· ++ "\n"))

end Edifice
