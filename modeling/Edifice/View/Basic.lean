import Edifice.Model.Basic
import Edifice.Style.Basic
import Edifice.View.Kind
import Edifice.View.Steps

/-!
Views: named, ordered selections of elements and relationships.
-/

namespace Edifice

/-- The direction in which automatic layout ranks elements. -/
inductive RankDirection where
  | topBottom
  | bottomTop
  | leftRight
  | rightLeft
deriving DecidableEq, Repr

def RankDirection.name : RankDirection → String
  | .topBottom => "TopBottom"
  | .bottomTop => "BottomTop"
  | .leftRight => "LeftRight"
  | .rightLeft => "RightLeft"

def RankDirection.parse (s : String) : Except String RankDirection :=
  match Text.lower s with
  | "tb" => .ok .topBottom
  | "bt" => .ok .bottomTop
  | "lr" => .ok .leftRight
  | "rl" => .ok .rightLeft
  | _ => .error s!"`{s}` is not a valid rank direction, expected one of: tb, bt, lr, rl"

/-- The distance that automatic layout keeps when none is asked for. -/
def defaultSeparation : Nat := 300

/-- How a view is laid out automatically. -/
structure AutoLayout where
  direction : RankDirection := .topBottom
  rankSeparation : Nat := defaultSeparation
  nodeSeparation : Nat := defaultSeparation
deriving DecidableEq, Repr

/-- A relationship as a view shows it, drawn from `source` to `destination`.  In a
dynamic view it has a step number and may be the response to its relationship, drawn
the other way round. -/
structure ViewLine where
  relationship : RelationshipId
  source : ElementId
  destination : ElementId
  description : String := ""
  technology : String := ""
  order : Option String := none
  response : Bool := false
deriving DecidableEq, Repr

/-- The line of a relationship as the model has it. -/
def ViewLine.ofRelationship (r : Relationship) : ViewLine :=
  { relationship := r.id, source := r.source, destination := r.destination }

def ViewLine.touches (l : ViewLine) (id : ElementId) : Bool :=
  l.source == id || l.destination == id

/-- A view of the model. -/
structure View where
  key : String
  kind : ViewKind
  scope : Option ElementId := none
  environment : Option String := none
  title : Option String := none
  description : Option String := none
  autoLayout : Option AutoLayout := none
  properties : Dictionary String := {}
  elements : List ElementId := []
  lines : List ViewLine := []
  steps : StepCounter := {}
deriving DecidableEq, Repr

def View.showsElement (v : View) (id : ElementId) : Bool :=
  v.elements.contains id

def View.showsRelationship (v : View) (id : RelationshipId) : Bool :=
  v.lines.any fun l => l.relationship == id

/-- A view key has letters, digits, underscores and hyphens, at least one. -/
def isViewKey (key : String) : Bool :=
  key != "" && key.toList.all fun c => c.isAlphanum || c == '_' || c == '-'

/-- The views of a workspace with what they share. -/
structure ViewSet where
  /-- The views under their keys, in the order in which they were declared. -/
  entries : List (String × View) := []
  styles : Styles := {}
  themes : List String := []
  properties : Dictionary String := {}
deriving DecidableEq, Repr

namespace ViewSet

/-- The views in the order in which they were declared. -/
def views (s : ViewSet) : List View :=
  s.entries.map Prod.snd

/-- The keys in the order of their views. -/
def keys (s : ViewSet) : List String :=
  s.entries.map Prod.fst

def view? (s : ViewSet) (key : String) : Option View :=
  (s.entries.find? fun e => e.1 == key).map Prod.snd

def viewsOfKind (s : ViewSet) (kind : ViewKind) : List View :=
  s.views.filter fun v => v.kind == kind

def put (s : ViewSet) (key : String) (view : View) : ViewSet :=
  { s with entries := putKeyed Prod.fst (key, view) s.entries }

end ViewSet

end Edifice
