import Edifice.Color.Basic
import Edifice.Dictionary
import Edifice.Style.Keyword

/-!
Element and relationship styles, each applying to what carries its tag.

A style is a list of settings by name, of which the last one given for a name counts
(`apply`), and of free properties.
-/

namespace Edifice

/-- How the elements with a tag are drawn. -/
structure ElementStyle where
  tag : String
  shape : Option Shape := none
  icon : Option String := none
  width : Option Nat := none
  height : Option Nat := none
  background : Option Color := none
  color : Option Color := none
  stroke : Option Color := none
  strokeWidth : Option Nat := none
  fontSize : Option Nat := none
  border : Option Border := none
  opacity : Option Nat := none
  metadata : Option Bool := none
  description : Option Bool := none
  properties : Dictionary String := {}
deriving DecidableEq, Repr

/-- One setting of an element style. -/
inductive ElementSetting where
  | shape (value : Shape)
  | icon (value : String)
  | width (value : Nat)
  | height (value : Nat)
  | background (value : Color)
  | color (value : Color)
  | stroke (value : Color)
  | strokeWidth (value : Nat)
  | fontSize (value : Nat)
  | border (value : Border)
  | opacity (value : Nat)
  | metadata (value : Bool)
  | description (value : Bool)
deriving DecidableEq, Repr

namespace ElementStyle

/-- Gives the style a setting in place of an earlier one of the same name. -/
def apply (s : ElementStyle) : ElementSetting → ElementStyle
  | .shape v => { s with shape := some v }
  | .icon v => { s with icon := some v }
  | .width v => { s with width := some v }
  | .height v => { s with height := some v }
  | .background v => { s with background := some v }
  | .color v => { s with color := some v }
  | .stroke v => { s with stroke := some v }
  | .strokeWidth v => { s with strokeWidth := some v }
  | .fontSize v => { s with fontSize := some v }
  | .border v => { s with border := some v }
  | .opacity v => { s with opacity := some v }
  | .metadata v => { s with metadata := some v }
  | .description v => { s with description := some v }

def addProperty (s : ElementStyle) (name value : String) : ElementStyle :=
  { s with properties := s.properties.insert name value }

end ElementStyle

/-- How the relationships with a tag are drawn. -/
structure RelationshipStyle where
  tag : String
  thickness : Option Nat := none
  color : Option Color := none
  style : Option LineStyle := none
  routing : Option Routing := none
  fontSize : Option Nat := none
  width : Option Nat := none
  position : Option Nat := none
  opacity : Option Nat := none
  properties : Dictionary String := {}
deriving DecidableEq, Repr

/-- One setting of a relationship style. -/
inductive RelationshipSetting where
  | thickness (value : Nat)
  | color (value : Color)
  | style (value : LineStyle)
  | routing (value : Routing)
  | fontSize (value : Nat)
  | width (value : Nat)
  | position (value : Nat)
  | opacity (value : Nat)
deriving DecidableEq, Repr

namespace RelationshipStyle

/-- Gives the style a setting in place of an earlier one of the same name. -/
def apply (s : RelationshipStyle) : RelationshipSetting → RelationshipStyle
  | .thickness v => { s with thickness := some v }
  | .color v => { s with color := some v }
  | .style v => { s with style := some v }
  | .routing v => { s with routing := some v }
  | .fontSize v => { s with fontSize := some v }
  | .width v => { s with width := some v }
  | .position v => { s with position := some v }
  | .opacity v => { s with opacity := some v }

def addProperty (s : RelationshipStyle) (name value : String) : RelationshipStyle :=
  { s with properties := s.properties.insert name value }

end RelationshipStyle

/-- The styles of a workspace in the order in which their tags were first styled. -/
structure Styles where
  elements : List ElementStyle := []
  relationships : List RelationshipStyle := []
deriving DecidableEq, Repr

namespace Styles

def element? (s : Styles) (tag : String) : Option ElementStyle :=
  s.elements.find? fun e => e.tag == tag

def relationship? (s : Styles) (tag : String) : Option RelationshipStyle :=
  s.relationships.find? fun r => r.tag == tag

/-- Changes the style of elements with a tag, starting from an empty one at the end. -/
def updateElement (s : Styles) (tag : String) (f : ElementStyle → ElementStyle) : Styles :=
  if s.elements.any (·.tag == tag) then
    { s with elements := s.elements.map fun e => if e.tag == tag then f e else e }
  else { s with elements := s.elements ++ [f { tag }] }

/-- Changes the style of relationships with a tag, starting from an empty one at the
end. -/
def updateRelationship (s : Styles) (tag : String) (f : RelationshipStyle → RelationshipStyle) :
    Styles :=
  if s.relationships.any (·.tag == tag) then
    { s with relationships := s.relationships.map fun r => if r.tag == tag then f r else r }
  else { s with relationships := s.relationships ++ [f { tag }] }

end Styles

end Edifice
