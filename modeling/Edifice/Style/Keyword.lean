import Edifice.Text.Ascii

/-!
The keywords of element and relationship styles.

Each keyword has one canonical spelling, in which it is written; reading ignores
ASCII case.
-/

namespace Edifice

/-- Reads a keyword from a list of alternatives; `what` names them in the error. -/
def readKeyword {α : Type} (what : String) (all : List α) (spelling : α → String) (s : String) :
    Except String α :=
  match all.find? fun a => Text.eqIgnoreCase s (spelling a) with
  | some a => .ok a
  | none =>
    let choices := ", ".intercalate (all.map spelling)
    .error s!"`{s}` is not a valid {what}, expected one of: {choices}"

/-- The shape an element is drawn in. -/
inductive Shape where
  | box | roundedBox | circle | ellipse | hexagon | diamond | cylinder | bucket | pipe
  | person | robot | folder | webBrowser | window | mobileDevicePortrait
  | mobileDeviceLandscape | component
deriving DecidableEq, Repr

namespace Shape

def all : List Shape :=
  [.box, .roundedBox, .circle, .ellipse, .hexagon, .diamond, .cylinder, .bucket, .pipe,
    .person, .robot, .folder, .webBrowser, .window, .mobileDevicePortrait,
    .mobileDeviceLandscape, .component]

def toString : Shape → String
  | .box => "Box"
  | .roundedBox => "RoundedBox"
  | .circle => "Circle"
  | .ellipse => "Ellipse"
  | .hexagon => "Hexagon"
  | .diamond => "Diamond"
  | .cylinder => "Cylinder"
  | .bucket => "Bucket"
  | .pipe => "Pipe"
  | .person => "Person"
  | .robot => "Robot"
  | .folder => "Folder"
  | .webBrowser => "WebBrowser"
  | .window => "Window"
  | .mobileDevicePortrait => "MobileDevicePortrait"
  | .mobileDeviceLandscape => "MobileDeviceLandscape"
  | .component => "Component"

def parse : String → Except String Shape :=
  readKeyword "shape" all toString

end Shape

/-- The border of an element's shape. -/
inductive Border where
  | solid | dashed | dotted
deriving DecidableEq, Repr

namespace Border

def all : List Border := [.solid, .dashed, .dotted]

def toString : Border → String
  | .solid => "solid"
  | .dashed => "dashed"
  | .dotted => "dotted"

def parse : String → Except String Border :=
  readKeyword "border" all toString

end Border

/-- The line of a relationship. -/
inductive LineStyle where
  | solid | dashed | dotted
deriving DecidableEq, Repr

namespace LineStyle

def all : List LineStyle := [.solid, .dashed, .dotted]

def toString : LineStyle → String
  | .solid => "solid"
  | .dashed => "dashed"
  | .dotted => "dotted"

def parse : String → Except String LineStyle :=
  readKeyword "linestyle" all toString

end LineStyle

/-- The way the line of a relationship is led. -/
inductive Routing where
  | direct | orthogonal | curved
deriving DecidableEq, Repr

namespace Routing

def all : List Routing := [.direct, .orthogonal, .curved]

def toString : Routing → String
  | .direct => "Direct"
  | .orthogonal => "Orthogonal"
  | .curved => "Curved"

def parse : String → Except String Routing :=
  readKeyword "routing" all toString

end Routing

end Edifice
