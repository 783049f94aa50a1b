import Edifice.Dictionary
import Edifice.Keyed
import Edifice.Model.Change
import Edifice.Model.Url
import Edifice.Ordered

/-!
What elements and relationships carry alike: tags, properties, perspectives and a
link.

Tags keep the order in which they were added and are listed once, properties need a
name and a value, perspectives are listed by name, and the link is absent or valid.
-/

namespace Edifice

/-- A named way of looking at an item, such as its security. -/
structure Perspective where
  name : String
  description : String
  value : Option String := none
deriving DecidableEq, Repr

/-- A perspective whose empty value counts as absent. -/
def Perspective.of (name description : String) (value : Option String) : Perspective :=
  { name, description, value := value.filter (· != "") }

def Perspective.below (a b : Perspective) : Bool :=
  decide (a.name < b.name)

/-- The tags written in a list separated by commas, without blanks around them and
without empty ones. -/
def tagList (text : String) : List String :=
  ((Text.pieces ',' text).map Text.trim).filter (· != "")

def checkProperty (name value : String) : Except ModelError Unit :=
  if name = "" then .error .propertyWithoutName
  else if value = "" then .error (.propertyWithoutValue name)
  else .ok ()

/-- What elements and relationships carry alike. -/
structure Item where
  tags : List String := []
  properties : Dictionary String := {}
  perspectives : List Perspective := []
  url : Option String := none
deriving DecidableEq, Repr

namespace Item

/-- Whether the item carries the tag; blanks around the asked tag do not count. -/
def hasTag (item : Item) (tag : String) : Bool :=
  item.tags.contains (Text.trim tag)

/-- Adds one tag at the end unless the item carries it already. -/
def addTag (item : Item) (tag : String) : Item :=
  { item with tags := insertLast tag item.tags }

def addTags (item : Item) (text : String) : Item :=
  (tagList text).foldl addTag item

/-- The link that a text stands for: none when it is blank. -/
def readUrl (url : String) : Except ModelError (Option String) :=
  if Text.isBlankText url then .ok none
  else if Url.isValid url then .ok (some url)
  else .error (.invalidUrl url)

/-- Sets the link; a blank one removes it. -/
def setUrl (url : String) : Change Item Unit := do
  let url ← Change.ask fun _ => readUrl url
  modify fun item => { item with url }

def addProperty (name value : String) : Change Item Unit := do
  Change.ask fun _ => checkProperty name value
  modify fun item => { item with properties := item.properties.insert name value }

/-- Checks that a perspective has a new name and a description. -/
def checkPerspective (item : Item) (p : Perspective) : Except ModelError Unit :=
  if p.name = "" then .error .perspectiveWithoutName
  else if p.description = "" then .error (.perspectiveWithoutDescription p.name)
  else if item.perspectives.any (·.name == p.name) then .error (.duplicatePerspective p.name)
  else .ok ()

def addPerspective (p : Perspective) : Change Item Unit := do
  Change.ask (·.checkPerspective p)
  modify fun item =>
    { item with perspectives := insertSorted Perspective.below p item.perspectives }

end Item

end Edifice
