import Edifice.Language.Constants
import Edifice.Language.Statement

/-!
Warnings: what is legal but looks like a mistake.

The names of properties that start with `structurizr.` are reserved, style settings have a
fixed set of names, and constants should be defined.
-/

namespace Edifice.Language

/-- The start of the property names that are reserved. -/
def reservedStem : String := "structurizr."

def knownProperties : List String :=
  [groupSeparatorProperty, "structurizr.recommendations", "structurizr.dsl.identifier",
    "structurizr.locale", "structurizr.timezone", "structurizr.sort", "structurizr.tooltips",
    "structurizr.title", "structurizr.style", "structurizr.softwareSystemBoundaries",
    "structurizr.enterpriseBoundary", "structurizr.metadata", "structurizr.description"]

/-- The starts of reserved names after which any name is in use. -/
def knownStems : List String := ["structurizr.inspection."]

/-- Whether a property name is free or in use. -/
def isKnownProperty (name : String) : Bool :=
  !Text.startsWith reservedStem name || knownProperties.contains name ||
    knownStems.any fun stem => Text.startsWith stem name

def elementSettings : List String :=
  ["shape", "icon", "width", "height", "background", "color", "colour", "stroke",
    "strokeWidth", "fontSize", "border", "opacity", "metadata", "description"]

def relationshipSettings : List String :=
  ["thickness", "color", "colour", "style", "dashed", "routing", "fontSize", "width",
    "position", "opacity"]

def unknownProperty (ts : Tokens) : Diagnostic :=
  let name := ts.text 0
  (Diagnostic.warning .unknownReservedProperty s!"`{name}` is not a recognised property"
    (ts.span 0) "unrecognised").withHelp "names starting with `structurizr.` are reserved"

def unknownSetting (ts : Tokens) (style : String) : Diagnostic :=
  let name := ts.text 0
  .warning .unknownStyleProperty s!"`{name}` is not a known {style} style property"
    (ts.span 0) "ignored"

/-- The warning about a setting of a style, unless the statement is malformed. -/
def settingAdvice (settings : List String) (style : String) (ts : Tokens) : List Diagnostic :=
  let name := ts.text 0
  if ts.length = 2 ∧ name ≠ "properties" ∧ !settings.contains name then
    [unknownSetting ts style]
  else []

/-- The warnings about a well-formed statement of a block. -/
def advice (block : Option Block) (ts : Tokens) : List Diagnostic :=
  match block with
  | some (.properties _) =>
    if ts.length = 2 ∧ !isKnownProperty (ts.text 0) then [unknownProperty ts] else []
  | some (.elementStyle _) => settingAdvice elementSettings "element" ts
  | some (.relationshipStyle _) => settingAdvice relationshipSettings "relationship" ts
  | _ => []

/-- The warnings about the constants of a line that are not defined. -/
def constantAdvice (constants : Dictionary String) (ts : Tokens) : List Diagnostic :=
  (undefinedConstants constants ts).map fun (name, span) =>
    .warning .undefinedConstant s!"the constant `{name}` is not defined" span "left as written"

end Edifice.Language
