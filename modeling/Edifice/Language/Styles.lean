import Edifice.Language.Session

/-!
The statements of the styles block.

A style block has one setting a line.  A name that is no setting changes nothing; it is
warned about elsewhere.
-/

namespace Edifice.Language

def executeStyles (s : Session) (st : Statement) : Execution := do
  let ts := st.tokens
  match st.keyword with
  | "element" =>
    let grammar := "element <tag> \x7b"
    checkTokens ts 1 1 grammar
    requireBlock st grammar
    let tag := ts.text 1
    (s.withBuilder (s.builder.updateElementStyle tag id)).opening (.elementStyle tag)
  | "relationship" =>
    let grammar := "relationship <tag> \x7b"
    checkTokens ts 1 1 grammar
    requireBlock st grammar
    let tag := ts.text 1
    (s.withBuilder (s.builder.updateRelationshipStyle tag id)).opening
      (.relationshipStyle tag)
  | _ => throw (unexpectedStatement st (some .styles))

def readColor (colors : ColorReader) (ts : Tokens) (i : Nat) : Except Diagnostic Color :=
  readWord ts i fun text => Color.parse text colors

/-- Reads one setting of an element style; nothing for another name. -/
def readElementSetting (colors : ColorReader) (ts : Tokens) :
    Except Diagnostic (Option ElementSetting) := do
  match ts.text 0 with
  | "shape" => return some (.shape (← readWord ts 1 Shape.parse))
  | "icon" => return some (.icon (ts.text 1))
  | "width" => return some (.width (← readSize ts 1))
  | "height" => return some (.height (← readSize ts 1))
  | "background" => return some (.background (← readColor colors ts 1))
  | "color" | "colour" => return some (.color (← readColor colors ts 1))
  | "stroke" => return some (.stroke (← readColor colors ts 1))
  | "strokeWidth" => return some (.strokeWidth (← readSize ts 1))
  | "fontSize" => return some (.fontSize (← readSize ts 1))
  | "border" => return some (.border (← readWord ts 1 Border.parse))
  | "opacity" => return some (.opacity (← readPercentage ts 1))
  | "metadata" => return some (.metadata (← readBool ts 1))
  | "description" => return some (.description (← readBool ts 1))
  | _ => return none

/-- Reads one setting of a relationship style; nothing for another name. -/
def readRelationshipSetting (colors : ColorReader) (ts : Tokens) :
    Except Diagnostic (Option RelationshipSetting) := do
  match ts.text 0 with
  | "thickness" => return some (.thickness (← readSize ts 1))
  | "color" | "colour" => return some (.color (← readColor colors ts 1))
  | "style" => return some (.style (← readWord ts 1 LineStyle.parse))
  | "dashed" => return some (.style (if ← readBool ts 1 then .dashed else .solid))
  | "routing" => return some (.routing (← readWord ts 1 Routing.parse))
  | "fontSize" => return some (.fontSize (← readSize ts 1))
  | "width" => return some (.width (← readSize ts 1))
  | "position" => return some (.position (← readPercentage ts 1))
  | "opacity" => return some (.opacity (← readPercentage ts 1))
  | _ => return none

/-- Executes a statement in a style: one that opens the block of its free properties, or
else a setting, which `read` reads and `enter` gives to the style. -/
def executeStyle {α : Type} (read : Tokens → Except Diagnostic (Option α))
    (enter : Builder → α → Builder) (properties : PropertyTarget) (s : Session)
    (st : Statement) : Execution := do
  if st.keyword = "properties" then
    checkBare st
    s.opening (.properties properties)
  else
    checkTokens st.tokens 1 1 "<name> <value>"
    match ← read st.tokens with
    | some setting => (s.withBuilder (enter s.builder setting)).done
    | none => s.done

def executeElementStyle (colors : ColorReader) (s : Session) (tag : String) (st : Statement) :
    Execution :=
  executeStyle (readElementSetting colors)
    (fun b setting => b.updateElementStyle tag (·.apply setting)) (.elementStyle tag) s st

def executeRelationshipStyle (colors : ColorReader) (s : Session) (tag : String)
    (st : Statement) : Execution :=
  executeStyle (readRelationshipSetting colors)
    (fun b setting => b.updateRelationshipStyle tag (·.apply setting)) (.relationshipStyle tag) s
    st

end Edifice.Language
