import Edifice.Language.Session

/-!
The statements that elements and relationships share, and the blocks of properties and
perspectives.
-/

namespace Edifice.Language

def executeItem (s : Session) (ref : ItemRef) (st : Statement) : Execution := do
  let ts := st.tokens
  match st.keyword with
  | "tags" =>
    if ts.length ≤ 1 then throw (missingTokens ts "tags <tags> [tags...]")
    let s ← (ts.drop 1).foldlM
      (fun (s : Session) t => s.build t.span (Builder.addTags ref t.text)) s
    s.done
  | "url" =>
    checkTokens ts 1 1 "url <url>"
    let s ← s.build st.span (Builder.setUrl ref (ts.text 1))
    s.done
  | "properties" =>
    checkBare st
    s.opening (.properties (.item ref))
  | "perspectives" =>
    checkBare st
    s.opening (.perspectives ref)
  | _ => throw (unexpectedStatement st (some (.ofItem ref)))

/-- Adds a property where the block says. -/
def addPropertyTo (target : PropertyTarget) (name value : String) : Change Builder Unit :=
  match target with
  | .workspace => Builder.addWorkspaceProperty name value
  | .model => Builder.addModelProperty name value
  | .item ref => Builder.addProperty ref name value
  | .view key => Builder.addViewProperty key name value
  | .views => Builder.addViewsProperty name value
  | .elementStyle tag =>
    modify (·.updateElementStyle tag fun style => style.addProperty name value)
  | .relationshipStyle tag =>
    modify (·.updateRelationshipStyle tag fun style => style.addProperty name value)

def executeProperty (s : Session) (target : PropertyTarget) (st : Statement) : Execution := do
  let ts := st.tokens
  checkTokens ts 1 1 "<name> <value>"
  let s ← s.build st.span (addPropertyTo target (ts.text 0) (ts.text 1))
  s.done

def executePerspective (s : Session) (ref : ItemRef) (st : Statement) : Execution := do
  let ts := st.tokens
  checkTokens ts 1 2 "<name> <description> [value]"
  let p := Perspective.of (ts.text 0) (ts.text 1) (ts.text? 2)
  let s ← s.build st.span (Builder.addPerspective ref p)
  s.done

end Edifice.Language
