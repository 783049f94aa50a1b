import Edifice.Language.Session

/-!
The statements of the workspace block and of its configuration.
-/

namespace Edifice.Language

def workspaceGrammar : String := "workspace [name] [description] \x7b"

/-- Names and describes the workspace as far as the tokens do. -/
def Session.entitle (s : Session) (name description : Option String) : Session :=
  let named := match name with
    | some name => s.builder.setName name
    | none => s.builder
  let builder := match description with
    | some description => named.setDescription description
    | none => named
  { s with builder }

/-- Executes a statement outside of all blocks, which has to open the workspace. -/
def executeRoot (s : Session) (st : Statement) : Execution := do
  let ts := st.tokens
  if st.keyword ≠ "workspace" then throw (unexpectedStatement st none)
  if ts.isAt 1 "extends" then
    throw (.error .unexpectedStatement "extending another workspace is not supported"
      (ts.spanFrom 1) "not supported")
  checkTokens ts 0 2 workspaceGrammar
  requireBlock st workspaceGrammar
  (s.entitle (ts.text? 1) (ts.text? 2)).opening .workspace

/-- The error of a second block of a kind that a workspace has once. -/
def secondBlock (st : Statement) : Diagnostic :=
  let block := st.keyword
  .error .unexpectedStatement s!"a workspace may only contain one {block} block"
    (st.tokens.span 0) "second block"

def executeWorkspace (s : Session) (st : Statement) : Execution := do
  let ts := st.tokens
  match st.keyword with
  | "name" =>
    checkTokens ts 1 1 "name <name>"
    (s.entitle (ts.text? 1) none).done
  | "description" =>
    checkTokens ts 1 1 "description <description>"
    (s.entitle none (ts.text? 1)).done
  | "properties" =>
    checkBare st
    s.opening (.properties .workspace)
  | "model" =>
    checkBare st
    if s.hasModel then throw (secondBlock st)
    Session.opening { s with hasModel := true } .model
  | "views" =>
    checkBare st
    if s.hasViews then throw (secondBlock st)
    Session.opening { s with hasViews := true } .views
  | "configuration" =>
    checkBare st
    s.opening .configuration
  | _ => throw (unexpectedStatement st (some .workspace))

def readScope (ts : Tokens) (i : Nat) : Except Diagnostic (Option WorkspaceScope) :=
  if Text.eqIgnoreCase (ts.text i) "none" then .ok none
  else (readWord ts i WorkspaceScope.parse).map some

def executeConfiguration (s : Session) (st : Statement) : Execution := do
  let ts := st.tokens
  match st.keyword with
  | "scope" =>
    checkTokens ts 1 1 "scope <landscape|softwaresystem|none>"
    let scope ← readScope ts 1
    (s.withBuilder (s.builder.setScope scope)).done
  | "visibility" =>
    checkTokens ts 1 1 "visibility <private|public>"
    let visibility ← readWord ts 1 Visibility.parse
    (s.withBuilder (s.builder.setVisibility visibility)).done
  | "users" =>
    checkBare st
    s.opening .users
  | _ => throw (unexpectedStatement st (some .configuration))

def executeUser (s : Session) (st : Statement) : Execution := do
  let ts := st.tokens
  checkTokens ts 1 1 "<username> <read|write>"
  let role ← readWord ts 1 Role.parse
  (s.withBuilder (s.builder.addUser { username := ts.text 0, role })).done

end Edifice.Language
