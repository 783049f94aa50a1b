import Edifice.Language.Views

/-!
The statements in the body of a dynamic view.

A line describes an interaction between two elements or names a relationship of the model.
An order may stand in front of it, ended by a colon; the line is an interaction exactly
when an arrow follows its first token.
-/

namespace Edifice.Language

def interactionGrammar : String :=
  "[order:] <identifier> -> <identifier> [description] [technology]"

def relationshipLineGrammar : String := "[order:] <identifier> [description]"

def orderMark : String := ":"

/-- Opens a block of interactions that happen in parallel. -/
def executeParallel (s : Session) (key : String) (st : Statement) : Execution := do
  let s ← s.build st.span (Builder.startParallel key)
  s.opening (.parallel key)

def readParticipant (s : Session) (t : Token) (role : String) :
    Except Diagnostic Participant := do
  let id ← s.resolveElement t role
  let e ← s.element id t.span
  if e.kind.isStaticStructure then return .staticStructure id
  else if e.kind.isCustom then return .custom id
  else
    let text := t.text
    let keyword := e.kind.keyword
    throw ((Diagnostic.error .wrongIdentifier
      s!"the {role} `{text}` should be a static structure or custom element" t.span
      s!"a {keyword} cannot take part").withHelp s!"expected: {interactionGrammar}")

def executeInteraction (s : Session) (key : String) (order : Option String) (ts : Tokens) :
    Except Diagnostic Session := do
  if ts.length > 5 then throw (tooManyTokens ts 4 interactionGrammar)
  match ts with
  | source :: _ :: destination :: _ =>
    let source ← readParticipant s source "source element"
    let destination ← readParticipant s destination "destination element"
    s.build (ts.spanFrom 0)
      (Builder.addInteraction key source destination (ts.text 3) (ts.text 4) order)
  | _ => throw (missingTokens ts interactionGrammar)

/-- Adds a relationship of the model. -/
def executeRelationshipLine (s : Session) (key : String) (order : Option String)
    (ts : Tokens) : Except Diagnostic Session := do
  match ts with
  | [] => throw (missingTokens ts relationshipLineGrammar)
  | t :: _ =>
    if ts.length > 2 then throw (tooManyTokens ts 1 relationshipLineGrammar)
    let id ← s.resolveRelationship t
    s.build (ts.spanFrom 0) (Builder.addRelationshipLine key id (ts.text 1) order)

/-- The order in front of a line, and the tokens after it. -/
def splitOrder (ts : Tokens) : Option String × Tokens :=
  match Text.stripEnd? orderMark (ts.text 0) with
  | some order => (if order = "" then none else some order, ts.drop 1)
  | none => (none, ts)

/-- Adds the line that a statement describes. -/
def executeDynamicLine (s : Session) (key : String) (st : Statement) : Execution := do
  let (order, ts) := splitOrder st.tokens
  if ts.isAt 1 arrow then (← executeInteraction s key order ts).done
  else (← executeRelationshipLine s key order ts).done

/-- Whether a statement is a line by its form, whatever its first word. -/
def isDynamicLine (ts : Tokens) : Bool :=
  ts.isAt 1 arrow || Text.endsWith orderMark (ts.text 0)

def executeDynamicView (s : Session) (key : String) (st : Statement) : Execution :=
  let keyword := st.keyword
  if isDynamicLine st.tokens then executeDynamicLine s key st
  else
    match keyword with
    | "include" | "exclude" =>
      .error ((Diagnostic.error .notPermittedInView
        s!"`{keyword}` is not permitted in a dynamic view" (st.tokens.span 0)
        "not permitted here").withHelp
        s!"list interactions instead, e.g. {interactionGrammar}")
    | "title" | "description" | "autoLayout" | "autolayout" | "properties" =>
      executeViewSetting s key st (.dynamicView key)
    | _ => executeDynamicLine s key st

end Edifice.Language
