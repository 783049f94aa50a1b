import Edifice.Builder.Relationships
import Edifice.Language.Session

/-!
The statements that declare relationships.

A relationship names its source and its destination on either side of an arrow; inside an
element the source may be left out, and the element stands in for it.
-/

namespace Edifice.Language

def relationshipGrammar : String :=
  "<identifier> -> <identifier> [description] [technology] [tags] [\x7b]"

def outgoingGrammar : String :=
  "-> <identifier> [description] [technology] [tags] [\x7b]"

/-- The source of a relationship, and the tokens from its destination on. -/
def resolveSource (s : Session) (ts : Tokens) : Except Diagnostic (ElementId × Tokens) := do
  if ts.isAt 0 arrow then
    checkTokens ts 1 4 outgoingGrammar
    match s.frames.element? with
    | some source => return (source, ts.drop 1)
    | none =>
      let message := "a relationship without a source must be declared inside an element"
      throw ((Diagnostic.error .unexpectedStatement message (ts.span 0)
        "no enclosing element").withHelp s!"expected: {relationshipGrammar}")
  else
    checkTokens ts 2 5 relationshipGrammar
    match ts with
    | [] => throw (missingTokens ts relationshipGrammar)
    | t :: _ => return (← s.resolveElement t "source element", ts.drop 2)

/-- Adds the tags of a declared relationship, if there are any. -/
def Session.tagRelationship (s : Session) (id : RelationshipId) (tags : Option Token) :
    Except Diagnostic Session :=
  match tags with
  | none => .ok s
  | some t =>
    if t.text = "" then .ok s
    else s.build t.span (Builder.addTags (.relationship id) t.text)

def executeRelationship (s : Session) (identifier : Option Token) (st : Statement) :
    Execution := do
  let ts := st.tokens
  let (source, rest) ← resolveSource s ts
  match rest with
  | [] => throw (missingTokens ts relationshipGrammar)
  | t :: _ =>
    let destination ← s.resolveElement t "destination element"
    let (id, s) ← s.buildWith st.span
      (Builder.addRelationship source destination (rest.text 1) (rest.text 2))
    let s ← s.tagRelationship id rest[3]?
    let s ← s.bindRelationship identifier id
    s.opening (.relationship id)

end Edifice.Language
