import Edifice.Builder.Selections
import Edifice.Language.Refusal
import Edifice.Language.Statement

/-!
The state in which statements are read.

A session holds the workspace under construction, what its identifiers stand for, and the
open blocks.  Executing a statement answers the block that the statement may open and the
session after it.
-/

namespace Edifice.Language

/-- The state in which statements are read. -/
structure Session where
  builder : Builder := {}
  registry : Registry := {}
  frames : Frames := []
  constants : Dictionary String := {}
  /-- The deployment environments, by name and by identifier. -/
  environments : Dictionary String := {}
  hasModel : Bool := false
  hasViews : Bool := false
  /-- Whether the workspace block has been closed. -/
  closed : Bool := false
deriving DecidableEq, Repr

/-- What executing a statement comes to: the block it may open, and the session after it. -/
abbrev Execution := Except Diagnostic (Option Block × Session)

namespace Session

def done (s : Session) : Execution :=
  .ok (none, s)

def opening (s : Session) (block : Block) : Execution :=
  .ok (some block, s)

def withBuilder (s : Session) (builder : Builder) : Session :=
  { s with builder }

/-- Changes the workspace: what the change answers with the session after it, or its
refusal on a range. -/
def buildWith {α : Type} (s : Session) (span : Span) (c : Change Builder α) :
    Except Diagnostic (α × Session) :=
  match c s.builder with
  | .ok a builder => .ok (a, s.withBuilder builder)
  | .error e _ => .error (e.diagnostic span)

/-- Changes the workspace: the session after the change, or its refusal on a range. -/
def build (s : Session) (span : Span) (c : Change Builder Unit) : Except Diagnostic Session :=
  (s.buildWith span c).map Prod.snd

def element (s : Session) (id : ElementId) (span : Span) : Except Diagnostic Element :=
  match s.builder.element id with
  | .ok e => .ok e
  | .error e => .error (e.diagnostic span)

/-! ### Identifiers -/

def thisKeyword : String := "this"

def resolve (s : Session) (t : Token) : Option Binding :=
  if t.is thisKeyword then s.frames.element?.map .element
  else s.registry.resolve t.text s.frames.scope

/-- The element that a token stands for; `role` says what it is to the statement. -/
def resolveElement (s : Session) (t : Token) (role : String) : Except Diagnostic ElementId :=
  match s.resolve t with
  | some (.element id) => .ok id
  | some (.relationship _) =>
    let text := t.text
    .error (wrongIdentifier t s!"the {role} `{text}` is a relationship, not an element")
  | none => .error (unknownIdentifier t role)

/-- The relationship that a token stands for. -/
def resolveRelationship (s : Session) (t : Token) : Except Diagnostic RelationshipId :=
  match s.resolve t with
  | some (.relationship id) => .ok id
  | some (.element _) =>
    let text := t.text
    .error (wrongIdentifier t s!"`{text}` is an element, not a relationship")
  | none => .error (unknownIdentifier t "relationship")

/-- Binds a chosen name in a scope; `this` cannot be chosen. -/
def register (s : Session) (t : Token) (binding : Binding) (scope : Scope) :
    Except Diagnostic Session :=
  if t.is thisKeyword then .error ((RegistryError.invalid t.text).diagnostic t.span)
  else
    match s.registry.register t.text binding scope with
    | .ok registry => .ok { s with registry }
    | .error e => .error (e.diagnostic t.span)

/-- Binds a declared element to its identifier, or to a name of its own, in the scope of
the open block. -/
def bindElement (s : Session) (identifier : Option Token) (id : ElementId) :
    Except Diagnostic Session :=
  match identifier with
  | some t => s.register t (.element id) s.frames.scope
  | none =>
    .ok { s with
      registry := s.registry.registerAnonymous id.index (.element id) s.frames.scope }

/-- Binds a declared relationship to its identifier, if it has one, in the scope of the
workspace, where views can refer to it. -/
def bindRelationship (s : Session) (identifier : Option Token) (id : RelationshipId) :
    Except Diagnostic Session :=
  match identifier with
  | some t => s.register t (.relationship id) []
  | none => .ok s

/-! ### Blocks -/

/-- The scope of the declarations in a block that opens now. -/
def scopeOf (s : Session) (block : Block) : Scope :=
  match block.element? with
  | some id => s.registry.scopeOf id s.frames.scope
  | none => s.frames.scope

def openBlock (s : Session) (block : Block) (line : Nat) (span : Span) : Session :=
  { s with frames := { block, scope := s.scopeOf block, line, span } :: s.frames }

/-- Closes the innermost block with the brace `ts`. -/
def closeBlock (s : Session) (ts : Tokens) : Except Diagnostic Session :=
  match s.frames with
  | [] =>
    .error (.error .unexpectedClosing "unexpected `\x7d` with no open block" (ts.span 0)
      "nothing to close")
  | frame :: frames =>
    let s := { s with frames }
    match frame.block with
    | .workspace => .ok { s with closed := true }
    | .parallel key =>
      match s.buildWith (ts.span 0) (Builder.endParallel key) with
      | .ok (true, s) => .ok s
      | .ok (false, _) =>
        .error (.error .inconsistency "a parallel sequence closed without being opened"
          (ts.span 0) "internal consistency")
      | .error d => .error d
    | _ => .ok s

/-- Checks that no block is open at the end of the source. -/
def checkAllClosed (s : Session) : Except Diagnostic Unit :=
  match s.frames with
  | [] => .ok ()
  | frame :: _ =>
    let name := frame.block.name
    let line := frame.line
    let message := s!"the {name} block opened on line {line} is never closed"
    .error ((Diagnostic.error .unclosedBlock message frame.span "opened here").withHelp
      "add the missing `\x7d`")

end Session

end Edifice.Language
