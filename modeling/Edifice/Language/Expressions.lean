import Edifice.Language.Session

/-!
The expressions of `include` and `exclude` statements.

An expression is `*`, an identifier, a filter such as `element.tag==Database`, or a
coupling such as `->api->`.  A statement of exactly two ends around an arrow, where `*`
stands for any element, selects the relationships between them.
-/

namespace Edifice.Language

def wildcard : String := "*"

def allRelationships : String := "relationship==*"

/-- The value that a filter compares a property with, and whether it is to differ. -/
def filterOn? (property s : String) : Option (String × Bool) :=
  match Text.stripStart? property s with
  | none => none
  | some rest =>
    match Text.stripStart? "==" rest with
    | some value => some (value, false)
    | none => (Text.stripStart? "!=" rest).map fun value => (value, true)

def invalidExpression (t : Token) (message : String) : Diagnostic :=
  .error .invalidValue message t.span "invalid value"

def readTags (t : Token) (value : String) : Except Diagnostic (List String) :=
  match tagList value with
  | [] => .error (invalidExpression t "expected at least one tag")
  | tags => .ok tags

/-- The name in a coupling and the relationships that the coupling follows. -/
def coupling? (s : String) : Option (String × Coupling) :=
  match Text.stripStart? arrow s, Text.stripEnd? arrow s with
  | some inner, some _ =>
    match Text.stripEnd? arrow inner with
    | some name => if name = "" then some (inner, .afferent) else some (name, .both)
    | none => some (inner, .afferent)
  | some name, none => some (name, .afferent)
  | none, some name => some (name, .efferent)
  | none, none => none

/-- Reads an identifier or a coupling. -/
def readReference (s : Session) (t : Token) : Except Diagnostic Selection :=
  match coupling? t.text with
  | some (name, coupling) =>
    (s.resolveElement { t with text := name } "element").map fun id => .coupled id coupling
  | none =>
    match s.resolve t with
    | some (.element id) => .ok (.element id)
    | some (.relationship id) => .ok (.relationship id)
    | none => .error (unknownIdentifier t "element or relationship")

def readExpression (s : Session) (t : Token) : Except Diagnostic Selection :=
  if t.is wildcard then .ok .all
  else if t.text = allRelationships then .ok .allRelationships
  else
    match filterOn? "element.tag" t.text with
    | some (value, negated) => (readTags t value).map fun tags => .elementTags tags negated
    | none =>
      match filterOn? "element.type" t.text with
      | some (value, negated) =>
        match ElementKind.parse value with
        | .ok kind => .ok (.elementType kind negated)
        | .error message => .error (invalidExpression t message)
      | none =>
        match filterOn? "relationship.tag" t.text with
        | some (value, negated) =>
          (readTags t value).map fun tags => .relationshipTags tags negated
        | none =>
          if t.is arrow then
            .error (invalidExpression t "`->` must sit between exactly two identifiers")
          else readReference s t

/-- Reads an end of an arrow, where `*` stands for any element. -/
def readEnd (s : Session) (t : Token) (role : String) : Except Diagnostic (Option ElementId) :=
  if t.is wildcard then .ok none else (s.resolveElement t role).map some

/-- Reads the expressions of a statement, each with its range. -/
def readExpressions (s : Session) (ts : Tokens) : Except Diagnostic (List (Selection × Span)) :=
  match ts with
  | [source, mark, destination] =>
    if mark.is arrow then do
      let a ← readEnd s source "source element"
      let b ← readEnd s destination "destination element"
      return [(.between a b, ts.spanFrom 0)]
    else ts.mapM fun t => return (← readExpression s t, t.span)
  | _ => ts.mapM fun t => return (← readExpression s t, t.span)

end Edifice.Language
