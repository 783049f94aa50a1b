import Edifice.Diagnostic.Basic
import Edifice.Identifier.Registry
import Edifice.Source.Token

/-!
Refusals of the model and of the identifiers as diagnostics.
-/

namespace Edifice

def ModelError.code : ModelError → Code
  | .duplicateElement _ _ | .duplicateInstance _ _ => .duplicateElement
  | .duplicateRelationship _ _ _ => .duplicateRelationship
  | .unsupportedProperty _ _ => .unsupportedByElement
  | .illegalNesting _ _ | .missingParent _ => .illegalNesting
  | .selfRelationship _ | .parentChildRelationship _ _ => .illegalRelationship
  | .illegalViewElement _ _ _ | .viewScopeElement _ => .notPermittedInView
  | .invalidViewScope _ _ _ | .missingViewScope _ | .missingEnvironment
  | .duplicateViewKey _ | .invalidViewKey _ | .unknownView _
  | .unsupportedViewOperation _ _ => .invalidView
  | .missingRelationship _ _ => .noBackingRelationship
  | .invalidUrl _ | .propertyWithoutName | .propertyWithoutValue _ | .perspectiveWithoutName
  | .perspectiveWithoutDescription _ | .duplicatePerspective _ => .invalidMetadata
  | .duplicateDecision _ | .unknownDecision _ _ | .decisionWithoutId => .invalidDecision
  | .unknownElement _ | .unknownRelationship _ => .inconsistency

def ModelError.diagnostic (e : ModelError) (span : Span) : Diagnostic :=
  .error e.code e.message span e.code.description

def RegistryError.code : RegistryError → Code
  | .duplicate _ => .duplicateIdentifier
  | .invalid _ => .invalidIdentifier

def RegistryError.diagnostic (e : RegistryError) (span : Span) : Diagnostic :=
  .error e.code e.message span e.code.description

/-- The error of a token that names nothing known; `role` says what it should name. -/
def unknownIdentifier (t : Token) (role : String) : Diagnostic :=
  let text := t.text
  .error .unknownIdentifier s!"the {role} `{text}` does not exist" t.span "unknown identifier"

/-- The error of a token that names something of the wrong kind. -/
def wrongIdentifier (t : Token) (message : String) : Diagnostic :=
  .error .wrongIdentifier message t.span "wrong kind of identifier"

end Edifice
