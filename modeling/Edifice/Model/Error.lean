import Edifice.Model.Kind

/-!
The rules of the model, each named by the way it can be broken.

An operation that would break a rule is refused with the cause; `message` is the
wording shown to the author.
-/

namespace Edifice

/-- Why an operation on the model or its views was refused. -/
inductive ModelError where
  | duplicateElement (kind : ElementKind) (name : String)
  | duplicateInstance (container element : String)
  | duplicateRelationship (source destination description : String)
  | selfRelationship (element : String)
  | parentChildRelationship (parent child : String)
  | illegalNesting (parent child : ElementKind)
  | missingParent (kind : ElementKind)
  | illegalViewElement (view element : String) (kind : ElementKind)
  | invalidViewScope (view element : String) (kind : ElementKind)
  | unsupportedProperty (kind : ElementKind) (property : String)
  | missingViewScope (view : String)
  | missingEnvironment
  | viewScopeElement (element : String)
  | missingRelationship (source destination : String)
  | duplicateViewKey (key : String)
  | invalidViewKey (key : String)
  | duplicatePerspective (name : String)
  | perspectiveWithoutName
  | perspectiveWithoutDescription (name : String)
  | propertyWithoutName
  | propertyWithoutValue (name : String)
  | invalidUrl (url : String)
  | unknownElement (index : Nat)
  | unknownRelationship (index : Nat)
  | unknownView (key : String)
  | duplicateDecision (id : String)
  | unknownDecision (id target : String)
  | decisionWithoutId
  | unsupportedViewOperation (view operation : String)
deriving DecidableEq, Repr

def ModelError.message : ModelError → String
  | .duplicateElement kind name => s!"a {kind.name} named `{name}` already exists"
  | .duplicateInstance container element =>
    s!"`{container}` already contains an instance of `{element}`"
  | .duplicateRelationship source destination description =>
    s!"a relationship with the description `{description}` between `{source}` and `{destination}` already exists"
  | .selfRelationship element => s!"relationships from `{element}` to itself are not permitted"
  | .parentChildRelationship parent child =>
    s!"relationships cannot be added between parents and children (`{parent}` contains `{child}`)"
  | .illegalNesting parent child => s!"a {child.name} cannot be placed inside a {parent.name}"
  | .missingParent kind => s!"a {kind.name} must be declared inside its parent"
  | .illegalViewElement view element kind =>
    s!"`{element}` ({kind.name}) cannot be added to the {view} view"
  | .invalidViewScope view element kind =>
    s!"a {view} view cannot be scoped to `{element}` ({kind.name})"
  | .unsupportedProperty kind property => s!"a {kind.name} does not support `{property}`"
  | .missingViewScope view => s!"a {view} view must be scoped to an element"
  | .missingEnvironment => "a deployment view must name a deployment environment"
  | .viewScopeElement element =>
    s!"`{element}` is the scope of this view and cannot be added to it"
  | .missingRelationship source destination =>
    s!"a relationship between `{source}` and `{destination}` does not exist in the model"
  | .duplicateViewKey key => s!"a view with the key `{key}` already exists"
  | .invalidViewKey key =>
    s!"view key `{key}` may only contain letters, digits, underscores and hyphens"
  | .duplicatePerspective name => s!"a perspective named `{name}` already exists"
  | .perspectiveWithoutName => "a perspective name must be specified"
  | .perspectiveWithoutDescription name =>
    s!"a description for perspective `{name}` must be specified"
  | .propertyWithoutName => "a property name must be specified"
  | .propertyWithoutValue name => s!"a value for property `{name}` must be specified"
  | .invalidUrl url => s!"`{url}` is not a valid URL"
  | .unknownElement index => s!"no element with id {index}"
  | .unknownRelationship index => s!"no relationship with id {index}"
  | .unknownView key => s!"no view with the key `{key}`"
  | .duplicateDecision id => s!"a decision with the id `{id}` already exists"
  | .unknownDecision id target => s!"decision `{id}` links to `{target}`, which does not exist"
  | .decisionWithoutId => "a decision must have an id"
  | .unsupportedViewOperation view operation =>
    s!"`{operation}` is not supported by the {view} view"

end Edifice
