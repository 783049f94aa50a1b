import Edifice.Identifier.Basic
import Edifice.Model.Basic

/-!
What the identifiers of a workspace stand for.

A scope is the list of the elements around a place, innermost first, so the scopes
around a scope are its tails and the empty list is the scope of the whole workspace.
With flat identifiers everything is bound in that one scope.  A name is looked up
outwards from a scope (`resolveOutward`), and with hierarchical identifiers a path is
followed inwards from the scope of the workspace (`follow`).
-/

namespace Edifice

/-- The elements around a place, innermost first. -/
abbrev Scope := List ElementId

/-- What an identifier stands for. -/
inductive Binding where
  | element (id : ElementId)
  | relationship (id : RelationshipId)
deriving DecidableEq, Repr

inductive RegistryError where
  | duplicate (name : String)
  | invalid (name : String)
deriving DecidableEq, Repr

def RegistryError.message : RegistryError → String
  | .duplicate name => s!"the identifier `{name}` is already in use"
  | .invalid name =>
    s!"`{name}` is not a valid identifier, only letters, digits, `_` and `-` are permitted"

/-- A name bound in a scope. -/
structure RegistryEntry where
  scope : Scope
  name : String
  binding : Binding
deriving DecidableEq, Repr

/-- The identifiers bound so far, the latest first. -/
structure Registry where
  mode : IdentifierMode := .flat
  entries : List RegistryEntry := []
deriving DecidableEq, Repr

namespace Registry

/-- What a name is bound to in a scope itself. -/
def bound? (r : Registry) (scope : Scope) (name : String) : Option Binding :=
  (r.entries.find? fun e => e.scope == scope && e.name == name).map (·.binding)

/-- What a name is bound to in a scope or, failing that, in the nearest one around it. -/
def resolveOutward (r : Registry) (name : String) : Scope → Option Binding
  | [] => r.bound? [] name
  | e :: outer => (r.bound? (e :: outer) name).or (resolveOutward r name outer)

/-- What a path leads to from a scope: each segment but the last names an element, inside
which the path goes on. -/
def follow (r : Registry) : Scope → List String → Option Binding
  | _, [] => none
  | scope, [name] => r.bound? scope name
  | scope, name :: rest =>
    match r.bound? scope name with
    | some (.element e) => follow r (e :: scope) rest
    | _ => none

/-- What a name or path stands for in a scope. -/
def resolve (r : Registry) (name : String) (scope : Scope) : Option Binding :=
  match r.resolveOutward name scope with
  | some b => some b
  | none =>
    if r.mode = .hierarchical && Identifier.isPath name then
      r.follow [] (Identifier.segments name)
    else none

/-- Changes the mode, which is possible only until a name is bound; afterwards only the
present mode is accepted. -/
def setMode? (r : Registry) (mode : IdentifierMode) : Option Registry :=
  if r.entries.isEmpty then some { r with mode }
  else if r.mode = mode then some r
  else none

/-- The scope of the declarations inside an element that is declared in `outer`. -/
def scopeOf (r : Registry) (element : ElementId) (outer : Scope) : Scope :=
  match r.mode with
  | .flat => []
  | .hierarchical => element :: outer

def bind (r : Registry) (name : String) (binding : Binding) (scope : Scope) : Registry :=
  { r with entries := { scope, name, binding } :: r.entries }

/-- Binds a name that its author chose; it must be free in the scope and around it. -/
def register (r : Registry) (name : String) (binding : Binding) (scope : Scope) :
    Except RegistryError Registry :=
  if !Identifier.isValid name then .error (.invalid name)
  else if (r.resolveOutward name scope).isSome then .error (.duplicate name)
  else .ok (r.bind name binding scope)

/-- Binds the name of something left unnamed. -/
def registerAnonymous (r : Registry) (index : Nat) (binding : Binding) (scope : Scope) :
    Registry :=
  r.bind (Identifier.anonymous index) binding scope

/-- Binds a name known from outside the source in the scope of the workspace. -/
def registerExternal (r : Registry) (name : String) (binding : Binding) :
    Except RegistryError Registry :=
  if name = "" || (r.bound? [] name).isSome then .error (.duplicate name)
  else .ok (r.bind name binding [])

end Registry

end Edifice
