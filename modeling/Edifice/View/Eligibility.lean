import Edifice.View.Basic

/-!
Which elements a view accepts.

The rule follows from the kind of the view and from its scope: a view about the inside
of an element never shows that element itself, nor what surrounds it, and a deployment
view keeps to its environment.  The contents of the view play no part.
-/

namespace Edifice

/-- The rule by which a view accepts elements. -/
inductive Eligibility where
  /-- People, software systems and custom elements. -/
  | landscape
  /-- Landscape elements other than `system`, and containers: those of `system` alone
  when `ownOnly` is set. -/
  | containers (system : ElementId) (ownOnly : Bool)
  /-- Elements of a container view other than `container` and its parent, and
  components: those of `container` alone when `ownOnly` is set. -/
  | components (container : ElementId) (ownOnly : Bool)
  /-- Deployment elements of the environment, and of the scope if there is one. -/
  | deployment
  | custom
deriving DecidableEq, Repr

namespace View

/-- The rule that a view follows. -/
def eligibility (m : Model) (v : View) : Eligibility :=
  match v.kind, v.scope.bind m.element? with
  | .container, some s => .containers s.id false
  | .component, some s => .components s.id false
  | .dynamic, some s =>
    if s.kind = .softwareSystem then .containers s.id true else .components s.id true
  | .deployment, _ => .deployment
  | .custom, _ => .custom
  | _, _ => .landscape

/-- Whether a deployment element belongs to the software system `system`: nodes always
do, instances when they deploy it or one of its containers. -/
def deploys (m : Model) (system : ElementId) (e : Element) : Bool :=
  match e.kind with
  | .softwareSystemInstance => e.instanceOf == some system
  | .containerInstance => (e.instanceOf.bind m.parent?) == some system
  | _ => true

/-- Checks that the rule of the view accepts an element of the model. -/
def checkElement (m : Model) (v : View) (e : Element) : Except ModelError Unit :=
  let illegal := Except.error (.illegalViewElement v.key e.name e.kind)
  let isScope := Except.error (.viewScopeElement e.name)
  match v.eligibility m with
  | .landscape => if e.kind.isTopLevel then .ok () else illegal
  | .containers system ownOnly =>
    match e.kind with
    | .person | .customElement => .ok ()
    | .softwareSystem => if e.id = system then isScope else .ok ()
    | .container => if ownOnly && e.parent != some system then illegal else .ok ()
    | _ => illegal
  | .components container ownOnly =>
    match e.kind with
    | .person | .customElement => .ok ()
    | .softwareSystem => if some e.id = m.parent? container then isScope else .ok ()
    | .container => if e.id = container then isScope else .ok ()
    | .component => if ownOnly && e.parent != some container then illegal else .ok ()
    | _ => illegal
  | .deployment =>
    if !e.kind.isDeployment || e.environment != v.environment then illegal
    else
      match v.scope with
      | none => .ok ()
      | some system => if deploys m system e then .ok () else illegal
  | .custom => if e.kind.isCustom then .ok () else illegal

def check (m : Model) (v : View) (id : ElementId) : Except ModelError Unit :=
  match m.element? id with
  | none => .error (.unknownElement id.index)
  | some e => v.checkElement m e

end View

end Edifice
