import Edifice.Builder.Basic
import Edifice.Text.Decimal
import Edifice.View.Contents
import Edifice.View.Interaction

/-!
Declaring views, filling them, and styling what they show.

A view has a key of its own.  Where the author gives none, the key is generated from the
kind of the view and a number: the numbers of a kind go up, and those whose keys are
taken are passed over (`freshNumber`).
-/

namespace Edifice

/-! ### Keys -/

/-- The generated key with a number, of at least three digits. -/
def generatedKey (stem : String) (n : Nat) : String :=
  stem ++ "-" ++ Text.padded 3 n

/-- The first number from `n` on, among the next `limit`, whose key is not taken; the
number after them if all are. -/
def freshNumber (taken : List String) (stem : String) : Nat → Nat → Nat
  | 0, n => n
  | limit + 1, n =>
    if taken.contains (generatedKey stem n) then freshNumber taken stem limit (n + 1) else n

/-- Checks the scope that a view of a kind is to have. -/
def Model.checkViewScope (m : Model) (kind : ViewKind) : Option ElementId →
    Except ModelError Unit
  | none => if kind.requiresScope then .error (.missingViewScope kind.keyword) else .ok ()
  | some id =>
    match m.element? id with
    | none => .error (.unknownElement id.index)
    | some e =>
      if kind.acceptsScope e.kind then .ok ()
      else .error (.invalidViewScope kind.keyword e.name e.kind)

namespace Builder

/-- A key for a view of a kind, and the builder that remembers its number. -/
def generateKey (b : Builder) (kind : ViewKind) : String × Builder :=
  let stem := kind.keyStem
  let taken := b.views.keys
  let n := freshNumber taken stem taken.length ((b.generatedKeys.get? stem).getD 0 + 1)
  (generatedKey stem n, { b with generatedKeys := b.generatedKeys.insert stem n })

/-- Checks a key that the author chose for a new view: it must be valid and free. -/
def checkKey (b : Builder) (key : String) : Except ModelError Unit :=
  if !isViewKey key then .error (.invalidViewKey key)
  else if (b.views.view? key).isSome then .error (.duplicateViewKey key)
  else .ok ()

/-- The key of a new view: the chosen one, or else a generated one. -/
def chooseKey (kind : ViewKind) : Option String → Change Builder String
  | none => modifyGet (·.generateKey kind)
  | some key => do
    Change.ask (·.checkKey key)
    return key

/-- Checks what a view of a kind is to be about. -/
def checkViewSubject (b : Builder) (kind : ViewKind) (scope : Option ElementId)
    (environment : Option String) : Except ModelError Unit := do
  b.model.checkViewScope kind scope
  if kind = .deployment ∧ environment = none then throw .missingEnvironment

def putView (b : Builder) (key : String) (v : View) : Builder :=
  { b with views := b.views.put key v }

/-- Declares a view and answers its key. -/
def addView (kind : ViewKind) (key : Option String) (scope : Option ElementId)
    (environment : Option String) : Change Builder String := do
  Change.ask (·.checkViewSubject kind scope environment)
  let key ← chooseKey kind key
  modify fun b => b.putView key { key, kind, scope, environment }
  return key

/-! ### Changing a view -/

def view (b : Builder) (key : String) : Except ModelError View :=
  match b.views.view? key with
  | some v => .ok v
  | none => .error (.unknownView key)

theorem view_eq_ok {b : Builder} {key : String} {v : View} :
    b.view key = .ok v ↔ b.views.view? key = some v := by
  unfold view
  cases b.views.view? key <;> simp

/-- Changes the view with a key, and answers what the change does. -/
def editView {α : Type} (key : String) (f : View → α × View) : Change Builder α := do
  let v ← Change.ask (·.view key)
  modify (·.putView key (f v).2)
  return (f v).1

def updateView (key : String) (f : View → View) : Change Builder Unit :=
  editView key fun v => ((), f v)

def setViewTitle (key title : String) : Change Builder Unit :=
  updateView key fun v => { v with title := some title }

def setViewDescription (key text : String) : Change Builder Unit :=
  updateView key fun v => { v with description := some text }

def setAutoLayout (key : String) (layout : AutoLayout) : Change Builder Unit :=
  updateView key fun v => { v with autoLayout := some layout }

def addViewProperty (key name value : String) : Change Builder Unit := do
  Change.ask fun _ => checkProperty name value
  updateView key fun v => { v with properties := v.properties.insert name value }

/-! ### The contents of a view -/

def checkViewElement (b : Builder) (key : String) (id : ElementId) : Except ModelError Unit := do
  let v ← b.view key
  v.check b.model id

def canInclude (b : Builder) (key : String) (id : ElementId) : Bool :=
  (b.checkViewElement key id).isOk

/-- Shows an element with all that appears with it, as far as it is not shown yet. -/
def insertViewElement (key : String) (id : ElementId) (withLines : Bool) :
    Change Builder Unit := do
  let v ← Change.ask (·.view key)
  let b ← get
  if (v.newElements b.model id).isEmpty then return ()
  else updateView key fun v => v.withElement b.model id withLines

def includeElement (key : String) (id : ElementId) : Change Builder Unit := do
  Change.ask (·.checkViewElement key id)
  insertViewElement key id true

def excludeElement (key : String) (id : ElementId) : Change Builder Unit := do
  let _ ← Change.ask (·.element id)
  updateView key (·.excludeElement id)

/-- Finds a relationship that a static view may show. -/
def checkViewRelationship (b : Builder) (key : String) (id : RelationshipId) :
    Except ModelError Relationship := do
  let v ← b.view key
  if !v.kind.isStatic then throw (.unsupportedViewOperation v.key "include")
  let r ← b.relationship id
  v.check b.model r.source
  v.check b.model r.destination
  return r

def includeRelationship (key : String) (id : RelationshipId) : Change Builder Unit := do
  let r ← Change.ask (·.checkViewRelationship key id)
  insertViewElement key r.source false
  insertViewElement key r.destination false
  updateView key (·.withRelationship r)

def excludeRelationship (key : String) (id : RelationshipId) : Change Builder Unit := do
  let _ ← Change.ask (·.relationship id)
  updateView key (·.excludeRelationship id)

/-- The elements that `*` stands for in a view that is not dynamic. -/
def defaultElements (b : Builder) (key : String) : Except ModelError (List ElementId) := do
  let v ← b.view key
  if v.kind = .dynamic then throw (.unsupportedViewOperation v.key "include *")
  return v.defaultElements b.model

/-- Shows an element if the view accepts it. -/
def insertAccepted (key : String) (id : ElementId) : Change Builder Unit := do
  let b ← get
  if b.canInclude key id then insertViewElement key id true else return ()

/-- Shows what `*` stands for, as far as the view accepts it. -/
def includeDefault (key : String) : Change Builder Unit := do
  let ids ← Change.ask (·.defaultElements key)
  ids.forM (insertAccepted key)

/-! ### Dynamic views -/

/-- The dynamic view with a key, which alone can show interactions. -/
def dynamicView (b : Builder) (key : String) : Except ModelError View := do
  let v ← b.view key
  if v.kind ≠ .dynamic then throw (.unsupportedViewOperation v.key "interaction")
  return v

def addInteraction (key : String) (source destination : Participant)
    (description technology : String) (order : Option String) : Change Builder Unit := do
  let v ← Change.ask (·.dynamicView key)
  let l ← Change.ask fun b =>
    v.checkInteraction b.model source destination description technology
  updateView key (·.appendLine l order)

/-- Finds the line of a relationship that a dynamic view may show. -/
def checkRelationshipLine (b : Builder) (v : View) (id : RelationshipId)
    (description : String) : Except ModelError ViewLine := do
  let r ← b.relationship id
  v.check b.model r.source
  v.check b.model r.destination
  return { ViewLine.ofRelationship r with description }

/-- Adds a relationship of the model under a description of its own. -/
def addRelationshipLine (key : String) (id : RelationshipId) (description : String)
    (order : Option String) : Change Builder Unit := do
  let v ← Change.ask (·.dynamicView key)
  let l ← Change.ask (·.checkRelationshipLine v id description)
  updateView key (·.appendLine l order)

def startParallel (key : String) : Change Builder Unit := do
  let _ ← Change.ask (·.dynamicView key)
  updateView key View.startParallel

/-- Closes the innermost parallel block and says whether there was one. -/
def endParallel (key : String) : Change Builder Bool := do
  let _ ← Change.ask (·.dynamicView key)
  editView key View.endParallel

/-! ### Styles and themes -/

def updateElementStyle (b : Builder) (tag : String) (f : ElementStyle → ElementStyle) :
    Builder :=
  { b with views := { b.views with styles := b.views.styles.updateElement tag f } }

def updateRelationshipStyle (b : Builder) (tag : String)
    (f : RelationshipStyle → RelationshipStyle) : Builder :=
  { b with views := { b.views with styles := b.views.styles.updateRelationship tag f } }

def checkTheme (url : String) : Except ModelError Unit :=
  if Url.isValid url then .ok () else .error (.invalidUrl url)

/-- Adds a theme by its URL; a theme is listed once. -/
def addTheme (url : String) : Change Builder Unit := do
  Change.ask fun _ => checkTheme url
  modify fun b => { b with views := { b.views with themes := insertLast url b.views.themes } }

end Builder

end Edifice
