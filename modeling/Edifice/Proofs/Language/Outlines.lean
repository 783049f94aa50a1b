import Edifice.Proofs.Builder.Authorship
import Edifice.Proofs.Language.Lines

/-!
Outlines.

What stands around a declaration can be told from the lines before it alone: every line that
ends with a brace opens a block, every brace by itself closes the innermost one, and the
first words of a line say what it declares.  An outline is what can be read off lines in
this way (`Outline.after`), without names being looked up and without a workspace, and
`Outline.Mirrors` says what it tells about a model: where its elements are, and from where
its relationships lead.
-/

namespace Edifice.Language

/-! ### What is around a declaration -/

/-- An open block, as the line shows it that has opened it. -/
inductive Enclosure where
  | workspace
  | model
  /-- The properties of the model. -/
  | settings
  | group (name : String)
  | environment (name : String)
  /-- The body of the element before which the model has `count` others. -/
  | element (count : Nat)
  /-- A block in which nothing of the model is declared. -/
  | other
deriving DecidableEq, Repr

namespace Enclosure

def element? : Enclosure → Option Nat
  | .element count => some count
  | _ => none

def environment? : Enclosure → Option String
  | .environment name => some name
  | _ => none

end Enclosure

/-- The names of the groups from the innermost block outwards, up to the first block that is
no group; the outermost comes first. -/
def groupsAround : List Enclosure → List String
  | .group name :: around => groupsAround around ++ [name]
  | _ => []

structure Site where
  /-- The open blocks, innermost first. -/
  around : List Enclosure := []
  /-- The separator of group names that the model has there. -/
  separator : Option String := none
deriving DecidableEq, Repr

namespace Site

def element? (site : Site) : Option Nat :=
  site.around.findSome? Enclosure.element?

def environment? (site : Site) : Option String :=
  site.around.findSome? Enclosure.environment?

/-- The groups around, joined, if the innermost block is one. -/
def group? (site : Site) : Option String :=
  match groupsAround site.around with
  | [] => none
  | names => some ((site.separator.getD "").intercalate names)

def inside (site : Site) (block : Enclosure) : Site :=
  { site with around := block :: site.around }

end Site

/-! ### What lines declare -/

/-- The statement without the identifier that it is assigned to. -/
def Statement.declaration (st : Statement) : Statement :=
  if st.tokens.isAt 1 assignment then st.drop 2 else st

/-- What a statement declares where the model is described. -/
inductive Form where
  /-- A relationship; `outgoing` says that its source is left out. -/
  | relationship (outgoing : Bool)
  | element (kind : ElementKind) (name : String)
  | environment (name : String)
  | group (name : String)
  | other
deriving DecidableEq, Repr

def Statement.form (st : Statement) : Form :=
  let ts := st.declaration.tokens
  if ts.isAt 0 arrow || ts.isAt 1 arrow then .relationship (ts.isAt 0 arrow)
  else if let some kind := ElementKind.ofKeyword? (ts.text 0) then .element kind (ts.text 1)
  else if ts.text 0 = "deploymentEnvironment" then .environment (ts.text 1)
  else if ts.text 0 = "group" then .group (ts.text 1)
  else .other

/-- An element that a statement declares. -/
structure Declaration where
  kind : ElementKind
  name : String
  site : Site
deriving DecidableEq, Repr

/-- What lines declare, and what is open after them. -/
structure Outline where
  /-- How many elements the model had before. -/
  first : Nat := 0
  /-- The place after the lines. -/
  site : Site := {}
  elements : List Declaration := []
  /-- For each relationship the place it is declared in, if its source is left out. -/
  sources : List (Option Site) := []
deriving DecidableEq, Repr

namespace Outline

def set (o : Outline) (name value : String) : Outline :=
  if name = groupSeparatorProperty then
    { o with site := { o.site with separator := (some value).filter (· != "") } }
  else o

/-- The outline after a declaration, and the block that its body is. -/
def declare (o : Outline) : Form → Outline × Enclosure
  | .relationship outgoing =>
    ({ o with sources := o.sources ++ [if outgoing then some o.site else none] }, .other)
  | .element kind name =>
    ({ o with elements := o.elements ++ [{ kind, name, site := o.site }] },
      .element (o.first + o.elements.length))
  | .environment name => (o, .environment name)
  | .group name => (o, .group name)
  | .other => (o, if o.site.around.head? = some .model then .settings else .other)

/-- The outline after a statement, and the block that the statement may open. -/
def state (o : Outline) (st : Statement) : Outline × Enclosure :=
  match o.site.around with
  | [] => (o, .workspace)
  | .workspace :: _ => (o, if st.keyword = "model" then .model else .other)
  | .settings :: _ => (o.set (st.tokens.text 0) (st.tokens.text 1), .other)
  | .other :: _ => (o, .other)
  | _ => o.declare st.form

def inside (o : Outline) (block : Enclosure) : Outline :=
  { o with site := o.site.inside block }

def outside (o : Outline) : Outline :=
  { o with site := { o.site with around := o.site.around.tail } }

def after (o : Outline) (ts : Tokens) : Outline :=
  if closesBlock ts then o.outside
  else if isDirective ts then o
  else
    let st := Statement.ofTokens ts
    let (o, block) := o.state st
    if st.opensBlock then o.inside block else o

/-- The outline of lines that add to a model. -/
def of (m : Model) (lines : List Tokens) : Outline :=
  lines.foldl after
    { first := m.elements.length, site := { separator := m.groupSeparator? } }

end Outline

/-! ### What an outline tells -/

/-- `holder` is the nearest element around the place; none is where there is no element. -/
def Site.Within (site : Site) (elements : List Element) (holder : Option ElementId) : Prop :=
  Option.Rel (fun count id => elements[count]?.map (·.id) = some id) site.element? holder

/-- The element is what is declared, in the place where it is declared. -/
structure Declaration.Describes (d : Declaration) (elements : List Element) (e : Element) :
    Prop where
  kind : e.kind = d.kind
  /-- Instances go by the name of what they deploy. -/
  name : d.kind.isInstance = false → e.name = d.name
  parent : d.site.Within elements e.parent
  environment : e.environment = d.site.environment?
  group : e.group = d.site.group?

/-- The relationship leads from the nearest element around, if its source is left out. -/
def LeadsFrom (elements : List Element) (place : Option Site) (r : Relationship) : Prop :=
  ∀ site, place = some site → site.Within elements (some r.source)

/-- What lines with the outline have made of the model `before`. -/
structure Outline.Mirrors (o : Outline) (before m : Model) : Prop where
  /-- The new elements are those declared, in their order. -/
  elements : List.Forall₂ (fun d e => d.Describes m.elements e) o.elements
    (m.elements.drop before.elements.length)
  /-- The new relationships of the author are those declared, in their order. -/
  relationships : List.Forall₂ (LeadsFrom m.elements) o.sources
    (m.authored.drop before.authored.length)
  separator : m.groupSeparator? = o.site.separator

/-! ### Places -/

variable {site : Site} {elements : List Element} {holder : Option ElementId}

/-- Elements stay the nearest ones around while the model grows. -/
theorem Site.Within.append (within : site.Within elements holder) (more : List Element) :
    site.Within (elements ++ more) holder := by
  unfold Within at within ⊢
  generalize site.element? = nearest at within ⊢
  cases within with
  | none => exact .none
  | @some count id found =>
    obtain ⟨e, at_count, own⟩ := Option.map_eq_some_iff.mp found
    have inside : count < elements.length := (List.getElem?_eq_some_iff.mp at_count).1
    refine .some ?_
    rw [List.getElem?_append_left inside]
    exact found

/-- Only the ids of elements matter to what is around. -/
theorem Site.within_map_core :
    site.Within (elements.map Element.core) holder ↔ site.Within elements holder := by
  have same : ∀ count : Nat, (elements.map Element.core)[count]?.map (·.id) =
      elements[count]?.map (·.id) := by
    intro count
    rw [List.getElem?_map, Option.map_map]
    rfl
  unfold Within
  simp only [same]

theorem Declaration.Describes.append {d : Declaration} {e : Element}
    (describes : d.Describes elements e) (more : List Element) :
    d.Describes (elements ++ more) e :=
  { describes with parent := describes.parent.append more }

theorem Declaration.describes_core {d : Declaration} {e : Element} :
    d.Describes (elements.map Element.core) e.core ↔ d.Describes elements e := by
  constructor <;> rintro ⟨kind, name, parent, environment, group⟩
  · exact ⟨kind, name, Site.within_map_core.mp parent, environment, group⟩
  · exact ⟨kind, name, Site.within_map_core.mpr parent, environment, group⟩

/-- A group has its own name, after that of the group around it and the separator. -/
theorem Site.group?_group (own : String) (around : List Enclosure) (separator : Option String) :
    Site.group? ⟨.group own :: around, separator⟩ =
      some (match Site.group? ⟨around, separator⟩ with
        | some outer => outer ++ separator.getD "" ++ own
        | none => own) := by
  have names : Site.group? ⟨.group own :: around, separator⟩ =
      some ((separator.getD "").intercalate (groupsAround around ++ [own])) := by
    simp only [Site.group?, groupsAround]
    cases groupsAround around <;> rfl
  rw [names]
  cases outer : groupsAround around with
  | nil => simp [Site.group?, outer]
  | cons name rest =>
    rw [String.intercalate_append_of_ne_nil (List.cons_ne_nil _ _) (List.cons_ne_nil _ _)]
    simp [Site.group?, outer]

end Edifice.Language
