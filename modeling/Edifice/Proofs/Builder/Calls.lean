import Edifice.Builder.Decisions
import Edifice.Builder.Instances
import Edifice.Builder.Items
import Edifice.Builder.Views

/-!
Runs of the builder.

`Call` is the closed set of operations that change a builder, with all their arguments;
`Call.perform` is the operation.  A run performs calls one after the other and goes on
whether a call succeeds or is refused (`Leads`), and a builder is reachable when a run
leads to it from a workspace without contents.  What holds of every reachable builder is
proved in the other modules from these definitions alone.
-/

namespace Edifice

/-- How a decision is made: without links at first, then linked to others one by one. -/
inductive Decision.Made : Decision → Prop where
  | plain {d : Decision} (unlinked : d.links = []) : Made d
  | linked {d : Decision} (target description : String) (made : Made d) :
      Made (d.addLink target description)

/-- The links that are added one after the other keep a decision made. -/
theorem Decision.Made.foldl_addLink {d : Decision} (links : List (String × String))
    (made : d.Made) : (links.foldl (fun d l => d.addLink l.1 l.2) d).Made := by
  induction links generalizing d with
  | nil => exact made
  | cons l rest ih => exact ih (.linked l.1 l.2 made)

namespace Builder

/-- An operation that changes a builder, with its arguments. -/
inductive Call where
  | setName (name : String)
  | setDescription (description : String)
  | addWorkspaceProperty (name value : String)
  | addModelProperty (name value : String)
  | addViewsProperty (name value : String)
  | setImpliedRelationships (enabled : Bool)
  | setScope (scope : Option WorkspaceScope)
  | setVisibility (visibility : Visibility)
  | addUser (user : User)
  | addPerson (name : String) (group : Option String)
  | addSoftwareSystem (name : String) (group : Option String)
  | addContainer (system : ElementId) (name : String) (group : Option String)
  | addComponent (container : ElementId) (name : String) (group : Option String)
  | addCustomElement (name : String) (metadata group : Option String)
  | addDeploymentNode (environment : String) (parent : Option ElementId) (name : String)
  | addInfrastructureNode (node : ElementId) (name : String)
  | addInstance (node of : ElementId)
  | setElementDescription (id : ElementId) (text : String)
  | setElementTechnology (id : ElementId) (text : String)
  | setInstances (id : ElementId) (text : String)
  | addTags (ref : ItemRef) (text : String)
  | setUrl (ref : ItemRef) (url : String)
  | addProperty (ref : ItemRef) (name value : String)
  | addPerspective (ref : ItemRef) (p : Perspective)
  | addRelationship (source destination : ElementId) (description technology : String)
  | addDecisions (element : Option ElementId) (batch : List Decision)
      (made : ∀ d ∈ batch, d.Made)
  | addView (kind : ViewKind) (key : Option String) (scope : Option ElementId)
      (environment : Option String)
  | setViewTitle (key title : String)
  | setViewDescription (key text : String)
  | setAutoLayout (key : String) (layout : AutoLayout)
  | addViewProperty (key name value : String)
  | includeElement (key : String) (id : ElementId)
  | excludeElement (key : String) (id : ElementId)
  | includeRelationship (key : String) (id : RelationshipId)
  | excludeRelationship (key : String) (id : RelationshipId)
  | includeDefault (key : String)
  | addInteraction (key : String) (source destination : Participant)
      (description technology : String) (order : Option String)
  | addRelationshipLine (key : String) (id : RelationshipId) (description : String)
      (order : Option String)
  | startParallel (key : String)
  | endParallel (key : String)
  | updateElementStyle (tag : String) (f : ElementStyle → ElementStyle)
  | updateRelationshipStyle (tag : String) (f : RelationshipStyle → RelationshipStyle)
  | addTheme (url : String)

namespace Call

abbrev Answer : Call → Type
  | .addPerson .. | .addSoftwareSystem .. | .addContainer .. | .addComponent ..
  | .addCustomElement .. | .addDeploymentNode .. | .addInfrastructureNode ..
  | .addInstance .. => ElementId
  | .addRelationship .. => RelationshipId
  | .addView .. => String
  | .endParallel .. => Bool
  | _ => Unit

def perform : (c : Call) → Change Builder c.Answer
  | .setName name => modify (·.setName name)
  | .setDescription description => modify (·.setDescription description)
  | .addWorkspaceProperty name value => Builder.addWorkspaceProperty name value
  | .addModelProperty name value => Builder.addModelProperty name value
  | .addViewsProperty name value => Builder.addViewsProperty name value
  | .setImpliedRelationships enabled => modify (·.setImpliedRelationships enabled)
  | .setScope scope => modify (·.setScope scope)
  | .setVisibility visibility => modify (·.setVisibility visibility)
  | .addUser user => modify (·.addUser user)
  | .addPerson name group => Builder.addPerson name group
  | .addSoftwareSystem name group => Builder.addSoftwareSystem name group
  | .addContainer system name group => Builder.addContainer system name group
  | .addComponent container name group => Builder.addComponent container name group
  | .addCustomElement name metadata group => Builder.addCustomElement name metadata group
  | .addDeploymentNode environment parent name =>
      Builder.addDeploymentNode environment parent name
  | .addInfrastructureNode node name => Builder.addInfrastructureNode node name
  | .addInstance node of => Builder.addInstance node of
  | .setElementDescription id text => Builder.setElementDescription id text
  | .setElementTechnology id text => Builder.setElementTechnology id text
  | .setInstances id text => Builder.setInstances id text
  | .addTags ref text => Builder.addTags ref text
  | .setUrl ref url => Builder.setUrl ref url
  | .addProperty ref name value => Builder.addProperty ref name value
  | .addPerspective ref p => Builder.addPerspective ref p
  | .addRelationship source destination description technology =>
      Builder.addRelationship source destination description technology
  | .addDecisions element batch _ => Builder.addDecisions element batch
  | .addView kind key scope environment => Builder.addView kind key scope environment
  | .setViewTitle key title => Builder.setViewTitle key title
  | .setViewDescription key text => Builder.setViewDescription key text
  | .setAutoLayout key layout => Builder.setAutoLayout key layout
  | .addViewProperty key name value => Builder.addViewProperty key name value
  | .includeElement key id => Builder.includeElement key id
  | .excludeElement key id => Builder.excludeElement key id
  | .includeRelationship key id => Builder.includeRelationship key id
  | .excludeRelationship key id => Builder.excludeRelationship key id
  | .includeDefault key => Builder.includeDefault key
  | .addInteraction key source destination description technology order =>
      Builder.addInteraction key source destination description technology order
  | .addRelationshipLine key id description order =>
      Builder.addRelationshipLine key id description order
  | .startParallel key => Builder.startParallel key
  | .endParallel key => Builder.endParallel key
  | .updateElementStyle tag f => modify (·.updateElementStyle tag f)
  | .updateRelationshipStyle tag f => modify (·.updateRelationshipStyle tag f)
  | .addTheme url => Builder.addTheme url

end Call

/-- `Leads b b'`: calls performed one after the other, refused or not, lead from `b` to
`b'`. -/
inductive Leads (b : Builder) : Builder → Prop where
  | refl : Leads b b
  | call {b' : Builder} (earlier : Leads b b') (c : Call) : Leads b (c.perform.after b')

theorem Leads.trans {b b' b'' : Builder} (first : Leads b b') (second : Leads b' b'') :
    Leads b b'' := by
  induction second with
  | refl => exact first
  | call _ c ih => exact .call ih c

/-- The builders that runs lead to from a workspace without contents. -/
def Reachable (b : Builder) : Prop :=
  ∃ name description, Leads (new name description) b

theorem Reachable.leads {b b' : Builder} (reachable : Reachable b) (run : Leads b b') :
    Reachable b' := by
  obtain ⟨name, description, earlier⟩ := reachable
  exact ⟨name, description, earlier.trans run⟩

/-- A call that succeeds leads to the builder it leaves behind. -/
theorem Leads.of_ok {b b' : Builder} (c : Call) {a : c.Answer} (run : c.perform b = .ok a b') :
    Leads b b' :=
  Change.after_of_ok run ▸ .call .refl c

/-- Performs calls one after the other, whether they are refused or not. -/
def run (b : Builder) (calls : List Call) : Builder :=
  calls.foldl (fun b c => c.perform.after b) b

/-- What leads from one builder to another is a list of calls. -/
theorem leads_iff {b b' : Builder} : Leads b b' ↔ ∃ calls, b.run calls = b' := by
  constructor
  · intro leads
    induction leads with
    | refl => exact ⟨[], rfl⟩
    | call _ c ih =>
      obtain ⟨calls, rfl⟩ := ih
      exact ⟨calls ++ [c], by simp [run]⟩
  · rintro ⟨calls, rfl⟩
    induction calls generalizing b with
    | nil => exact .refl
    | cons c rest ih => exact Leads.trans (.call .refl c) ih

/-! ### A small workspace -/

/-- A shop with a customer, deployed on one server. -/
def shop : Builder :=
  (new "Shop" "").run [
    .addSoftwareSystem "Shop" none, .addContainer ⟨1⟩ "Web" none, .addPerson "Customer" none,
    .addRelationship ⟨3⟩ ⟨2⟩ "Uses" "", .addContainer ⟨1⟩ "Store" none,
    .addRelationship ⟨2⟩ ⟨6⟩ "Reads" "", .addDeploymentNode "Live" none "Server",
    .addInstance ⟨8⟩ ⟨2⟩, .addInstance ⟨8⟩ ⟨6⟩, .addView .dynamic (some "Steps") none none]

theorem reachable_shop : shop.Reachable :=
  ⟨"Shop", "", leads_iff.mpr ⟨_, rfl⟩⟩

end Builder

end Edifice
