import Edifice.Proofs.Builder.Relationships
import Edifice.Proofs.Language.Courses

/-!
Reading a source is a run of the builder.

Whatever a line says, it changes the workspace by calls of the builder alone
(`Acts.leads`), so the workspace after a reading is one that calls lead to from the one
before it, and what holds of every reachable builder holds of every workspace that is read.
-/

namespace Edifice.Language

open Check
open Builder (Leads)

namespace Session

variable {s s' : Session} {identifier : Option Token} {setting : Setting}

/-- A declaration is a run of calls. -/
theorem Enacts.leads {answer : Option Block × Session} (enacts : s.Enacts identifier answer) :
    Leads s.builder answer.2.builder := by
  cases enacts with
  | silent silent => exact silent.quiet.run.leads
  | opens quiet => exact quiet.run.leads
  | @setting name value _ _ here set =>
    obtain ⟨b, ran, rfl⟩ := build_eq_ok.mp set
    exact .of_ok (.addModelProperty name value) ran
  | environment named =>
    rw [same_nameEnvironment _ _ _ named]
    exact .refl
  | @relationship source destination description technology span id s₁ s₂ s' added tagged bound =>
    have declared : Leads s.builder s₁.builder := by
      obtain ⟨b, ran, rfl⟩ := buildWith_eq_ok.mp added
      exact .of_ok (.addRelationship source destination description technology) ran
    rw [same_bindRelationship _ _ _ bound]
    exact declared.trans tagged.run.leads
  | element here entered described bound =>
    obtain ⟨c, a, ran, -⟩ := entered.call
    rw [same_bindElement _ _ _ bound]
    exact (Leads.of_ok c ran).trans described.run.leads

/-- A line is a run of calls. -/
theorem Acts.leads (acts : s.Acts identifier s') : Leads s.builder s'.builder := by
  cases acts with
  | closes _ _ run => exact run.leads
  | quiet quiet => exact quiet.run.leads
  | chooses => exact .refl
  | stays enacts => exact enacts.leads
  | opens _ _ enacts => exact enacts.leads

theorem Course.leads (course : s.Course setting s') : Leads s.builder s'.builder := by
  induction course with
  | refl => exact .refl
  | tail _ step ih =>
    obtain ⟨ts, advances⟩ := step
    exact ih.trans advances.acts.leads

end Session

variable {s : Session}

/-- The workspace that a reading answers is one that calls lead to from the one it began
with. -/
theorem leads_interpret (setting : Setting) (name : Option String) (source : String) :
    Gives (interpret setting s name source) fun parsed =>
      ∃ b, Leads s.builder b ∧ parsed.workspace = b.finish := by
  intro parsed read
  obtain ⟨s', course, same⟩ := course_interpret name source parsed read
  exact ⟨s'.builder, course.leads, same⟩

theorem reachable_start (options : Options) : (Session.start options).builder.Reachable :=
  ⟨"Workspace", "", .call .refl (.setImpliedRelationships options.impliedRelationships)⟩

/-- The workspace that a reading answers is that of a reachable builder. -/
theorem reachable_interpret (setting : Setting) (reachable : s.builder.Reachable)
    (name : Option String) (source : String) :
    Gives (interpret setting s name source) fun parsed =>
      ∃ b : Builder, b.Reachable ∧ parsed.workspace = b.finish := by
  intro parsed read
  obtain ⟨b, run, same⟩ := leads_interpret setting name source parsed read
  exact ⟨b, reachable.leads run, same⟩

/-- **Every relationship leads between elements that may be related, and no two are
alike**, in every reachable builder, and so in every workspace that is read, on top of a
reachable builder or from the start. -/
theorem relationships_of_every_model :
    (∀ b : Builder, b.Reachable → b.model.Related ∧ b.model.Distinct) ∧
      (∀ setting (s : Session) name source parsed, s.builder.Reachable →
        interpret setting s name source = .ok parsed →
          parsed.workspace.model.Related ∧ parsed.workspace.model.Distinct) ∧
      ∀ setting name source parsed, parse setting name source = .ok parsed →
        parsed.workspace.model.Related ∧ parsed.workspace.model.Distinct := by
  have built : ∀ b : Builder, b.Reachable → b.model.Related ∧ b.model.Distinct :=
    fun b reachable => ⟨reachable.grown.related, reachable.grown.distinct⟩
  have interpreted : ∀ setting (s : Session) name source parsed, s.builder.Reachable →
      interpret setting s name source = .ok parsed →
        parsed.workspace.model.Related ∧ parsed.workspace.model.Distinct := by
    intro setting s name source parsed reachable read
    obtain ⟨b, reachable', same⟩ := reachable_interpret setting reachable name source parsed read
    rw [same]
    exact built b reachable'
  exact ⟨built, interpreted, fun setting name source parsed =>
    interpreted setting _ name source parsed (reachable_start setting.options)⟩

def shopSource : String :=
  "workspace \x7b\n model \x7b\n  shop = softwareSystem Shop \x7b\n" ++
    "   web = container Web\n  \x7d\n  customer = person Customer\n" ++
    "  customer -> web Uses\n \x7d\n\x7d\n"

/-- The customer is related to the web application, and by implication to the shop. -/
theorem relationships_of_shop :
    (Builder.shop.model.Related ∧ Builder.shop.model.Distinct) ∧
      ∃ parsed, parse {} none shopSource = .ok parsed ∧
        parsed.workspace.model.relationships.length = 2 ∧ parsed.workspace.model.Related ∧
          parsed.workspace.model.Distinct := by
  obtain ⟨built, -, read⟩ := relationships_of_every_model
  refine ⟨built _ Builder.reachable_shop, ?_⟩
  have two : (parse {} none shopSource).toOption.map
      (·.workspace.model.relationships.length) = some 2 := by decide +kernel
  obtain ⟨parsed, answer, two⟩ := Check.toOption_map_eq_some.mp two
  exact ⟨parsed, answer, two, read _ _ _ _ answer⟩

end Edifice.Language
