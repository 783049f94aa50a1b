import Edifice.Proofs.Builder.Properties
import Edifice.Proofs.Language.Declarations
import Edifice.Proofs.Language.Readings

/-!
Properties in workspaces that are read.

The lines of a `properties` block go to the workspace, the model, the views, or one element,
relationship, view or style.  All of these but the styles ask for a name and a value, so that
every property of a workspace that is read has both (`filled_interpret`); into a style every
line is entered, whatever it says (`properties_checked_outside_styles`).
-/

namespace Edifice

open Change Check

/-! ### Styles under their tags -/

/-- The value of a tag is found changed where all values of the tag are changed; one that is
not there yet has been entered for it. -/
theorem Styles.find?_update {α : Type} {tagOf : α → String} {f : α → α}
    (own : ∀ a, tagOf (f a) = tagOf a) (fresh : α) (l : List α) :
    (if l.any (tagOf · == tagOf fresh) then
        l.map fun a => if tagOf a == tagOf fresh then f a else a
      else l ++ [f fresh]).find? (tagOf · == tagOf fresh) =
      some (f ((l.find? (tagOf · == tagOf fresh)).getD fresh)) := by
  generalize tagged : tagOf fresh = tag
  have same : ∀ a, tagOf (if tagOf a == tag then f a else a) = tagOf a := by
    intro a
    split
    · exact own a
    · rfl
  cases found : l.find? (tagOf · == tag) with
  | none =>
    have unstyled : l.any (tagOf · == tag) = false := by simpa using found
    simp [unstyled, found, own, tagged]
  | some a =>
    have here : tagOf a = tag := by simpa using List.find?_some found
    have styled : l.any (tagOf · == tag) = true :=
      List.any_eq_true.mpr ⟨a, List.mem_of_find?_eq_some found, beq_iff_eq.mpr here⟩
    simp only [styled, if_true, List.find?_map, Function.comp_def, same, found]
    simp [here]

theorem Styles.element?_updateElement (s : Styles) (tag : String)
    {f : ElementStyle → ElementStyle} (own : ∀ e, (f e).tag = e.tag) :
    (s.updateElement tag f).element? tag = some (f ((s.element? tag).getD { tag })) := by
  unfold updateElement element?
  rw [apply_ite elements]
  exact find?_update own { tag } s.elements

theorem Styles.relationship?_updateRelationship (s : Styles) (tag : String)
    {f : RelationshipStyle → RelationshipStyle} (own : ∀ r, (f r).tag = r.tag) :
    (s.updateRelationship tag f).relationship? tag =
      some (f ((s.relationship? tag).getD { tag })) := by
  unfold updateRelationship relationship?
  rw [apply_ite relationships]
  exact find?_update own { tag } s.relationships

namespace Language

variable {s : Session} {b b' : Builder} {target : PropertyTarget} {name value : String}

namespace PropertyTarget

/-- Whether a property needs a name and a value to be entered. -/
def checks : PropertyTarget → Bool
  | .elementStyle _ | .relationshipStyle _ => false
  | _ => true

/-- The properties that the lines of the block go to. -/
def properties? (w : Workspace) : PropertyTarget → Option (Dictionary String)
  | .workspace => some w.properties
  | .model => some w.model.properties
  | .item (.element id) => (w.model.element? id).map (·.item.properties)
  | .item (.relationship id) => (w.model.relationship? id).map (·.item.properties)
  | .view key => (w.views.view? key).map (·.properties)
  | .views => some w.views.properties
  | .elementStyle tag => (w.views.styles.element? tag).map (·.properties)
  | .relationshipStyle tag => (w.views.styles.relationship? tag).map (·.properties)

end PropertyTarget

/-! ### Lines of a block -/

theorem element?_putElement (m : Model) (e : Element) :
    (m.putElement e).element? e.id = some e :=
  (find?_putKeyed e m.elements e.id).trans (if_pos rfl)

theorem relationship?_putRelationship (m : Model) (r : Relationship) :
    (m.putRelationship r).relationship? r.id = some r :=
  (find?_putKeyed r m.relationships r.id).trans (if_pos rfl)

/-- A line that is taken has passed the check, if there is one, and is entered. -/
theorem entered_of_addPropertyTo (done : addPropertyTo target name value b = .ok () b') :
    (target.checks → checkProperty name value = .ok ()) ∧
      target.properties? b'.toWorkspace =
        some (((target.properties? b.toWorkspace).getD {}).insert name value) := by
  cases target with
  | workspace | model | views =>
    obtain ⟨checked, rfl⟩ := ask_modify_eq_ok.mp done
    exact ⟨fun _ => checked, rfl⟩
  | item ref =>
    cases ref with
    | element id =>
      obtain ⟨e, _, found, inside, rfl⟩ := Builder.onElement_eq_ok.mp done
      obtain ⟨item, added, rfl⟩ := within_eq_ok.mp inside
      obtain ⟨checked, rfl⟩ := ask_modify_eq_ok.mp added
      obtain ⟨-, rfl⟩ := Model.element?_eq_some found
      refine ⟨fun _ => checked, ?_⟩
      simp only [PropertyTarget.properties?, found]
      exact congrArg (Option.map (·.item.properties)) (element?_putElement b.model _)
    | relationship id =>
      obtain ⟨r, _, found, inside, rfl⟩ := Builder.onRelationship_eq_ok.mp done
      obtain ⟨item, added, rfl⟩ := within_eq_ok.mp inside
      obtain ⟨checked, rfl⟩ := ask_modify_eq_ok.mp added
      obtain ⟨-, rfl⟩ := Model.relationship?_eq_some found
      refine ⟨fun _ => checked, ?_⟩
      simp only [PropertyTarget.properties?, found]
      exact congrArg (Option.map (·.item.properties)) (relationship?_putRelationship b.model _)
  | view key =>
    obtain ⟨_, checked, ran⟩ := Change.ask_bind_eq_ok.mp done
    obtain ⟨v, found, -, rfl⟩ := Builder.editView_eq_ok.mp ran
    refine ⟨fun _ => checked, ?_⟩
    have put := Builder.view_putView_self b key
      { v with properties := v.properties.insert name value }
    simp only [PropertyTarget.properties?, Builder.view_eq_ok.mp found,
      Builder.view_eq_ok.mp put, Option.map_some, Option.getD_some]
  | elementStyle tag =>
    obtain rfl := modify_eq_ok.mp done
    refine ⟨fun checked => absurd checked Bool.false_ne_true, ?_⟩
    have styled := b.views.styles.element?_updateElement tag (f := (·.addProperty name value))
      fun _ => rfl
    show ((b.views.styles.updateElement tag _).element? tag).map _ = _
    rw [styled, PropertyTarget.properties?]
    cases b.views.styles.element? tag <;> rfl
  | relationshipStyle tag =>
    obtain rfl := modify_eq_ok.mp done
    refine ⟨fun checked => absurd checked Bool.false_ne_true, ?_⟩
    have styled := b.views.styles.relationship?_updateRelationship tag
      (f := (·.addProperty name value)) fun _ => rfl
    show ((b.views.styles.updateRelationship tag _).relationship? tag).map _ = _
    rw [styled, PropertyTarget.properties?]
    cases b.views.styles.relationship? tag <;> rfl

/-- A line that passes the check, if there is one, is taken. -/
theorem exists_addPropertyTo (known : ∀ x ∈ target.referents, b.Has x)
    (passes : target.checks → checkProperty name value = .ok ()) :
    ∃ b', addPropertyTo target name value b = .ok () b' := by
  cases target with
  | workspace | model | views => exact ⟨_, ask_modify_eq_ok.mpr ⟨passes rfl, rfl⟩⟩
  | item ref =>
    have added : ∀ item, ∃ item', Item.addProperty name value item = .ok () item' :=
      fun item => ⟨_, ask_modify_eq_ok.mpr ⟨passes rfl, rfl⟩⟩
    cases ref with
    | element id =>
      have declared := known _ (List.mem_singleton_self _)
      obtain ⟨e, found⟩ := Option.isSome_iff_exists.mp (Model.declares_iff.mp declared)
      obtain ⟨item, added⟩ := added e.item
      have written : Change.within (·.item) (fun item e => { e with item })
          (Item.addProperty name value) e = .ok () { e with item } :=
        within_eq_ok.mpr ⟨item, added, rfl⟩
      exact ⟨_, Builder.onElement_eq_ok.mpr ⟨e, _, found, written, rfl⟩⟩
    | relationship id =>
      obtain ⟨r, member, own⟩ := known _ (List.mem_singleton_self _)
      have related : (b.model.relationship? id).isSome :=
        List.find?_isSome.mpr ⟨r, member, beq_iff_eq.mpr own⟩
      obtain ⟨r, found⟩ := Option.isSome_iff_exists.mp related
      obtain ⟨item, added⟩ := added r.item
      have written : Change.within (·.item) (fun item r => { r with item })
          (Item.addProperty name value) r = .ok () { r with item } :=
        within_eq_ok.mpr ⟨item, added, rfl⟩
      exact ⟨_, Builder.onRelationship_eq_ok.mpr ⟨r, _, found, written, rfl⟩⟩
  | view key =>
    obtain ⟨v, found⟩ := known _ (List.mem_singleton_self _)
    have asked : Change.ask (fun _ => checkProperty name value) b = .ok () b :=
      ask_eq_ok.mpr ⟨passes rfl, rfl⟩
    exact ⟨_, Change.bind_eq_ok.mpr ⟨(), b, asked, Builder.editView_eq found⟩⟩
  | elementStyle | relationshipStyle => exact ⟨_, modify_eq_ok.mpr rfl⟩

/-- A line with a name and a value does what the change of the builder does. -/
theorem executeProperty_eq_ok {st : Statement} (two : st.tokens.length = 2) {s' : Session} :
    executeProperty s target st = .ok (none, s') ↔
      ∃ b, addPropertyTo target (st.tokens.text 0) (st.tokens.text 1) s.builder = .ok () b ∧
        s' = s.withBuilder b := by
  have counted : checkTokens st.tokens 1 1 "<name> <value>" = .ok () := by
    simp [checkTokens, two]
  simp only [executeProperty, counted, ok_bind, Check.bind_eq_ok, Session.done, Session.build_eq_ok,
    Except.ok.injEq, Prod.mk.injEq, true_and]
  constructor
  · rintro ⟨_, built, rfl⟩
    exact built
  · intro built
    exact ⟨s', built, rfl⟩

/-! ### Every reading -/

/-- What is read on top of a prepared session has a name and a value for every property, but
for the properties of styles. -/
theorem filled_interpret (prepared : s.Prepared) {setting : Setting} {file : Option String}
    {source : String} {parsed : Parsed} (read : interpret setting s file source = .ok parsed) :
    parsed.workspace.Filled := by
  have coherent := prepared.coherent
  obtain ⟨b, run, same⟩ := leadsMatching_interpret coherent setting file source read
  rw [same]
  exact (coherent.reachable.leads run.leads).filled

/-- **Properties are checked alike, but for those of styles.**  In every workspace that is
parsed, all properties of the workspace, the model, the views, and of each view, element and
relationship have a name and a value.  A line of two tokens is taken by a block exactly if
neither is empty or the block is that of a style, which checks nothing; what is taken is
entered into the properties that the block is about. -/
theorem properties_checked_outside_styles (setting : Setting) (file : Option String)
    (source : String) :
    (∀ parsed, parse setting file source = .ok parsed → parsed.workspace.Filled) ∧
    ∀ (s : Session) (target : PropertyTarget) (st : Statement), s.Coherent →
      s.frames.block? = some (.properties target) → st.tokens.length = 2 →
        ((∃ s', executeProperty s target st = .ok (none, s')) ↔
          (target.checks → st.tokens.text 0 ≠ "" ∧ st.tokens.text 1 ≠ "")) ∧
        ∀ s', executeProperty s target st = .ok (none, s') →
          target.properties? s'.builder.toWorkspace =
            some (((target.properties? s.builder.toWorkspace).getD {}).insert
              (st.tokens.text 0) (st.tokens.text 1)) := by
  refine ⟨fun parsed read => filled_interpret (.start setting.options) read, ?_⟩
  intro s target st coherent here two
  simp only [executeProperty_eq_ok two, ← checkProperty_eq_ok]
  refine ⟨⟨?_, ?_⟩, ?_⟩
  · rintro ⟨_, b, done, rfl⟩
    exact (entered_of_addPropertyTo done).1
  · intro passes
    obtain ⟨b, done⟩ := exists_addPropertyTo (coherent.here here) passes
    exact ⟨_, b, done, rfl⟩
  · rintro _ ⟨b, done, rfl⟩
    exact (entered_of_addPropertyTo done).2

/-- A workspace with an owner, and a style for what is tagged as a shop, whose property has
no value. -/
def teamlessSource : String :=
  "workspace \x7b\n properties \x7b\n  owner Ops\n \x7d\n views \x7b\n  styles \x7b\n" ++
    "   element Shop \x7b\n    properties \x7b\n     team \"\"\n    \x7d\n   \x7d\n" ++
    "  \x7d\n \x7d\n\x7d\n"

/-- The source is accepted, with the property of the style as it is written. -/
theorem parse_teamless : ∃ parsed, parse {} none teamlessSource = .ok parsed ∧
    parsed.workspace.properties.entries = [("owner", "Ops")] ∧
      parsed.workspace.views.styles.elements.map (·.properties.entries) = [[("team", "")]] := by
  have read : (parse {} none teamlessSource).toOption.map (fun parsed =>
      (parsed.workspace.properties.entries,
        parsed.workspace.views.styles.elements.map (·.properties.entries))) =
      some ([("owner", "Ops")], [[("team", "")]]) := by decide +kernel
  obtain ⟨parsed, answer, same⟩ := toOption_map_eq_some.mp read
  exact ⟨parsed, answer, Prod.mk.inj same⟩

def teamLine : Statement :=
  { tokens := [⟨"team", .between 0 4, false⟩, ⟨"", .between 5 7, true⟩], opensBlock := false }

def inProperties (target : PropertyTarget) : Session :=
  (Session.start {}).openBlock (.properties target) 1 (.point 0)

/-- The workspace that is parsed has filled properties.  The line without a value is entered
into the style, and is not taken in the block of the workspace. -/
theorem properties_of_teamless :
    (∃ parsed, parse {} none teamlessSource = .ok parsed ∧
      parsed.workspace.properties.entries = [("owner", "Ops")] ∧ parsed.workspace.Filled) ∧
    (∃ s', executeProperty (inProperties (.elementStyle "Shop")) (.elementStyle "Shop") teamLine =
        .ok (none, s') ∧
      (PropertyTarget.elementStyle "Shop").properties? s'.builder.toWorkspace =
        some ⟨[("team", "")]⟩) ∧
    ¬ ∃ s', executeProperty (inProperties .workspace) .workspace teamLine = .ok (none, s') := by
  have coherent : ∀ target : PropertyTarget, target.referents = [] →
      (inProperties target).Coherent := by
    intro target free
    have has : ∀ x ∈ target.referents, (Session.start {}).builder.Has x := by
      rw [free]
      exact List.forall_mem_nil _
    have can : (Session.start {}).CanOpen (.properties target) := ⟨has, trivial⟩
    exact (Session.Prepared.start {}).coherent.openBlock can 1 (.point 0)
  obtain ⟨filled, lines⟩ := properties_checked_outside_styles {} none teamlessSource
  refine ⟨?_, ?_, ?_⟩
  · obtain ⟨parsed, answer, owned, -⟩ := parse_teamless
    exact ⟨parsed, answer, owned, filled parsed answer⟩
  · obtain ⟨taken, entered⟩ := lines (inProperties (.elementStyle "Shop")) (.elementStyle "Shop")
      teamLine (coherent _ rfl) rfl rfl
    obtain ⟨s', done⟩ := taken.mpr fun checked => absurd checked Bool.false_ne_true
    exact ⟨s', done, entered s' done⟩
  · obtain ⟨taken, -⟩ :=
      lines (inProperties .workspace) .workspace teamLine (coherent _ rfl) rfl rfl
    intro done
    exact (taken.mp done rfl).2 rfl

/-- What is said of the other properties does not hold of those of styles. -/
theorem style_properties_unchecked :
    ¬ ∀ setting file source parsed, parse setting file source = .ok parsed →
      parsed.workspace.Filled ∧
        (∀ e ∈ parsed.workspace.views.styles.elements, e.properties.Filled) ∧
          ∀ r ∈ parsed.workspace.views.styles.relationships, r.properties.Filled := by
  intro all
  obtain ⟨parsed, answer, -, listed⟩ := parse_teamless
  have member : [("team", "")] ∈
      parsed.workspace.views.styles.elements.map (·.properties.entries) :=
    listed ▸ List.mem_singleton_self _
  obtain ⟨style, styled, entries⟩ := List.mem_map.mp member
  have filled := (all {} none teamlessSource parsed answer).2.1 style styled
  exact (filled ("team", "") (entries ▸ List.mem_singleton_self _)).2 rfl

end Language

end Edifice
