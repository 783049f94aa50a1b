import Edifice.Proofs.Builder.Calls
import Mathlib.Control.Monad.Basic

/-!
A refused call changes nothing.

A change is `Clean` in a state when its refusal there leaves the state as it was, and
`Total` when it is not refused there at all.  An operation is clean because its questions
come first and what follows them is total; where several writes follow each other, or a
loop of them, the later ones are total because the earlier ones keep what they need, which
for a view is that its key is taken (`HasView`).
-/

namespace Edifice

namespace Change

variable {σ τ α β : Type} {s : σ}

/-- A refusal of the change leaves the state as it was. -/
def Clean (c : Change σ α) (s : σ) : Prop :=
  ∀ e s', c s = .error e s' → s' = s

def Total (c : Change σ α) (s : σ) : Prop :=
  ∀ e s', c s ≠ .error e s'

theorem Total.clean {c : Change σ α} (total : c.Total s) : c.Clean s :=
  fun e s' refused => absurd refused (total e s')

theorem Total.modify {f : σ → σ} : (modify f : Change σ Unit).Total s :=
  fun _ _ => modify_ne_error

theorem Total.modifyGet {f : σ → α × σ} : (modifyGet f : Change σ α).Total s :=
  fun _ _ => modifyGet_ne_error

theorem Total.pure {a : α} : (pure a : Change σ α).Total s :=
  fun _ _ => pure_ne_error

/-- Changes that cannot fail one after the other cannot fail together. -/
theorem Total.bind {x : Change σ α} {f : α → Change σ β} (first : x.Total s)
    (then_ : ∀ a s', x s = .ok a s' → (f a).Total s') : (x >>= f).Total s := by
  intro e s' refused
  rcases bind_eq_error.mp refused with refused | ⟨a, t, done, refused⟩
  · exact first e s' refused
  · exact then_ a t done e s' refused

/-- What is answered by a question is known in what follows it. -/
theorem Total.ask_bind {question : σ → Except ModelError α} {f : α → Change σ β} {a : α}
    (answer : question s = .ok a) (then_ : (f a).Total s) : (ask question >>= f).Total s := by
  refine Total.bind (fun e s' refused => ?_) fun a' s' done => ?_
  · simp [answer] at refused
  · obtain ⟨answer', rfl⟩ := ask_eq_ok.mp done
    obtain rfl : a = a' := by simpa [answer] using answer'
    exact then_

/-- A loop whose steps keep what they need is not refused, and keeps it. -/
theorem Total.forM {I : σ → Prop} {f : α → Change σ PUnit}
    (step : ∀ a s, I s → (f a).Total s ∧ ∀ s', f a s = .ok ⟨⟩ s' → I s') :
    ∀ (l : List α) {s : σ}, I s → (l.forM f).Total s
  | [], _, _ => Total.pure
  | a :: l, s, kept =>
      Total.bind (step a s kept).1 fun _ s' done =>
        Total.forM step l ((step a s kept).2 s' done)

/-- What follows a question is clean where the question is answered. -/
theorem Clean.ask_bind {question : σ → Except ModelError α} {f : α → Change σ β}
    (then_ : ∀ a, question s = .ok a → (f a).Clean s) : (Change.ask question >>= f).Clean s := by
  intro e s' refused
  rcases bind_eq_error.mp refused with refused | ⟨a, t, done, later⟩
  · exact (ask_eq_error.mp refused).2
  · obtain ⟨answer, rfl⟩ := ask_eq_ok.mp done
    exact then_ a answer e s' later

/-- After a clean change only what is total may follow. -/
theorem Clean.bind_total {x : Change σ α} {f : α → Change σ β} (first : x.Clean s)
    (then_ : ∀ a s', x s = .ok a s' → (f a).Total s') : (x >>= f).Clean s := by
  intro e s' refused
  rcases bind_eq_error.mp refused with refused | ⟨a, t, done, refused⟩
  · exact first e s' refused
  · exact absurd refused (then_ a t done e s')

/-- A clean change of a part is clean for the whole, if putting the part back changes
nothing. -/
theorem Clean.within {part : σ → τ} {put : τ → σ → σ} {c : Change τ α}
    (clean : c.Clean (part s)) (back : put (part s) s = s) : (within part put c).Clean s := by
  intro e s' refused
  obtain ⟨t, inside, rfl⟩ := within_eq_error.mp refused
  rw [clean e t inside, back]

end Change

open Change

namespace Item

variable {item : Item}

theorem clean_setUrl (url : String) : (setUrl url).Clean item :=
  Clean.ask_bind fun _ _ => Total.modify.clean

theorem clean_addProperty (name value : String) : (addProperty name value).Clean item :=
  Clean.ask_bind fun _ _ => Total.modify.clean

theorem clean_addPerspective (p : Perspective) : (addPerspective p).Clean item :=
  Clean.ask_bind fun _ _ => Total.modify.clean

end Item

namespace Builder

variable {b : Builder}

/-! ### Elements, relationships and decisions -/

/-- Putting an element that is found back in its place changes nothing. -/
theorem putElement_found {m : Model} {id : ElementId} {e : Element}
    (found : m.element? id = some e) : m.putElement e = m := by
  obtain rfl := (Model.element?_eq_some found).2
  simp [Model.putElement, putKeyed_found found]

/-- Putting a relationship that is found back in its place changes nothing. -/
theorem putRelationship_found {m : Model} {id : RelationshipId} {r : Relationship}
    (found : m.relationship? id = some r) : m.putRelationship r = m := by
  obtain rfl := (Model.relationship?_eq_some found).2
  simp [Model.putRelationship, putKeyed_found found]

theorem clean_insertElement (draft : Element) : (insertElement draft).Clean b :=
  Clean.ask_bind fun _ _ => Total.modifyGet.clean

theorem clean_addInfrastructureNode (node : ElementId) (name : String) :
    (addInfrastructureNode node name).Clean b :=
  Clean.ask_bind fun _ _ => clean_insertElement _

/-- The instance is declared by a clean change, and copying relationships onto it is never
refused. -/
theorem clean_addInstance (node of : ElementId) : (addInstance node of).Clean b :=
  Clean.ask_bind fun draft _ =>
    Clean.bind_total (clean_insertElement draft) fun _ _ _ =>
      Total.modify.bind fun _ _ _ => Total.pure

theorem clean_addRelationship (source destination : ElementId)
    (description technology : String) :
    (addRelationship source destination description technology).Clean b :=
  Clean.ask_bind fun _ _ => Total.clean <|
    Total.modifyGet.bind fun _ _ _ => Total.modify.bind fun _ _ _ => Total.pure

theorem clean_addDecisions (element : Option ElementId) (batch : List Decision) :
    (addDecisions element batch).Clean b :=
  Clean.ask_bind fun _ _ => Clean.ask_bind fun _ _ => Clean.ask_bind fun _ _ =>
    Total.modify.clean

theorem clean_onElement (id : ElementId) {c : Change Element Unit} (clean : ∀ e, c.Clean e) :
    (onElement id c).Clean b := by
  refine Clean.ask_bind fun e found => Clean.within (clean e) ?_
  show { b with model := b.model.putElement e } = b
  rw [putElement_found (element_eq_ok.mp found)]

theorem clean_onRelationship (id : RelationshipId) {c : Change Relationship Unit}
    (clean : ∀ r, c.Clean r) : (onRelationship id c).Clean b := by
  refine Clean.ask_bind fun r found => Clean.within (clean r) ?_
  show { b with model := b.model.putRelationship r } = b
  rw [putRelationship_found (relationship_eq_ok.mp found)]

theorem clean_onItem (ref : ItemRef) {c : Change Item Unit} (clean : ∀ item, c.Clean item) :
    (onItem ref c).Clean b := by
  cases ref with
  | element id => exact clean_onElement id fun e => Clean.within (clean e.item) rfl
  | relationship id => exact clean_onRelationship id fun r => Clean.within (clean r.item) rfl

/-! ### Views -/

def HasView (key : String) (b : Builder) : Prop :=
  ∃ v, b.view key = .ok v

/-- A view is found under a key exactly if it stands first there. -/
theorem view_eq_ok_iff {key : String} {v : View} :
    b.view key = .ok v ↔ b.views.entries.find? (fun e => e.1 == key) = some (key, v) := by
  rw [view_eq_ok, ViewSet.view?, Option.map_eq_some_iff]
  constructor
  · rintro ⟨⟨own, w⟩, found, rfl⟩
    obtain rfl : own = key := by simpa using List.find?_some found
    exact found
  · exact fun found => ⟨_, found, rfl⟩

/-- There is a view with a key exactly if the key is listed. -/
theorem hasView_iff {key : String} : b.HasView key ↔ key ∈ b.views.keys := by
  unfold HasView
  simp only [view_eq_ok_iff]
  constructor
  · rintro ⟨v, found⟩
    exact List.mem_map_of_mem (f := Prod.fst) (List.mem_of_find?_eq_some found)
  · intro listed
    obtain ⟨⟨own, v⟩, member, rfl⟩ := List.mem_map.mp listed
    have some_found : (b.views.entries.find? fun e => e.1 == own).isSome :=
      List.find?_isSome.mpr ⟨(own, v), member, beq_self_eq_true own⟩
    obtain ⟨⟨own', w⟩, found⟩ := Option.isSome_iff_exists.mp some_found
    obtain rfl : own' = own := by simpa using List.find?_some found
    exact ⟨w, found⟩

/-- A view that is put under a key takes no other key away. -/
theorem HasView.putView {key : String} (has : b.HasView key) (other : String) (v : View) :
    (b.putView other v).HasView key := by
  rw [hasView_iff] at has ⊢
  show key ∈ (putKeyed Prod.fst (other, v) b.views.entries).map Prod.fst
  rw [map_key_putKeyed]
  split
  · exact has
  · exact List.mem_append_left _ has

/-- Putting a view that is found back in its place changes nothing. -/
theorem putView_found {key : String} {v : View} (found : b.view key = .ok v) :
    b.putView key v = b := by
  have same : putKeyed Prod.fst (key, v) b.views.entries = b.views.entries :=
    putKeyed_found (view_eq_ok_iff.mp found)
  simp [putView, ViewSet.put, same]

/-- What is asked about a view is answered only where there is one. -/
theorem hasView_of_bind {α : Type} {key : String} {f : View → Except ModelError α} {a : α}
    (answer : (b.view key >>= f) = .ok a) : b.HasView key := by
  cases found : b.view key with
  | ok v => exact ⟨v, found⟩
  | error e => simp [found, bind, Except.bind] at answer

theorem editView_eq {α : Type} {key : String} {f : View → α × View} {v : View}
    (found : b.view key = .ok v) :
    editView key f b = .ok (f v).1 (b.putView key (f v).2) := by
  refine ask_bind_eq_ok.mpr ⟨v, found, ?_⟩
  refine bind_eq_ok.mpr ⟨(), b.putView key (f v).2, modify_eq_ok.mpr rfl, ?_⟩
  exact pure_eq_ok.mpr ⟨rfl, rfl⟩

theorem clean_editView {α : Type} (key : String) (f : View → α × View) :
    (editView key f).Clean b :=
  Clean.ask_bind fun _ _ => Total.clean <| Total.modify.bind fun _ _ _ => Total.pure

/-- Where there is a view, it is changed, and there is one still. -/
theorem editView_keeps {α : Type} {key : String} (f : View → α × View) (has : b.HasView key) :
    (editView key f).Total b ∧ ∀ a b', editView key f b = .ok a b' → b'.HasView key := by
  obtain ⟨v, found⟩ := has
  refine ⟨fun e b' refused => ?_, fun a b' done => ?_⟩
  · simp [editView_eq found] at refused
  · obtain ⟨-, rfl⟩ : (f v).1 = a ∧ b.putView key (f v).2 = b' := by
      simpa [editView_eq found] using done
    exact HasView.putView ⟨v, found⟩ key _

/-- Where there is a view, an element is shown in it, and there is one still. -/
theorem insertViewElement_keeps {key : String} (id : ElementId) (withLines : Bool)
    (has : b.HasView key) :
    (insertViewElement key id withLines).Total b ∧
      ∀ a b', insertViewElement key id withLines b = .ok a b' → b'.HasView key := by
  obtain ⟨v, found⟩ := has
  unfold insertViewElement
  refine ⟨Total.ask_bind found ?_, fun a b' done => ?_⟩
  · refine Total.bind (fun _ _ => get_ne_error) fun c b' asked => ?_
    obtain ⟨rfl, rfl⟩ := get_eq_ok.mp asked
    split
    · exact Total.pure
    · exact (editView_keeps _ ⟨v, found⟩).1
  · obtain ⟨v', -, ran⟩ := ask_bind_eq_ok.mp done
    simp only [bind_eq_ok, get_eq_ok] at ran
    obtain ⟨c, _, ⟨rfl, rfl⟩, done⟩ := ran
    split at done
    · obtain ⟨-, rfl⟩ := pure_eq_ok.mp done
      exact ⟨v, found⟩
    · exact (editView_keeps _ ⟨v, found⟩).2 a b' done

/-- To insert what has been accepted cannot fail, so that nothing has to be undone. -/
theorem insertAccepted_keeps {key : String} (id : ElementId) (has : b.HasView key) :
    (insertAccepted key id).Total b ∧
      ∀ a b', insertAccepted key id b = .ok a b' → b'.HasView key := by
  unfold insertAccepted
  refine ⟨Total.bind (fun _ _ => get_ne_error) fun c b' asked => ?_, fun a b' done => ?_⟩
  · obtain ⟨rfl, rfl⟩ := get_eq_ok.mp asked
    split
    · exact (insertViewElement_keeps id true has).1
    · exact Total.pure
  · simp only [bind_eq_ok, get_eq_ok] at done
    obtain ⟨c, _, ⟨rfl, rfl⟩, done⟩ := done
    split at done
    · exact (insertViewElement_keeps id true has).2 a b' done
    · obtain ⟨-, rfl⟩ := pure_eq_ok.mp done
      exact has

/-- All that can fail about a new view comes before its key is counted. -/
theorem clean_addView (kind : ViewKind) (key : Option String) (scope : Option ElementId)
    (environment : Option String) : (addView kind key scope environment).Clean b := by
  have clean_chooseKey : (chooseKey kind key).Clean b := by
    cases key with
    | none => exact Total.modifyGet.clean
    | some key => exact Clean.ask_bind fun _ _ => Total.pure.clean
  exact Clean.ask_bind fun _ _ => clean_chooseKey.bind_total fun _ _ _ =>
    Total.modify.bind fun _ _ _ => Total.pure

theorem clean_addViewProperty (key name value : String) :
    (addViewProperty key name value).Clean b :=
  Clean.ask_bind fun _ _ => clean_editView key _

theorem clean_includeElement (key : String) (id : ElementId) :
    (includeElement key id).Clean b :=
  Clean.ask_bind fun _ accepted =>
    (insertViewElement_keeps id true (hasView_of_bind accepted)).1.clean

theorem clean_excludeElement (key : String) (id : ElementId) :
    (excludeElement key id).Clean b :=
  Clean.ask_bind fun _ _ => clean_editView key _

/-- Both ends are shown before the line is: none of the three writes is refused, since the
view that was found at first is there until the last. -/
theorem clean_includeRelationship (key : String) (id : RelationshipId) :
    (includeRelationship key id).Clean b := by
  refine Clean.ask_bind fun r accepted => Total.clean ?_
  have has : b.HasView key := hasView_of_bind accepted
  refine Total.bind (insertViewElement_keeps _ _ has).1 fun _ b₁ source => ?_
  have has₁ := (insertViewElement_keeps _ _ has).2 _ b₁ source
  refine Total.bind (insertViewElement_keeps _ _ has₁).1 fun _ b₂ destination => ?_
  have has₂ := (insertViewElement_keeps _ _ has₁).2 _ b₂ destination
  exact (editView_keeps _ has₂).1

theorem clean_excludeRelationship (key : String) (id : RelationshipId) :
    (excludeRelationship key id).Clean b :=
  Clean.ask_bind fun _ _ => clean_editView key _

/-- The loop over the default elements is never refused: what it needs, the view, is kept
by every step. -/
theorem clean_includeDefault (key : String) : (includeDefault key).Clean b := by
  refine Clean.ask_bind fun ids found => Total.clean ?_
  refine Total.forM (I := HasView key) (fun id b has => ?_) ids (hasView_of_bind found)
  exact ⟨(insertAccepted_keeps id has).1, fun b' => (insertAccepted_keeps id has).2 _ b'⟩

theorem clean_addInteraction (key : String) (source destination : Participant)
    (description technology : String) (order : Option String) :
    (addInteraction key source destination description technology order).Clean b :=
  Clean.ask_bind fun _ _ => Clean.ask_bind fun _ _ => clean_editView key _

theorem clean_addRelationshipLine (key : String) (id : RelationshipId) (description : String)
    (order : Option String) : (addRelationshipLine key id description order).Clean b :=
  Clean.ask_bind fun _ _ => Clean.ask_bind fun _ _ => clean_editView key _

theorem clean_startParallel (key : String) : (startParallel key).Clean b :=
  Clean.ask_bind fun _ _ => clean_editView key _

theorem clean_endParallel (key : String) : (endParallel key).Clean b :=
  Clean.ask_bind fun _ _ => clean_editView key _

/-- A parallel block that is not open is not closed: the step numbers stay as they are. -/
theorem endParallel_eq_false {key : String} {b' : Builder}
    (none_open : endParallel key b = .ok false b') : b' = b := by
  obtain ⟨v, dynamic, closed⟩ := ask_bind_eq_ok.mp none_open
  obtain ⟨w, found⟩ : b.HasView key := hasView_of_bind dynamic
  obtain ⟨not_closed, rfl⟩ : w.endParallel.1 = false ∧ b.putView key w.endParallel.2 = b' := by
    simpa [editView_eq found] using closed
  have kept : w.steps.endParallel.2 = w.steps := by
    unfold View.endParallel StepCounter.endParallel at not_closed
    unfold StepCounter.endParallel
    split at not_closed <;> simp_all
  show b.putView key { w with steps := w.steps.endParallel.2 } = b
  rw [kept]
  exact putView_found found

theorem clean_addTheme (url : String) : (addTheme url).Clean b :=
  Clean.ask_bind fun _ _ => Total.modify.clean

/-! ### All calls -/

/-- Every call is clean: its checks come before its first write, call by call. -/
theorem Call.clean (c : Call) : c.perform.Clean b := by
  cases c with
  | setName | setDescription | setImpliedRelationships | setScope | setVisibility | addUser
  | updateElementStyle | updateRelationshipStyle => exact Total.modify.clean
  | addWorkspaceProperty | addModelProperty | addViewsProperty =>
    exact Clean.ask_bind fun _ _ => Total.modify.clean
  | addPerson | addSoftwareSystem | addContainer | addComponent | addCustomElement
  | addDeploymentNode => exact clean_insertElement _
  | addInfrastructureNode node name => exact clean_addInfrastructureNode node name
  | addInstance node of => exact clean_addInstance node of
  | setElementDescription id => exact clean_onElement id fun _ => Total.modify.clean
  | setElementTechnology id | setInstances id =>
    exact clean_onElement id fun _ => Clean.ask_bind fun _ _ => Total.modify.clean
  | addTags ref => exact clean_onItem ref fun _ => Total.modify.clean
  | setUrl ref url => exact clean_onItem ref fun _ => Item.clean_setUrl url
  | addProperty ref name value => exact clean_onItem ref fun _ => Item.clean_addProperty name value
  | addPerspective ref p => exact clean_onItem ref fun _ => Item.clean_addPerspective p
  | addRelationship => exact clean_addRelationship _ _ _ _
  | addDecisions element batch => exact clean_addDecisions element batch
  | addView => exact clean_addView _ _ _ _
  | setViewTitle key | setViewDescription key | setAutoLayout key => exact clean_editView key _
  | addViewProperty key name value => exact clean_addViewProperty key name value
  | includeElement key id => exact clean_includeElement key id
  | excludeElement key id => exact clean_excludeElement key id
  | includeRelationship key id => exact clean_includeRelationship key id
  | excludeRelationship key id => exact clean_excludeRelationship key id
  | includeDefault key => exact clean_includeDefault key
  | addInteraction => exact clean_addInteraction _ _ _ _ _ _
  | addRelationshipLine => exact clean_addRelationshipLine _ _ _ _
  | startParallel key => exact clean_startParallel key
  | endParallel key => exact clean_endParallel key
  | addTheme url => exact clean_addTheme url

/-- What holds before a call, and after it where it succeeds, holds after it in any case. -/
theorem Call.holds_after (c : Call) {P : Builder → Prop} (before : P b)
    (succeeded : ∀ a b', c.perform b = .ok a b' → P b') : P (c.perform.after b) := by
  cases ran : c.perform b with
  | ok a b' =>
    rw [after_of_ok ran]
    exact succeeded a b' ran
  | error e b' =>
    rw [after_of_error ran, c.clean e b' ran]
    exact before

/-- **A refused call changes nothing**: neither the model with its tables nor the counter,
the views, the decisions or anything else of the builder.  Nor does closing a parallel
block where none is open. -/
theorem refused_call_changes_nothing :
    (∀ (b : Builder) (c : Call) (e : ModelError) (b' : Builder),
      c.perform b = .error e b' → b' = b) ∧
    ∀ (b : Builder) (key : String) (b' : Builder),
      endParallel key b = .ok false b' → b' = b :=
  ⟨fun _ c => c.clean, fun _ _ _ => endParallel_eq_false⟩

/-- The second instance of the web application on the server is refused, and so is closing a
block of the view, where none is open. -/
theorem refusals_of_shop :
    (Call.addInstance ⟨8⟩ ⟨2⟩).perform shop =
        .error (.duplicateInstance "Server" "Web") shop ∧
      endParallel "Steps" shop = .ok false shop := by
  have refused := answer_eq_error.mp (show (Call.addInstance ⟨8⟩ ⟨2⟩).perform.answer shop =
    .error (.duplicateInstance "Server" "Web") by decide +kernel)
  have none_open := answer_eq_ok.mp (show (endParallel "Steps").answer shop = .ok false by
    decide +kernel)
  obtain ⟨unchanged, unchanged'⟩ := refused_call_changes_nothing
  constructor
  · rwa [unchanged shop _ _ _ refused] at refused
  · rwa [unchanged' shop _ _ none_open] at none_open

end Builder

end Edifice
