import Edifice.Proofs.Builder.Selections
import Edifice.Proofs.View.Choices
import Edifice.Proofs.View.Gathering

/-!
Including elements.

A selection that stands for elements offers them to the view one after the other, so what it
does to the view is a loop over a list (`includeSelection_of_accepted`), and a selection that
names an element the view does not accept does nothing (`includeSelection_of_refused`).  With
what a selection stands for (`Selection.Chooses`) and what a loop of offers brings
(`View.Widens`), this says exactly what is shown afterwards, and that including the same once
more changes nothing (`inclusion_is_exact`).
-/

open Edifice.Change

namespace Edifice

def View.including (m : Model) (v : View) (s : Selection) : View :=
  (s.chosen m v).foldl (View.offer m) v

theorem View.SameSubject.chosen_eq {m : Model} {v v' : View} (same : v.SameSubject v')
    (s : Selection) : s.chosen m v' = s.chosen m v := by
  cases s with
  | all => exact same.defaultElements_eq
  | _ => rfl

theorem View.sameSubject_including (m : Model) (v : View) (s : Selection) :
    v.SameSubject (v.including m s) :=
  View.sameSubject_foldl (View.sameSubject_offer m) _ v

/-- What has been included can be included again. -/
theorem View.including_including {m : Model} (nested : m.Nested) (v : View) (s : Selection) :
    (v.including m s).including m s = v.including m s := by
  have chosen : s.chosen m (v.including m s) = s.chosen m v :=
    (v.sameSubject_including m s).chosen_eq s
  rw [View.including, chosen]
  exact View.foldl_offer_twice nested v _

/-- A selection of elements brings in those that it stands for and the view accepts, and what
comes with them. -/
theorem View.widens_including {m : Model} {v : View} {s : Selection} (nested : m.Nested)
    (elements : s.isOfElements) (about : v.kind.requiresScope → v.scope.isSome) :
    v.Widens m (fun x => ∃ id, s.Chooses m v id ∧ v.Offers m id x) (v.including m s) := by
  refine (View.widens_foldl_offer nested v (s.chosen m v)).congr fun x _ => ?_
  simp only [Selection.mem_chosen elements about]

namespace Builder

variable {b b' : Builder} {key : String} {v v' : View} {s : Selection} {id : ElementId}

/-! ### Views that need a scope -/

def Scoped (b : Builder) : Prop :=
  ∀ v ∈ b.views.views, v.kind.requiresScope → v.scope.isSome

/-- A view in the place of one of the same subject keeps all scopes declared. -/
theorem Scoped.putView (given : b.Scoped) (found : b.view key = .ok v)
    (same : v.SameSubject v') : (b.putView key v').Scoped := by
  intro w member
  rcases mem_views_putView member with rfl | member
  · obtain ⟨-, kind, scope, -⟩ := same
    rw [kind, scope]
    exact given v (mem_of_view found)
  · exact given w member

/-- No step on the views loses the scope of one: a new view has been checked for its own. -/
theorem Redraws.scoped (step : Redraws b b') (given : b.Scoped) : b'.Scoped := by
  cases step with
  | kept views =>
    rw [Scoped, ViewSet.views, views]
    exact given
  | declared subject new keys =>
    intro w member needed
    rw [views_declared new keys, List.mem_append, List.mem_singleton] at member
    rcases member with member | rfl
    · exact given w member needed
    · simp only [checkViewSubject, Check.then_eq_ok, Model.checkViewScope_eq_ok] at subject
      rcases subject.1 with ⟨-, free⟩ | ⟨id, _, rfl, -⟩
      · exact absurd needed (Bool.eq_false_iff.mp free)
      · rfl
  | edited found edit => exact given.putView found edit.subject

theorem Redrawn.scoped (run : Redrawn b b') (given : b.Scoped) : b'.Scoped := by
  induction run with
  | refl => exact given
  | tail _ step ih => exact step.scoped ih

theorem Call.scoped (c : Call) (grown : Grown b) (given : b.Scoped) {a : c.Answer}
    (done : c.perform b = .ok a b') : b'.Scoped := by
  rcases c.redrawn grown done with run | ⟨key, v, -, found, rfl⟩
  · exact run.scoped given
  · exact given.putView found ⟨rfl, rfl, rfl, rfl⟩

/-- In a reachable builder every view that needs a scope has one. -/
theorem Reachable.scoped (reachable : Reachable b) : b.Scoped := by
  obtain ⟨name, description, run⟩ := reachable
  induction run with
  | refl => exact List.forall_mem_nil _
  | @call b₁ earlier c ih =>
    have grown₁ : Grown b₁ := Reachable.grown ⟨name, description, earlier⟩
    exact c.holds_after ih fun _ _ => c.scoped grown₁ ih

/-! ### Including selections of elements -/

/-- Including elements where they are accepted is to offer them one by one. -/
theorem forM_includeIfAccepted_eq (found : b.view key = .ok v) (ids : List ElementId) :
    ids.forM (includeIfAccepted key) b =
      .ok () (b.putView key (ids.foldl (View.offer b.model) v)) := by
  refine forM_eq_putView found (View.sameSubject_offer b.model) ?_
  intro id _ b' w model found_w _
  rw [← model]
  exact ifAccepted_eq_putView found_w (includeElement_of_accepted found_w)

/-- Where the view accepts the element that the selection names, if there is one, all that
the selection stands for is offered. -/
theorem includeSelection_of_accepted (found : b.view key = .ok v) (static : v.kind ≠ .dynamic)
    (elements : s.isOfElements)
    (accepted : ∀ id, s.named? = some id → v.check b.model id = .ok ()) :
    includeSelection key s b = .ok () (b.putView key (v.including b.model s)) := by
  refine bind_eq_ok.mpr ⟨b, b, get_eq_ok.mpr ⟨rfl, rfl⟩, ?_⟩
  cases s with
  | all => exact includeDefault_eq found static
  | elementTags | elementType => exact forM_includeIfAccepted_eq found _
  | element id => exact includeElement_of_accepted found (accepted id rfl)
  | coupled id coupling =>
    have first := includeElement_of_accepted found (accepted id rfl)
    let v₁ := v.offer b.model id
    have later := forM_includeIfAccepted_eq (view_putView_self b key v₁)
      (b.model.coupled id coupling)
    rw [putView_putView] at later
    exact bind_eq_ok.mpr ⟨(), _, first, later⟩
  | _ => cases elements

/-- Where the view refuses the element that the selection names, nothing is done. -/
theorem includeSelection_of_refused (found : b.view key = .ok v) (named : s.named? = some id)
    {e : ModelError} (refused : v.check b.model id = .error e) :
    includeSelection key s b = .error e b := by
  have stopped := includeElement_of_refused found refused
  refine bind_eq_error.mpr (.inr ⟨b, b, get_eq_ok.mpr ⟨rfl, rfl⟩, ?_⟩)
  cases s with
  | element =>
    obtain rfl := Option.some.inj named
    exact stopped
  | coupled =>
    obtain rfl := Option.some.inj named
    exact bind_eq_error.mpr (.inl stopped)
  | _ => cases named

/-- **Including elements is exact, and is done once and for all.**  In a static view of a
reachable builder a selection of elements is refused only for the element that it names, with
the reason why the view does not accept it, and then changes nothing.  Else the view shows what
it showed and after it, each once, those of the elements that the selection stands for which
the view accepts and, in a deployment view, all that is around them, as far as they were not
shown, what is around an element before it; and including the same again changes nothing. -/
theorem inclusion_is_exact (reachable : b.Reachable) (found : b.view key = .ok v)
    (static : v.kind ≠ .dynamic) (elements : s.isOfElements) :
    (∀ id e, s.named? = some id → b.checkViewElement key id = .error e →
      includeSelection key s b = .error e b) ∧
    ((∀ id, s.named? = some id → b.checkViewElement key id = .ok ()) →
      ∃ v', includeSelection key s b = .ok () (b.putView key v') ∧
        v.Widens b.model (fun x => ∃ id, s.Chooses b.model v id ∧
          b.checkViewElement key id = .ok () ∧ v.ComesWith b.model id x) v' ∧
        includeSelection key s (b.putView key v') = .ok () (b.putView key v')) := by
  simp only [checkViewElement_of_found found]
  refine ⟨fun id e named refused => includeSelection_of_refused found named refused,
    fun accepted => ?_⟩
  have nested := reachable.grown.nested
  have about := reachable.scoped v (mem_of_view found)
  let w := v.including b.model s
  have same : v.SameSubject w := v.sameSubject_including b.model s
  refine ⟨w, includeSelection_of_accepted found static elements accepted,
    View.widens_including nested elements about, ?_⟩
  have found' := view_putView_self b key w
  have static' : w.kind ≠ .dynamic := same.2.1 ▸ static
  have again : includeSelection key s (b.putView key w) =
      .ok () ((b.putView key w).putView key (w.including b.model s)) :=
    includeSelection_of_accepted found' static' elements fun id named =>
      (same.check_eq id).trans (accepted id named)
  rwa [View.including_including nested, putView_putView] at again

/-- The web application that runs on the server comes into a deployment view after the server,
and with it the store that it reads, once and for all; the customer does not come in. -/
theorem inclusion_of_shop :
    ∃ b v', addView .deployment (some "Places") none (some "Live") shop = .ok "Places" b ∧
      includeSelection "Places" (.coupled ⟨9⟩ .efferent) b = .ok () (b.putView "Places" v') ∧
      v'.elements = [⟨8⟩, ⟨9⟩, ⟨10⟩] ∧
      includeSelection "Places" (.coupled ⟨9⟩ .efferent) (b.putView "Places" v') =
        .ok () (b.putView "Places" v') ∧
      ∃ e, includeSelection "Places" (.element ⟨3⟩) b = .error e b := by
  let declare := addView .deployment (some "Places") none (some "Live")
  let b := declare.after shop
  have declared : declare shop = .ok "Places" b := answer_eq_ok.mp (by decide +kernel)
  have reachable : Reachable b :=
    reachable_shop.leads (.of_ok (.addView .deployment (some "Places") none (some "Live")) declared)
  have found := (hasDrawn_addView declared).found
  have exact_ := fun s => inclusion_is_exact (s := s) reachable found (by decide)
  have accepts : ∀ id, Selection.named? (.coupled ⟨9⟩ .efferent) = some id →
      b.checkViewElement "Places" id = .ok () := by
    rintro id ⟨⟩
    decide +kernel
  obtain ⟨v', included, widens, again⟩ := (exact_ (.coupled ⟨9⟩ .efferent) rfl).2 accepts
  have shown : ((((includeSelection "Places" (.coupled ⟨9⟩ .efferent)).after b).view
      "Places").map (·.elements)).toOption = some [⟨8⟩, ⟨9⟩, ⟨10⟩] := by decide +kernel
  rw [after_of_ok included, view_putView_self] at shown
  have refuses : (b.checkViewElement "Places" ⟨3⟩).toOption = none := by decide +kernel
  cases answer : b.checkViewElement "Places" ⟨3⟩ with
  | ok => cases answer ▸ refuses
  | error e =>
    exact ⟨b, v', declared, included, Option.some.inj shown, again, e,
      (exact_ (.element ⟨3⟩) rfl).1 ⟨3⟩ e rfl answer⟩

end Builder

end Edifice
