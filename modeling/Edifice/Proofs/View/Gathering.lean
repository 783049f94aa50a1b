import Edifice.Proofs.Builder.Filling
import Edifice.View.Selection

/-!
Elements that come into a view one after the other.

An element comes into a deployment view with the nodes around it, into any other view by
itself (`View.ComesWith`).  So what comes in goes to the end of what is shown, each element
once, and in a deployment view after the nodes around it (`View.Widens`), however many
elements are offered one after the other (`widens_foldl`).  What is offered a second time
changes nothing (`foldl_offer_of_shown`).
-/

namespace Edifice.View

variable {m : Model} {v v' v'' : View} {id x : ElementId}

/-- What comes in when an element is shown: the element and, in a deployment view, all that
is around it. -/
def ComesWith (m : Model) (v : View) (id x : ElementId) : Prop :=
  x = id ∨ v.kind = .deployment ∧ x ∈ m.ancestors id

/-- The elements `new` are those that are brought and not shown yet, each once; in a
deployment view what is around one of them and new comes before it. -/
structure Gathers (m : Model) (v : View) (brings : ElementId → Prop) (new : List ElementId) :
    Prop where
  once : new.Nodup
  mem_iff : ∀ x, x ∈ new ↔ brings x ∧ x ∉ v.elements
  inwards : v.kind = .deployment → new.Pairwise fun x y => y ∉ m.ancestors x

/-- `v'` is about the same as `v`, and shows what `v` shows and after it all that is
brought. -/
structure Widens (m : Model) (v : View) (brings : ElementId → Prop) (v' : View) : Prop where
  subject : v.SameSubject v'
  elements : ∃ new, v.Gathers m brings new ∧ v'.elements = v.elements ++ new

/-- With an element, a deployment view is also brought what is around it. -/
def Encloses (m : Model) (v : View) (brings : ElementId → Prop) : Prop :=
  v.kind = .deployment → ∀ x, brings x → ∀ y ∈ m.ancestors x, brings y

theorem encloses_comesWith (nested : m.Nested) : v.Encloses m (v.ComesWith m id) := by
  intro deployment x comes y above
  rcases comes with rfl | ⟨-, around⟩
  · exact .inr ⟨deployment, above⟩
  · exact .inr ⟨deployment, (nested.lineage_suffix around).subset (List.mem_cons_of_mem x above)⟩

theorem encloses_offers (nested : m.Nested) : v.Encloses m (v.Offers m id) := by
  intro deployment x offered y above
  exact ⟨offered.1, encloses_comesWith nested deployment x offered.2 y above⟩

namespace Widens

variable {P Q : ElementId → Prop}

theorem mem_iff (widens : v.Widens m P v') : x ∈ v'.elements ↔ x ∈ v.elements ∨ P x := by
  obtain ⟨new, gathers, elements⟩ := widens.elements
  rw [elements, List.mem_append, gathers.mem_iff]
  by_cases shown : x ∈ v.elements <;> simp [shown]

/-- A view that shows all that is brought need not change. -/
theorem of_shown (same : v.SameSubject v') (elements : v'.elements = v.elements)
    (shown : ∀ x, P x → x ∈ v.elements) : v.Widens m P v' where
  subject := same
  elements := by
    refine ⟨[], ⟨.nil, fun x => ?_, fun _ => .nil⟩, by simp [elements]⟩
    simpa using shown x

/-- Nothing comes in exactly if all that is brought is shown. -/
theorem elements_eq_iff (widens : v.Widens m P v') :
    v'.elements = v.elements ↔ ∀ x, P x → x ∈ v.elements := by
  constructor
  · intro same x brought
    exact same ▸ widens.mem_iff.mpr (.inr brought)
  · intro shown
    obtain ⟨new, gathers, elements⟩ := widens.elements
    have empty : new = [] := by
      refine List.eq_nil_iff_forall_not_mem.mpr fun x listed => ?_
      obtain ⟨brought, absent⟩ := (gathers.mem_iff x).mp listed
      exact absent (shown x brought)
    rw [elements, empty, List.append_nil]

/-- Only what is not shown yet matters of what comes in. -/
theorem congr (widens : v.Widens m P v') (same : ∀ x, x ∉ v.elements → (Q x ↔ P x)) :
    v.Widens m Q v' where
  subject := widens.subject
  elements := by
    obtain ⟨new, gathers, elements⟩ := widens.elements
    refine ⟨new, ⟨gathers.once, fun x => ?_, gathers.inwards⟩, elements⟩
    rw [gathers.mem_iff]
    exact and_congr_left fun absent => (same x absent).symm

/-- What is brought later comes after what is brought first, and so after what is around
that. -/
theorem trans (first : v.Widens m P v') (encloses : v.Encloses m P)
    (second : v'.Widens m Q v'') : v.Widens m (fun x => P x ∨ Q x) v'' where
  subject := first.subject.trans second.subject
  elements := by
    have shown : ∀ x, x ∈ v'.elements ↔ x ∈ v.elements ∨ P x := fun x => first.mem_iff
    obtain ⟨new, gathers, elements⟩ := first.elements
    obtain ⟨new', gathers', elements'⟩ := second.elements
    refine ⟨new ++ new', ⟨?_, fun x => ?_, fun deployment => ?_⟩, ?_⟩
    · refine List.nodup_append.mpr ⟨gathers.once, gathers'.once, ?_⟩
      rintro x listed y later rfl
      have absent := ((gathers'.mem_iff x).mp later).2
      exact absent ((shown x).mpr (.inr ((gathers.mem_iff x).mp listed).1))
    · rw [List.mem_append, gathers.mem_iff, gathers'.mem_iff, shown]
      by_cases old : x ∈ v.elements <;> by_cases brought : P x <;> simp [old, brought]
    · have deployment' : v'.kind = .deployment := first.subject.2.1.trans deployment
      refine List.pairwise_append.mpr
        ⟨gathers.inwards deployment, gathers'.inwards deployment', fun x listed y later above => ?_⟩
      have brought := ((gathers.mem_iff x).mp listed).1
      have around := encloses deployment x brought y above
      exact ((gathers'.mem_iff y).mp later).2 ((shown y).mpr (.inr around))
    · rw [elements', elements, List.append_assoc]

end Widens

/-! ### One element -/

/-- An element widens the view by itself and what surrounds it, in one list of new elements. -/
theorem widens_withElement (nested : m.Nested) (v : View) (id : ElementId) (withLines : Bool) :
    v.Widens m (v.ComesWith m id) (v.withElement m id withLines) where
  subject := ⟨rfl, rfl, rfl, rfl⟩
  elements := by
    refine ⟨v.newElements m id, ⟨nodup_newElements nested, fun x => mem_newElements, ?_⟩,
      elements_withElement nested v id withLines⟩
    intro deployment
    have outwards := List.pairwise_reverse.mpr (nested.ancestors_descend id)
    have order : v.newElements m id = (m.lineage id).reverse.filter (!v.showsElement ·) := by
      simp [newElements, Model.lineage, deployment]
    rw [order]
    -- What is around an element is older than it.
    refine (outwards.imp fun {x y} older above => ?_).filter _
    have := nested.ancestor_older above
    omega

/-- An offer widens the view by what it brings, and by nothing where it is refused. -/
theorem widens_offer (nested : m.Nested) (v : View) (id : ElementId) :
    v.Widens m (v.Offers m id) (v.offer m id) := by
  unfold offer
  split
  case h_1 accepted =>
    refine (widens_withElement nested v id true).congr fun x _ => ?_
    exact ⟨And.right, fun comes => ⟨accepted, comes⟩⟩
  case h_2 refused =>
    refine .of_shown (.refl v) rfl fun x offered => ?_
    cases refused.symm.trans offered.1

/-- Nothing changes where an element is shown already with all that comes with it. -/
theorem withElement_of_comesWith (shown : ∀ x, v.ComesWith m id x → x ∈ v.elements)
    (withLines : Bool) : v.withElement m id withLines = v := by
  refine withElement_of_shown (List.eq_nil_iff_forall_not_mem.mpr fun x new => ?_) withLines
  obtain ⟨comes, absent⟩ := mem_newElements.mp new
  exact absent (shown x comes)

/-- An offer of what is shown changes nothing. -/
theorem offer_of_shown (shown : ∀ x, v.Offers m id x → x ∈ v.elements) : v.offer m id = v := by
  unfold offer
  split
  case h_1 accepted => exact withElement_of_comesWith (fun x comes => shown x ⟨accepted, comes⟩) true
  case h_2 => rfl

/-! ### One element after the other -/

/-- A loop whose turns bring elements in brings in all of them. -/
theorem widens_foldl {ι : Type} {turn : View → ι → View} {brings : ι → ElementId → Prop}
    {l : List ι} (encloses : ∀ i ∈ l, v.Encloses m (brings i))
    (widens : ∀ w, v.SameSubject w → ∀ i ∈ l, w.Widens m (brings i) (turn w i)) :
    v.Widens m (fun x => ∃ i ∈ l, brings i x) (l.foldl turn v) := by
  induction l generalizing v with
  | nil => exact .of_shown (.refl v) rfl (by simp)
  | cons i rest ih =>
    have first := widens v (.refl v) i (List.mem_cons_self ..)
    have kind : (turn v i).kind = v.kind := first.subject.2.1
    have later : (turn v i).Widens m (fun x => ∃ j ∈ rest, brings j x)
        (rest.foldl turn (turn v i)) := by
      refine ih (fun j listed deployment => ?_) fun w same j listed => ?_
      · exact encloses j (List.mem_cons_of_mem i listed) (kind ▸ deployment)
      · exact widens w (first.subject.trans same) j (List.mem_cons_of_mem i listed)
    refine (first.trans (encloses i (List.mem_cons_self ..)) later).congr fun x _ => ?_
    simp only [List.mem_cons, exists_eq_or_imp]

/-- Elements that are offered one after the other come in with what comes with them. -/
theorem widens_foldl_offer (nested : m.Nested) (v : View) (ids : List ElementId) :
    v.Widens m (fun x => ∃ id ∈ ids, v.Offers m id x) (ids.foldl (offer m) v) :=
  widens_foldl (fun _ _ => encloses_offers nested) fun w same id _ =>
    (widens_offer nested w id).congr fun _ _ => same.offers_iff.symm

/-- What is shown with all that comes with it can be offered again. -/
theorem foldl_offer_of_shown {ids : List ElementId}
    (shown : ∀ id ∈ ids, ∀ x, v.Offers m id x → x ∈ v.elements) :
    ids.foldl (offer m) v = v := by
  induction ids with
  | nil => rfl
  | cons id rest ih =>
    rw [List.foldl_cons, offer_of_shown (shown id (List.mem_cons_self ..))]
    exact ih fun id' listed => shown id' (List.mem_cons_of_mem id listed)

/-- What has been offered once changes nothing when it is offered again. -/
theorem foldl_offer_twice (nested : m.Nested) (v : View) (ids : List ElementId) :
    ids.foldl (offer m) (ids.foldl (offer m) v) = ids.foldl (offer m) v := by
  have widens := widens_foldl_offer nested v ids
  refine foldl_offer_of_shown fun id listed x offered => ?_
  exact widens.mem_iff.mpr (.inr ⟨id, listed, widens.subject.offers_iff.mp offered⟩)

end Edifice.View
