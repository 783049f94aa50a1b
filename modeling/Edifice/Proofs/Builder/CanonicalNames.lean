import Edifice.Proofs.Builder.Drawing

/-!
Canonical names and the tables that are kept of them.

The canonical name of an element is computed once, when the element is entered, from what
is there at that time: the names of what lies around it and, for an instance, of what it
deploys.  Nothing that happens later changes any of this, so the name that is stored is
the one that would be computed now (`Extends.canonicalName_eq`).  The two tables of a
builder list every element under its name and nothing else (`Builder.Indexed`), which is
why no two elements share a name.
-/

namespace Edifice

namespace Model

variable {m m' : Model}

/-! ### Canonical names in larger models -/

/-- What the canonical name of an element is made of is there. -/
structure Rooted (m : Model) (e : Element) : Prop where
  parent : ∀ id, e.parent = some id → m.Declares id
  deployed : ∀ id, e.instanceOf = some id → m.Declares id

/-- An element keeps its name. -/
theorem Extends.name?_eq (extends_ : m.Extends m') {id : ElementId} (declared : m.Declares id) :
    (m'.element? id).map (·.name) = (m.element? id).map (·.name) := by
  have name_of_core : ∀ o : Option Element,
      o.map (·.name) = (o.map Element.core).map (·.name) := by
    intro o
    cases o <;> rfl
  rw [name_of_core, extends_.element?_core declared, ← name_of_core]

/-- An element keeps its path. -/
theorem Extends.path_eq (extends_ : m.Extends m') (nested : m.Nested) (separator : String)
    {id : ElementId} (declared : m.Declares id) :
    m'.path separator id = m.path separator id := by
  unfold path
  rw [extends_.lineage_eq nested declared]
  apply congrArg separator.intercalate
  apply List.filterMap_congr
  intro x member
  apply extends_.name?_eq
  exact nested.declares_lineage declared (List.mem_reverse.mp member)

/-- The path of an element stays the same while the model grows. -/
theorem Extends.path?_eq (extends_ : m.Extends m') (nested : m.Nested) (separator : String)
    {id : Option ElementId} (declared : ∀ x, id = some x → m.Declares x) :
    m'.path? separator id = m.path? separator id := by
  cases id with
  | none => rfl
  | some x => exact extends_.path_eq nested separator (declared x rfl)

/-- The canonical name of an element is the same in every model that extends its own. -/
theorem Extends.canonicalName_eq (extends_ : m.Extends m') (nested : m.Nested) {e e' : Element}
    (rooted : m.Rooted e) (same : e'.core = e.core) :
    m'.canonicalName e' = m.canonicalName e := by
  obtain ⟨-, kind, name, -, parent, -, environment, instanceOf, index, -⟩ :=
    Element.core_eq_iff.mp same
  have around := fun separator => extends_.path?_eq nested separator rooted.parent
  have deployed := extends_.path?_eq nested "." rooted.deployed
  unfold canonicalName
  rw [kind, name, parent, environment, instanceOf, index, around, around, deployed]
  cases inside : e.parent with
  | none => rfl
  | some p =>
    have within := extends_.path_eq nested "/" (rooted.parent p inside)
    simp only [within]

end Model

/-! ### Tables -/

/-- The table lists the elements under what `key` calls them, and nothing else. -/
def Lists (table : Dictionary ElementId) (key : Element → String) (l : List Element) : Prop :=
  ∀ name id, table.get? name = some id ↔ ∃ e ∈ l, e.id = id ∧ key e = name

namespace Lists

variable {table : Dictionary ElementId} {key : Element → String} {l l' : List Element}

theorem empty : Lists {} key [] := by
  intro name id
  constructor
  · rintro ⟨⟩
  · rintro ⟨_, ⟨⟩, _⟩

/-- A name that the table does not have is that of no element. -/
theorem key_ne (lists : Lists table key l) {name : String} (free : ¬ table.contains name = true) :
    ∀ e ∈ l, key e ≠ name := by
  intro e member own
  apply free
  have listed := (lists name e.id).mpr ⟨e, member, rfl, own⟩
  rw [Dictionary.contains, listed]
  rfl

/-- An element is listed under a name that was free. -/
theorem snoc (lists : Lists table key l) {e : Element}
    (free : ¬ table.contains (key e) = true) :
    Lists (table.insert (key e) e.id) key (l ++ [e]) := by
  intro name id
  rw [Dictionary.get?_insert]
  simp only [List.mem_append, List.mem_singleton]
  by_cases own : name = key e
  · subst own
    rw [if_pos rfl]
    constructor
    · rintro ⟨⟩
      exact ⟨e, .inr rfl, rfl, rfl⟩
    · rintro ⟨x, earlier | rfl, rfl, same⟩
      · exact absurd same (lists.key_ne free x earlier)
      · rfl
  · rw [if_neg own, lists]
    constructor
    · rintro ⟨x, earlier, named⟩
      exact ⟨x, .inl earlier, named⟩
    · rintro ⟨x, earlier | rfl, same, named⟩
      · exact ⟨x, earlier, same, named⟩
      · exact absurd named.symm own

/-- The table lists elements with the same cores as well. -/
theorem of_cores (lists : Lists table key l) (core : ∀ e, key e.core = key e)
    (same : l'.map Element.core = l.map Element.core) : Lists table key l' := by
  have cores : ∀ (l : List Element) name id, (∃ e ∈ l, e.id = id ∧ key e = name) ↔
      ∃ c ∈ l.map Element.core, c.id = id ∧ key c = name := by
    intro l name id
    simp [core]
  intro name id
  rw [lists, cores l', same, ← cores l]

/-- No two of the elements that a table lists have the same name. -/
theorem nodup (lists : Lists table key l) (ids : (l.map (·.id)).Nodup) :
    (l.map key).Nodup := by
  have distinct : l.Nodup := .of_map _ ids
  apply distinct.map_on
  intro e member e' member' same
  apply List.inj_on_of_nodup_map ids member member'
  have listed := (lists (key e) e.id).mpr ⟨e, member, rfl, rfl⟩
  have listed' := (lists (key e) e'.id).mpr ⟨e', member', rfl, same.symm⟩
  exact Option.some.inj (listed.symm.trans listed')

end Lists

namespace Builder

variable {b b' : Builder}

def topLevelElements (b : Builder) : List Element :=
  b.model.elements.filter (·.kind.isTopLevel)

/-- The names that are stored are those that would be computed now, and the tables of names
list the elements. -/
structure Indexed (b : Builder) : Prop where
  stored : ∀ e ∈ b.model.elements, e.canonicalName = b.model.canonicalName e
  canonical : Lists b.model.canonicalNames (·.canonicalName) b.model.elements
  topLevel : Lists b.topLevelNames (·.name) b.topLevelElements

/-- What the canonical name of an element is made of is there, at all times. -/
theorem Grown.rooted (grown : Grown b) {e : Element} (member : e ∈ b.model.elements) :
    b.model.Rooted e := by
  constructor
  · intro id inside
    obtain ⟨p, around, own, -⟩ := (grown.nested e member).inside_older id inside
    exact ⟨p, around, own⟩
  · intro id deploys
    exact grown.deploysDeclared e member id deploys

/-- What the canonical name of a draft is made of is there once it has been checked. -/
theorem Drafted.rooted {draft : Element} (drafted : b.Drafted draft)
    (checked : b.checkElement draft = .ok ()) : b.model.Rooted draft := by
  constructor
  · intro id inside
    obtain ⟨placed, -⟩ := checkElement_eq_ok.mp checked
    rcases Model.checkPlace_eq_ok.mp placed with ⟨top, -⟩ | ⟨id', p, inside', found, -⟩
    · rw [top] at inside
      cases inside
    · obtain rfl := Option.some.inj (inside'.symm.trans inside)
      exact ⟨p, Model.element?_eq_some found⟩
  · intro id deploys
    cases drafted with
    | copy answer =>
      obtain ⟨deployed, kind, parent, found, -, -, -, rfl⟩ := instanceDraft_eq_ok answer
      obtain rfl := Option.some.inj deploys
      exact ⟨deployed, Model.element?_eq_some found⟩
    | _ => cases deploys

/-- What leaves the cores of the elements and the tables alone keeps them in agreement. -/
theorem Indexed.of_cores (indexed : b.Indexed) (grown : Grown b)
    (extends_ : b.model.Extends b'.model)
    (cores : b'.model.elements.map Element.core = b.model.elements.map Element.core)
    (canonical : b'.model.canonicalNames = b.model.canonicalNames)
    (topLevel : b'.topLevelNames = b.topLevelNames) : b'.Indexed where
  stored := by
    intro e' member
    obtain ⟨e, member, same⟩ := List.mem_map.mp (cores ▸ List.mem_map_of_mem member)
    rw [extends_.canonicalName_eq grown.nested (grown.rooted member) same.symm,
      ← indexed.stored e member]
    exact (congrArg Element.canonicalName same).symm
  canonical := by
    rw [canonical]
    exact indexed.canonical.of_cores (fun _ => rfl) cores
  topLevel := by
    rw [topLevel]
    apply indexed.topLevel.of_cores (fun _ => rfl)
    have filtered : ∀ l : List Element, (l.filter (·.kind.isTopLevel)).map Element.core =
        (l.map Element.core).filter (·.kind.isTopLevel) := by
      intro l
      rw [List.filter_map]
      rfl
    rw [topLevelElements, topLevelElements, filtered, cores, filtered]

/-- An element that has been checked is entered under names that were free. -/
theorem Indexed.enterElement (indexed : b.Indexed) (grown : Grown b) {draft : Element}
    (drafted : b.Drafted draft) (checked : b.checkElement draft = .ok ()) :
    (b.enterElement draft).2.Indexed := by
  have step : Grows b (b.enterElement draft).2 := .element drafted checked
  have extends_ := step.extends_ grown.numbered
  have elements := elements_enterElement grown.numbered draft
  obtain ⟨-, free_name, free⟩ := checkElement_eq_ok.mp checked
  constructor
  · intro e member
    rw [elements, List.mem_append, List.mem_singleton] at member
    rcases member with member | rfl
    · rw [extends_.canonicalName_eq grown.nested (grown.rooted member) rfl]
      exact indexed.stored e member
    · have rooted : b.model.Rooted (b.newElement draft) := by
        obtain ⟨parent, deployed⟩ := drafted.rooted checked
        exact ⟨parent, deployed⟩
      rw [extends_.canonicalName_eq grown.nested rooted rfl]
      rfl
  · rw [elements]
    exact indexed.canonical.snoc (e := b.newElement draft) free
  · rw [topLevelElements, elements, List.filter_append]
    by_cases top : draft.kind.isTopLevel = true
    · have listed : [b.newElement draft].filter (·.kind.isTopLevel) = [b.newElement draft] :=
        List.filter_cons_of_pos top
      have table : (b.enterElement draft).2.topLevelNames =
          b.topLevelNames.insert draft.name ⟨b.nextId⟩ := if_pos top
      rw [listed, table]
      exact indexed.topLevel.snoc (e := b.newElement draft) fun taken => free_name ⟨top, taken⟩
    · have unlisted : [b.newElement draft].filter (·.kind.isTopLevel) = [] :=
        List.filter_cons_of_neg top
      have table : (b.enterElement draft).2.topLevelNames = b.topLevelNames := if_neg top
      rw [unlisted, table, List.append_nil]
      exact indexed.topLevel

/-- A step keeps names and tables in agreement. -/
theorem Grows.indexed (step : Grows b b') (grown : Grown b) (indexed : b.Indexed) :
    b'.Indexed := by
  have extends_ := step.extends_ grown.numbered
  cases step with
  | same stock =>
    obtain ⟨skeleton, -, topLevel⟩ : b'.model.skeleton = b.model.skeleton ∧
        b'.nextId = b.nextId ∧ b'.topLevelNames = b.topLevelNames := by
      simpa [Builder.stock] using stock
    have cores := congrArg Model.elements skeleton
    have canonical := congrArg Model.canonicalNames skeleton
    exact indexed.of_cores grown extends_ cores canonical topLevel
  | element drafted checked => exact indexed.enterElement grown drafted checked
  | relationship => exact indexed.of_cores grown extends_ rfl rfl rfl

theorem indexed_new (name description : String) : (new name description).Indexed where
  stored := List.forall_mem_nil _
  canonical := .empty
  topLevel := .empty

theorem Grown.indexed (grown : Grown b) : b.Indexed :=
  grown.induction indexed_new fun _ _ earlier step => step.indexed earlier

/-- The element that a canonical name finds is the one that has it. -/
theorem Grown.elementNamed?_eq_some (grown : Grown b) {name : String} {e : Element} :
    b.model.elementNamed? name = some e ↔ e ∈ b.model.elements ∧ e.canonicalName = name := by
  unfold Model.elementNamed?
  rw [Option.bind_eq_some_iff]
  constructor
  · rintro ⟨id, listed, found⟩
    obtain ⟨e', member', rfl, own⟩ := (grown.indexed.canonical name id).mp listed
    rw [grown.numbered.element?_of_mem member'] at found
    obtain rfl := Option.some.inj found
    exact ⟨member', own⟩
  · rintro ⟨member, own⟩
    have listed := (grown.indexed.canonical name e.id).mpr ⟨e, member, rfl, own⟩
    exact ⟨e.id, listed, grown.numbered.element?_of_mem member⟩

/-- **Canonical names index the model exactly.**  In every reachable builder no two elements
have the same canonical name; a canonical name finds the element that has it and no other;
the canonical name of every element is the one computed from the model as it is now; and no
two of the people, software systems and custom elements have the same name. -/
theorem canonical_names_of_reachable (reachable : b.Reachable) :
    (b.model.elements.map (·.canonicalName)).Nodup ∧
      (∀ name e, b.model.elementNamed? name = some e ↔
        e ∈ b.model.elements ∧ e.canonicalName = name) ∧
      (∀ e ∈ b.model.elements, e.canonicalName = b.model.canonicalName e) ∧
      ((b.model.elements.filter fun e =>
        e.kind ∈ [.person, .softwareSystem, .customElement]).map (·.name)).Nodup := by
  have grown := reachable.grown
  have ids := grown.numbered.nodup_elements
  refine ⟨grown.indexed.canonical.nodup ids, fun _ _ => grown.elementNamed?_eq_some,
    grown.indexed.stored, ?_⟩
  have top : (b.model.elements.filter fun e =>
      e.kind ∈ [.person, .softwareSystem, .customElement]) = b.topLevelElements := by
    apply List.filter_congr
    intro e _
    cases e.kind <;> rfl
  rw [top]
  apply grown.indexed.topLevel.nodup
  exact ids.sublist (List.filter_sublist.map _)

/-- The instance of the web application is found by its canonical name. -/
theorem canonical_names_of_shop :
    shop.Reachable ∧ (shop.model.elements.map (·.canonicalName)).Nodup ∧
      ∃ e ∈ shop.model.elements,
        e.canonicalName = "ContainerInstance://Live/Server/Shop.Web[1]" ∧
        shop.model.elementNamed? "ContainerInstance://Live/Server/Shop.Web[1]" = some e ∧
        shop.model.canonicalName e = "ContainerInstance://Live/Server/Shop.Web[1]" := by
  obtain ⟨distinct, found, stored, -⟩ := canonical_names_of_reachable reachable_shop
  have listed : "ContainerInstance://Live/Server/Shop.Web[1]" ∈
      shop.model.elements.map (·.canonicalName) := by decide +kernel
  obtain ⟨e, member, own⟩ := List.mem_map.mp listed
  refine ⟨reachable_shop, distinct, e, member, own, (found _ e).mpr ⟨member, own⟩, ?_⟩
  rw [← stored e member, own]

end Builder

end Edifice
