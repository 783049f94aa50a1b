import Edifice.Proofs.View.Eligibility
import Edifice.View.Contents
import Edifice.View.Interaction
import Mathlib.Data.List.Nodup

/-!
How the contents of a view change.

Whatever is done to a view comes down to a few edits (`View.Edit`): elements and
relationships come in and go out, and interactions are appended.  Every edit keeps a view
sound (`Edit.sound`): the elements it shows are distinct elements of the model, its lines
lead between them and show relationships of the model, in a static view each one at most
once.  In a model whose deployment trees lie in one environment each, an edit also keeps
all that a view shows accepted (`Edit.accepts`), although the nodes around an element come
into a deployment view without a check of their own.
-/

namespace Edifice

/-- The line shows a relationship of the model: from its source to its destination, or, as a
response, the other way round. -/
def ViewLine.Shows (m : Model) (l : ViewLine) : Prop :=
  ∃ r ∈ m.relationships, r.id = l.relationship ∧
    (l.source, l.destination) =
      if l.response then (r.destination, r.source) else (r.source, r.destination)

/-- Values that are new and distinct go to the end one after the other. -/
theorem foldl_insertLast_of_new {α : Type} [BEq α] [LawfulBEq α] {l new : List α}
    (distinct : new.Nodup) (fresh : ∀ x ∈ new, x ∉ l) :
    new.foldl (fun l x => insertLast x l) l = l ++ new := by
  induction new generalizing l with
  | nil => simp
  | cons x rest ih =>
    obtain ⟨first, distinct⟩ := List.nodup_cons.mp distinct
    have added : insertLast x l = l ++ [x] := by
      simp [insertLast, fresh x (List.mem_cons_self ..)]
    rw [List.foldl_cons, added, ih distinct, List.append_assoc, List.singleton_append]
    intro y member
    simp only [List.mem_append, List.mem_singleton, not_or]
    refine ⟨fresh y (List.mem_cons_of_mem x member), ?_⟩
    rintro rfl
    exact first member

theorem mem_insertLast {α : Type} [BEq α] [LawfulBEq α] {x y : α} {l : List α} :
    y ∈ insertLast x l ↔ y = x ∨ y ∈ l := by
  unfold insertLast
  split
  case isTrue listed =>
    have listed : x ∈ l := by simpa using listed
    constructor
    · exact .inr
    · rintro (rfl | member)
      · exact listed
      · exact member
  case isFalse => simp [or_comm]

theorem nodup_insertLast {α : Type} [BEq α] [LawfulBEq α] {x : α} {l : List α}
    (distinct : l.Nodup) : (insertLast x l).Nodup := by
  unfold insertLast
  split
  case isTrue => exact distinct
  case isFalse new =>
    rw [← List.concat_eq_append]
    exact distinct.concat (by simpa using new)

namespace View

variable {m m' : Model} {v v' : View} {id : ElementId}

/-! ### Edits -/

/-- The view without its texts, layout, properties and step numbers. -/
def picture (v : View) : View :=
  { v with title := none, description := none, autoLayout := none, properties := {}, steps := {} }

theorem picture_eq_iff : v'.picture = v.picture ↔
    v'.key = v.key ∧ v'.kind = v.kind ∧ v'.scope = v.scope ∧ v'.environment = v.environment ∧
      v'.elements = v.elements ∧ v'.lines = v.lines := by
  simp [picture]

def depth (v : View) : Nat :=
  v.steps.saved.length

/-- A view with an open parallel block can close one. -/
theorem endParallel_of_depth (v : View) (deep : 0 < v.depth) :
    v.endParallel.1 = true ∧ v.endParallel.2.depth + 1 = v.depth := by
  unfold depth at deep
  unfold endParallel depth StepCounter.endParallel
  cases saved : v.steps.saved with
  | nil => simp [saved] at deep
  | cons value rest => cases rest <;> simp

/-- `Edit m v v'`: one change of the view `v` of the model `m` leads to `v'`, and closes no
parallel block. -/
inductive Edit (m : Model) (v : View) : View → Prop where
  /-- Texts, layout, properties or step numbers change. -/
  | retouched {v' : View} (same : v'.picture = v.picture) (deeper : v.depth ≤ v'.depth) :
      Edit m v v'
  | element {id : ElementId} (accepted : v.check m id = .ok ()) (withLines : Bool) :
      Edit m v (v.withElement m id withLines)
  | relationship {r : Relationship} (static : v.kind.isStatic) (member : r ∈ m.relationships)
      (source : r.source ∈ v.elements) (destination : r.destination ∈ v.elements) :
      Edit m v (v.withRelationship r)
  | elementOut (id : ElementId) : Edit m v (v.excludeElement id)
  | relationshipOut (id : RelationshipId) : Edit m v (v.excludeRelationship id)
  | interaction {l : ViewLine} (dynamic : v.kind = .dynamic) (shows : l.Shows m)
      (source : v.check m l.source = .ok ()) (destination : v.check m l.destination = .ok ())
      (order : Option String) : Edit m v (v.appendLine l order)

/-- An edit changes neither the key nor what the view is about. -/
theorem Edit.subject (edit : v.Edit m v') :
    v'.key = v.key ∧ v'.kind = v.kind ∧ v'.scope = v.scope ∧ v'.environment = v.environment := by
  cases edit with
  | retouched same =>
    obtain ⟨key, kind, scope, environment, -⟩ := picture_eq_iff.mp same
    exact ⟨key, kind, scope, environment⟩
  | @relationship r =>
    unfold withRelationship
    split <;> exact ⟨rfl, rfl, rfl, rfl⟩
  | element | elementOut | relationshipOut | interaction => exact ⟨rfl, rfl, rfl, rfl⟩

/-- An edit closes no parallel block. -/
theorem Edit.depth_le (edit : v.Edit m v') : v.depth ≤ v'.depth := by
  cases edit with
  | retouched _ deeper => exact deeper
  | @relationship r =>
    unfold withRelationship
    split <;> exact Nat.le_refl _
  | element | elementOut | relationshipOut | interaction => exact Nat.le_refl _

/-- What a view accepts is a matter of its key and of what it is about. -/
theorem check_congr (key : v'.key = v.key) (kind : v'.kind = v.kind) (scope : v'.scope = v.scope)
    (environment : v'.environment = v.environment) (id : ElementId) :
    v'.check m id = v.check m id := by
  simp only [check, checkElement, eligibility, key, kind, scope, environment]

theorem Edit.check_eq (edit : v.Edit m v') (id : ElementId) : v'.check m id = v.check m id := by
  obtain ⟨key, kind, scope, environment⟩ := edit.subject
  exact check_congr key kind scope environment id

/-! ### What comes in with an element -/

/-- An element comes into a deployment view with the nodes around it, into any other view
by itself. -/
theorem mem_newElements {x : ElementId} :
    x ∈ v.newElements m id ↔
      (x = id ∨ v.kind = .deployment ∧ x ∈ m.ancestors id) ∧ x ∉ v.elements := by
  unfold newElements
  by_cases deployment : v.kind = .deployment
  · simp [deployment, showsElement, or_comm, or_and_right]
  · simp [deployment, showsElement]

/-- An element and what is around it are distinct, so that none is shown twice. -/
theorem nodup_newElements (nested : m.Nested) : (v.newElements m id).Nodup := by
  unfold newElements
  refine List.Pairwise.filter _ ?_
  split
  · have upwards : (m.ancestors id).reverse.Nodup :=
      List.pairwise_reverse.mpr ((nested.nodup_ancestors id).imp Ne.symm)
    rw [← List.concat_eq_append]
    refine upwards.concat fun around => ?_
    have := nested.ancestor_older (List.mem_reverse.mp around)
    omega
  · exact List.pairwise_singleton _ _

theorem elements_withElement (nested : m.Nested) (v : View) (id : ElementId) (withLines : Bool) :
    (v.withElement m id withLines).elements = v.elements ++ v.newElements m id :=
  foldl_insertLast_of_new (nodup_newElements nested) fun _ member => (mem_newElements.mp member).2

/-- An element comes in without lines or, in a static view, with all that are new. -/
theorem lines_withElement_cases (m : Model) (v : View) (id : ElementId) (withLines : Bool) :
    (v.withElement m id withLines).lines = v.lines ∨
      v.kind.isStatic ∧
        (v.withElement m id withLines).lines = v.lines ++ v.newLines m (v.newElements m id) := by
  unfold withElement
  by_cases brings : withLines && v.kind.isStatic
  · refine .inr ⟨(Bool.and_eq_true _ _ ▸ brings).2, ?_⟩
    simp [brings]
  · exact .inl (by simp [brings])

theorem mem_lines_withElement {l : ViewLine} (withLines : Bool)
    (member : l ∈ (v.withElement m id withLines).lines) :
    l ∈ v.lines ∨ v.kind.isStatic ∧ l ∈ v.newLines m (v.newElements m id) := by
  rcases lines_withElement_cases m v id withLines with lines | ⟨static, lines⟩
  · exact .inl (lines ▸ member)
  · rw [lines, List.mem_append] at member
    exact member.imp_right fun brought => ⟨static, brought⟩

/-- An element brings in the relationships between it and what is shown then. -/
theorem mem_newLines {ids : List ElementId} {l : ViewLine} :
    l ∈ v.newLines m ids ↔ ∃ r ∈ m.relationships, (r.source ∈ v.elements ∨ r.source ∈ ids) ∧
      (r.destination ∈ v.elements ∨ r.destination ∈ ids) ∧
      (r.source ∈ ids ∨ r.destination ∈ ids) ∧ v.showsRelationship r.id = false ∧
      l = .ofRelationship r := by
  simp only [newLines, showsElement, List.mem_map, List.mem_filter, Bool.and_eq_true,
    Bool.or_eq_true, List.contains_iff_mem, Bool.not_eq_true', and_assoc, eq_comm (a := l)]

theorem showsRelationship_eq_false {r : RelationshipId} :
    v.showsRelationship r = false ↔ r ∉ v.lines.map (·.relationship) := by
  simp [showsRelationship]

/-! ### Sound views -/

/-- What a view shows is there: distinct elements of the model, and lines between them that
show relationships of the model, in a static view each one at most once and as the model has
it, in a dynamic view each with an order. -/
structure Sound (m : Model) (v : View) : Prop where
  scope : ∀ id, v.scope = some id → ∃ e, m.element? id = some e ∧ v.kind.acceptsScope e.kind
  distinct : v.elements.Nodup
  declared : ∀ id ∈ v.elements, m.Declares id
  ends : ∀ l ∈ v.lines, l.source ∈ v.elements ∧ l.destination ∈ v.elements
  shows : ∀ l ∈ v.lines, l.Shows m
  once : v.kind.isStatic → (v.lines.map (·.relationship)).Nodup
  plain : v.kind.isStatic → ∀ l ∈ v.lines, l.order = none ∧ l.response = false
  ordered : v.kind = .dynamic → ∀ l ∈ v.lines, l.order.isSome

def Accepts (m : Model) (v : View) : Prop :=
  ∀ id ∈ v.elements, v.check m id = .ok ()

namespace Sound

theorem declares_scope (sound : v.Sound m) (scope : v.scope = some id) : m.Declares id := by
  obtain ⟨e, found, -⟩ := sound.scope id scope
  exact ⟨e, Model.element?_eq_some found⟩

/-- A view without contents is sound if its scope is. -/
theorem of_empty
    (scope : ∀ id, v.scope = some id → ∃ e, m.element? id = some e ∧ v.kind.acceptsScope e.kind)
    (elements : v.elements = []) (lines : v.lines = []) : v.Sound m where
  scope := scope
  distinct := by simp [elements]
  declared := by simp [elements]
  ends := by simp [lines]
  shows := by simp [lines]
  once := by simp [lines]
  plain := by simp [lines]
  ordered := by simp [lines]

/-- Whether a view is sound depends on its picture only. -/
theorem of_picture (sound : v.Sound m) (same : v'.picture = v.picture) : v'.Sound m := by
  obtain ⟨-, kind, scope, -, elements, lines⟩ := picture_eq_iff.mp same
  constructor
  · rw [scope, kind]; exact sound.scope
  · rw [elements]; exact sound.distinct
  · rw [elements]; exact sound.declared
  · rw [elements, lines]; exact sound.ends
  · rw [lines]; exact sound.shows
  · rw [kind, lines]; exact sound.once
  · rw [kind, lines]; exact sound.plain
  · rw [kind, lines]; exact sound.ordered

/-- A view stays sound while the model grows. -/
theorem extends_ (sound : v.Sound m) (extends_ : m.Extends m') : v.Sound m' where
  scope := by
    intro id scope
    obtain ⟨e, found, fits⟩ := sound.scope id scope
    have cores := extends_.element?_core (sound.declares_scope scope)
    rw [found] at cores
    obtain ⟨e', found', same⟩ := Option.map_eq_some_iff.mp cores
    obtain ⟨-, kind, -⟩ := Element.core_eq_iff.mp same
    exact ⟨e', found', kind ▸ fits⟩
  distinct := sound.distinct
  declared := by
    intro id member
    exact extends_.declares (sound.declared id member)
  ends := sound.ends
  shows := by
    intro l member
    obtain ⟨r, listed, own, ends⟩ := sound.shows l member
    obtain ⟨r', listed', same⟩ := extends_.exists_relationship listed
    obtain ⟨id, source, destination, -⟩ := Relationship.core_eq_iff.mp same
    exact ⟨r', listed', id.trans own, by rw [source, destination, ends]⟩
  once := sound.once
  plain := sound.plain
  ordered := sound.ordered

/-- The relationships that an element brings in are new, and each is listed once. -/
theorem once_newLines {next : Nat} (numbered : m.Numbered next) (sound : v.Sound m)
    (static : v.kind.isStatic) (ids : List ElementId) :
    ((v.lines ++ v.newLines m ids).map (·.relationship)).Nodup := by
  rw [List.map_append]
  refine List.nodup_append.mpr ⟨sound.once static, ?_, ?_⟩
  · simp only [newLines, List.map_map]
    exact numbered.nodup_relationships.sublist (List.filter_sublist.map _)
  · rintro _ shown _ brought rfl
    obtain ⟨l, member, same⟩ := List.mem_map.mp brought
    obtain ⟨r, -, -, -, -, new, rfl⟩ := mem_newLines.mp member
    rw [showsRelationship_eq_false] at new
    exact new (by rwa [← same] at shown)

/-- An element comes into a sound view with what surrounds it and with lines between what is
shown then. -/
theorem withElement {next : Nat} (numbered : m.Numbered next) (nested : m.Nested)
    (sound : v.Sound m) (declared : m.Declares id) (withLines : Bool) :
    (v.withElement m id withLines).Sound m := by
  have elements := elements_withElement nested v id withLines
  constructor
  case scope => exact sound.scope
  case distinct =>
    rw [elements]
    refine List.nodup_append.mpr ⟨sound.distinct, nodup_newElements nested, ?_⟩
    rintro x shown y brought rfl
    exact (mem_newElements.mp brought).2 shown
  case declared =>
    intro x member
    rw [elements, List.mem_append] at member
    rcases member with shown | brought
    · exact sound.declared x shown
    · rcases (mem_newElements.mp brought).1 with rfl | ⟨-, above⟩
      · exact declared
      · exact nested.declares_lineage declared (List.mem_cons_of_mem _ above)
  case ends =>
    intro l member
    rw [elements, List.mem_append, List.mem_append]
    rcases mem_lines_withElement withLines member with shown | ⟨-, brought⟩
    · exact (sound.ends l shown).imp .inl .inl
    · obtain ⟨r, -, source, destination, -, -, rfl⟩ := mem_newLines.mp brought
      exact ⟨source, destination⟩
  case shows =>
    intro l member
    rcases mem_lines_withElement withLines member with shown | ⟨-, brought⟩
    · exact sound.shows l shown
    · obtain ⟨r, listed, -, -, -, -, rfl⟩ := mem_newLines.mp brought
      exact ⟨r, listed, rfl, rfl⟩
  case once =>
    intro static
    rcases lines_withElement_cases m v id withLines with lines | ⟨-, lines⟩
    · rw [lines]
      exact sound.once static
    · rw [lines]
      exact once_newLines numbered sound static _
  case plain =>
    intro static l member
    rcases mem_lines_withElement withLines member with shown | ⟨-, brought⟩
    · exact sound.plain static l shown
    · obtain ⟨r, -, -, -, -, -, rfl⟩ := mem_newLines.mp brought
      exact ⟨rfl, rfl⟩
  case ordered =>
    intro dynamic l member
    rcases mem_lines_withElement withLines member with shown | ⟨static, -⟩
    · exact sound.ordered dynamic l shown
    · rw [show v.kind = .dynamic from dynamic] at static
      cases static

/-- A relationship between elements that are shown may be drawn. -/
theorem withRelationship (sound : v.Sound m) (static : v.kind.isStatic) {r : Relationship}
    (member : r ∈ m.relationships) (source : r.source ∈ v.elements)
    (destination : r.destination ∈ v.elements) : (v.withRelationship r).Sound m := by
  unfold View.withRelationship
  split
  case isTrue => exact sound
  case isFalse new =>
    rw [Bool.not_eq_true, showsRelationship_eq_false] at new
    refine { sound with ends := ?_, shows := ?_, once := ?_, plain := ?_, ordered := ?_ }
    · intro l listed
      rcases List.mem_append.mp listed with shown | added
      · exact sound.ends l shown
      · obtain rfl := List.mem_singleton.mp added
        exact ⟨source, destination⟩
    · intro l listed
      rcases List.mem_append.mp listed with shown | added
      · exact sound.shows l shown
      · obtain rfl := List.mem_singleton.mp added
        exact ⟨r, member, rfl, rfl⟩
    · intro _
      rw [List.map_append, List.map_singleton, ← List.concat_eq_append]
      exact (sound.once static).concat new
    · intro _ l listed
      rcases List.mem_append.mp listed with shown | added
      · exact sound.plain static l shown
      · obtain rfl := List.mem_singleton.mp added
        exact ⟨rfl, rfl⟩
    · intro dynamic
      rw [show v.kind = .dynamic from dynamic] at static
      cases static

/-- Nothing but lines goes out. -/
theorem filter_lines (sound : v.Sound m) (keeps : ViewLine → Bool) :
    { v with lines := v.lines.filter keeps }.Sound m where
  scope := sound.scope
  distinct := sound.distinct
  declared := sound.declared
  ends := by
    intro l member
    exact sound.ends l (List.mem_filter.mp member).1
  shows := by
    intro l member
    exact sound.shows l (List.mem_filter.mp member).1
  once := by
    intro static
    exact (sound.once static).sublist (List.filter_sublist.map _)
  plain := by
    intro static l member
    exact sound.plain static l (List.mem_filter.mp member).1
  ordered := by
    intro dynamic l member
    exact sound.ordered dynamic l (List.mem_filter.mp member).1

/-- An element takes its lines with it, so that every line that is left has both its ends. -/
theorem excludeElement (sound : v.Sound m) (id : ElementId) : (v.excludeElement id).Sound m := by
  have lines := sound.filter_lines fun l => !l.touches id
  refine { lines with distinct := ?_, declared := ?_, ends := ?_ }
  · exact sound.distinct.filter _
  · intro x member
    exact sound.declared x (List.mem_filter.mp member).1
  · intro l member
    obtain ⟨shown, apart⟩ := List.mem_filter.mp member
    obtain ⟨source, destination⟩ := sound.ends l shown
    simp only [ViewLine.touches, Bool.not_eq_true', Bool.or_eq_false_iff, beq_eq_false_iff_ne]
      at apart
    simp [View.excludeElement, source, destination, apart]

/-- A line may be appended to a sound dynamic view, which shows its ends from then on. -/
theorem appendLine (sound : v.Sound m) (dynamic : v.kind = .dynamic) {l : ViewLine}
    (shows : l.Shows m) (source : m.Declares l.source) (destination : m.Declares l.destination)
    (order : Option String) : (v.appendLine l order).Sound m := by
  have elements : ∀ x, x ∈ (v.appendLine l order).elements ↔
      x = l.destination ∨ x = l.source ∨ x ∈ v.elements := by
    intro x
    simp only [View.appendLine, mem_insertLast]
  have new : ∀ l' ∈ (v.appendLine l order).lines, l' ∈ v.lines ∨
      ∃ text, l' = { l with order := some text } := by
    intro l' member
    rcases List.mem_append.mp member with shown | added
    · exact .inl shown
    · exact .inr ⟨_, List.mem_singleton.mp added⟩
  have not_static : ¬ v.kind.isStatic := by simp [dynamic, ViewKind.isStatic]
  constructor
  case scope => exact sound.scope
  case distinct => exact nodup_insertLast (nodup_insertLast sound.distinct)
  case declared =>
    intro x member
    rcases (elements x).mp member with rfl | rfl | shown
    · exact destination
    · exact source
    · exact sound.declared x shown
  case ends =>
    intro l' member
    rw [elements, elements]
    rcases new l' member with shown | ⟨text, rfl⟩
    · obtain ⟨source, destination⟩ := sound.ends l' shown
      exact ⟨.inr (.inr source), .inr (.inr destination)⟩
    · exact ⟨.inr (.inl rfl), .inl rfl⟩
  case shows =>
    intro l' member
    rcases new l' member with shown | ⟨text, rfl⟩
    · exact sound.shows l' shown
    · exact shows
  case once => exact fun static => absurd static not_static
  case plain => exact fun static => absurd static not_static
  case ordered =>
    intro _ l' member
    rcases new l' member with shown | ⟨text, rfl⟩
    · exact sound.ordered dynamic l' shown
    · rfl

end Sound

/-- An edit keeps a view sound. -/
theorem Edit.sound {next : Nat} (edit : v.Edit m v') (numbered : m.Numbered next)
    (nested : m.Nested) (sound : v.Sound m) : v'.Sound m := by
  cases edit with
  | retouched same => exact sound.of_picture same
  | element accepted withLines =>
    exact sound.withElement numbered nested (declares_of_check accepted) withLines
  | relationship static member source destination =>
    exact sound.withRelationship static member source destination
  | elementOut id => exact sound.excludeElement id
  | relationshipOut id => exact sound.filter_lines _
  | interaction dynamic shows source destination order =>
    exact sound.appendLine dynamic shows (declares_of_check source)
      (declares_of_check destination) order

/-- An edit keeps all that a view shows accepted. -/
theorem Edit.accepts {next : Nat} (edit : v.Edit m v') (numbered : m.Numbered next)
    (nested : m.Nested) (one : m.OneEnvironment) (accepts : v.Accepts m) : v'.Accepts m := by
  intro x member
  rw [edit.check_eq]
  cases edit with
  | retouched same =>
    obtain ⟨-, -, -, -, elements, -⟩ := picture_eq_iff.mp same
    exact accepts x (elements ▸ member)
  | element accepted withLines =>
    rw [elements_withElement nested, List.mem_append] at member
    rcases member with shown | brought
    · exact accepts x shown
    · rcases (mem_newElements.mp brought).1 with rfl | ⟨deployment, above⟩
      · exact accepted
      · exact check_ancestor numbered nested one deployment accepted above
  | @relationship r =>
    unfold withRelationship at member
    split at member <;> exact accepts x member
  | elementOut id => exact accepts x (List.mem_filter.mp member).1
  | relationshipOut id => exact accepts x member
  | interaction dynamic shows source destination order =>
    simp only [appendLine, mem_insertLast] at member
    rcases member with rfl | rfl | shown
    · exact destination
    · exact source
    · exact accepts x shown

/-- What a view shows stays accepted while the model grows. -/
theorem Accepts.extends_ (accepts : v.Accepts m) (extends_ : m.Extends m') (sound : v.Sound m)
    (deployed : m.DeploysDeclared) : v.Accepts m' := by
  intro id member
  exact check_extends extends_ deployed (fun _ => sound.declares_scope) (accepts id member)

end View

end Edifice
