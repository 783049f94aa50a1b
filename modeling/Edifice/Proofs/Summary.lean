import Edifice.Proofs.Builder.Containment
import Edifice.Summary
import Mathlib.Data.List.Lex
import Mathlib.Data.List.Nodup
import Mathlib.Data.List.Perm.Subperm

/-!
The outline of a reachable builder.

A walk through a model meets elements one after the other, and all that is inside an element
before the next one (`Model.Walk`).  Nothing bounds how deep it goes, so that there is a walk
at all says that it ends.  What it meets at one level are elements inside of the same ones
(`Model.Level`), and from there on it passes each element below that level once, in the order
of their addresses.  The outline is the one walk that starts with the roots, since more levels
than elements would take an element that is inside itself.
-/

namespace Edifice.Model

variable {m : Model} {depth : Nat} {around : List ElementId} {siblings : List Element}
  {entries : List OutlineEntry} {e x : Element}

/-- A walk that meets the siblings at a depth, one after the other and each followed by all
inside it, passes the entries. -/
inductive Walk (m : Model) : (depth : Nat) → List Element → List OutlineEntry → Prop where
  | done {depth : Nat} : Walk m depth [] []
  | pass {depth : Nat} {e : Element} {siblings : List Element} {inside after : List OutlineEntry}
      (below : Walk m (depth + 1) (m.childrenOf e.id) inside)
      (beside : Walk m depth siblings after) :
      Walk m depth (e :: siblings) ({ depth, element := e } :: inside ++ after)

/-- The numbers of the elements around an element, outermost first, and its own. -/
def address (m : Model) (id : ElementId) : List Nat :=
  (m.lineage id).reverse.map (·.index)

/-- Elements of the model that lie directly inside `around`, in the order of their
declaration. -/
structure Level (m : Model) (around : List ElementId) (siblings : List Element) : Prop where
  members : ∀ e ∈ siblings, e ∈ m.elements
  inside : ∀ e ∈ siblings, m.ancestors e.id = around
  ascend : siblings.Pairwise fun e e' => e.id.index < e'.id.index

/-- There is one walk at most. -/
theorem Walk.unique {entries' : List OutlineEntry} (walk : m.Walk depth siblings entries)
    (walk' : m.Walk depth siblings entries') : entries = entries' := by
  induction walk generalizing entries' with
  | done =>
    cases walk'
    rfl
  | pass _ _ inside after =>
    cases walk' with
    | pass below beside => rw [inside below, after beside]

/-! ### Levels -/

theorem parent?_of_mem {next : Nat} (numbered : m.Numbered next) (member : e ∈ m.elements) :
    m.parent? e.id = e.parent := by
  simp [parent?, numbered.element?_of_mem member]

/-- Whatever ends a lineage is the lineage of its first element. -/
theorem Nested.ancestors_of_suffix (nested : m.Nested) {id inner : ElementId}
    (ends : inner :: around <:+ m.lineage id) : m.ancestors inner = around := by
  induction id using ElementId.induction_older with
  | older id ih =>
    rcases List.suffix_cons_iff.mp ends with whole | further
    · obtain ⟨rfl, rfl⟩ := List.cons.inj whole
      rfl
    · rw [nested.ancestors_eq] at further
      cases inside : m.parent? id with
      | none => simp [inside] at further
      | some parent =>
        rw [inside] at further
        exact ih parent (nested.parent?_older inside) further

/-- The roots are the level outside of all elements. -/
theorem level_roots {next : Nat} (numbered : m.Numbered next) (nested : m.Nested) :
    m.Level [] m.roots where
  members := fun e listed => (List.mem_filter.mp listed).1
  inside := by
    intro e listed
    obtain ⟨member, top⟩ := List.mem_filter.mp listed
    rw [nested.ancestors_eq, parent?_of_mem numbered member, Option.isNone_iff_eq_none.mp top]
  ascend := numbered.elements_ascend.filter _

namespace Level

theorem tail (level : m.Level around (e :: siblings)) : m.Level around siblings where
  members := fun x listed => level.members x (List.mem_cons_of_mem e listed)
  inside := fun x listed => level.inside x (List.mem_cons_of_mem e listed)
  ascend := (List.pairwise_cons.mp level.ascend).2

/-- What is inside an element of a level is a level of its own. -/
theorem children {next : Nat} (numbered : m.Numbered next) (nested : m.Nested)
    (level : m.Level around siblings) (listed : e ∈ siblings) :
    m.Level (e.id :: around) (m.childrenOf e.id) where
  members := fun x listed => (List.mem_filter.mp listed).1
  inside := by
    intro x below
    obtain ⟨member, link⟩ := List.mem_filter.mp below
    rw [nested.ancestors_eq, parent?_of_mem numbered member, beq_iff_eq.mp link]
    exact congrArg (e.id :: ·) (level.inside e listed)
  ascend := numbered.elements_ascend.filter _

/-- An element of a level and all inside it have more around them than the level has. -/
theorem suffix_lineage (level : m.Level around siblings) (listed : e ∈ siblings) :
    e.id :: around <:+ m.lineage e.id := by
  have own : m.lineage e.id = e.id :: around := congrArg (e.id :: ·) (level.inside e listed)
  exact own ▸ List.suffix_refl _

end Level

/-! ### What a walk passes -/

section Passing

variable {next : Nat} (numbered : m.Numbered next) (nested : m.Nested)

include numbered nested

/-- A walk tells how many elements are around each that it passes. -/
theorem Walk.depth_eq (walk : m.Walk (around.length + 1) siblings entries)
    (level : m.Level around siblings) :
    ∀ entry ∈ entries, entry.depth = (m.ancestors entry.element.id).length + 1 := by
  generalize depth_eq : around.length + 1 = depth at walk
  induction walk generalizing around with
  | done => exact List.forall_mem_nil _
  | @pass depth e siblings inside after _ _ below beside =>
    rw [List.cons_append, List.forall_mem_cons, List.forall_mem_append]
    refine ⟨?_, ?_, beside level.tail depth_eq⟩
    · rw [level.inside e List.mem_cons_self, depth_eq]
    · exact below (level.children numbered nested List.mem_cons_self) (by simp [depth_eq])

/-- A walk passes nothing but what it meets and what is inside that. -/
theorem Walk.passes_only (walk : m.Walk depth siblings entries) (level : m.Level around siblings) :
    ∀ entry ∈ entries, entry.element ∈ m.elements ∧
      ∃ e ∈ siblings, e.id :: around <:+ m.lineage entry.element.id := by
  induction walk generalizing around with
  | done => exact List.forall_mem_nil _
  | @pass depth e siblings inside after _ _ below beside =>
    rw [List.cons_append, List.forall_mem_cons, List.forall_mem_append]
    refine ⟨⟨level.members e List.mem_cons_self, e, List.mem_cons_self,
      level.suffix_lineage List.mem_cons_self⟩, fun entry passed => ?_, fun entry passed => ?_⟩
    · obtain ⟨member, c, -, under⟩ :=
        below (level.children numbered nested List.mem_cons_self) entry passed
      exact ⟨member, e, List.mem_cons_self, (List.suffix_cons _ _).trans under⟩
    · obtain ⟨member, e', listed, under⟩ := beside level.tail entry passed
      exact ⟨member, e', List.mem_cons_of_mem e listed, under⟩

omit numbered in
/-- What is inside an element is that element or inside of one of its children. -/
theorem eq_or_exists_child (ends : x.id :: around <:+ m.lineage e.id) :
    e.id = x.id ∨ ∃ c ∈ m.childrenOf x.id, c.id :: x.id :: around <:+ m.lineage e.id := by
  obtain ⟨between, whole⟩ := ends
  rcases List.eq_nil_or_concat between with rfl | ⟨inner, c, rfl⟩
  · exact .inl (List.cons.inj whole).1.symm
  · have under : c :: x.id :: around <:+ m.lineage e.id := ⟨inner, by simpa using whole⟩
    have above := nested.ancestors_of_suffix under
    rw [nested.ancestors_eq] at above
    cases link : m.parent? c with
    | none => simp [link] at above
    | some parent =>
      rw [link] at above
      obtain ⟨rfl, -⟩ := List.cons.inj above
      obtain ⟨y, found, inside⟩ := Option.bind_eq_some_iff.mp link
      obtain ⟨member, rfl⟩ := element?_eq_some found
      exact .inr ⟨y, List.mem_filter.mpr ⟨member, by simp [inside]⟩, under⟩

/-- A walk passes everything that is inside what it meets. -/
theorem Walk.passes_all (walk : m.Walk depth siblings entries) (level : m.Level around siblings)
    (member : x ∈ m.elements) (listed : e ∈ siblings)
    (under : e.id :: around <:+ m.lineage x.id) : x ∈ entries.map (·.element) := by
  induction walk generalizing around e with
  | done => cases listed
  | @pass depth first siblings inside after _ _ below beside =>
    rw [List.cons_append, List.map_cons, List.map_append, List.mem_cons, List.mem_append]
    rcases List.mem_cons.mp listed with rfl | further
    · rcases eq_or_exists_child nested under with same | ⟨c, child, under⟩
      · exact .inl (numbered.element_eq_of_id member (level.members e listed) same)
      · exact .inr (.inl (below (level.children numbered nested listed) child under))
    · exact .inr (.inr (beside level.tail further under))

end Passing

/-! ### The order of a walk -/

theorem address_of_suffix {ids : List ElementId} {id : ElementId}
    (ends : ids <:+ m.lineage id) : ids.reverse.map (·.index) <+: m.address id :=
  (List.reverse_prefix.mpr ends).map _

/-- Of two lists that part ways, the one that goes on with the smaller number comes first. -/
theorem lex_of_prefix {stem l l' : List Nat} {i j : Nat} (first : stem ++ [i] <+: l)
    (second : stem ++ [j] <+: l') (below : i < j) : l < l' := by
  obtain ⟨rest, rfl⟩ := first
  obtain ⟨rest', rfl⟩ := second
  rw [List.append_assoc, List.append_assoc]
  exact List.Lex.append_left _ (.rel below) stem

/-- A list comes before those that go on after it. -/
theorem lex_of_shorter {stem l : List Nat} {i : Nat} (longer : stem ++ [i] <+: l) : stem < l := by
  obtain ⟨rest, rfl⟩ := longer
  have further : List.Lex (· < ·) (stem ++ []) (stem ++ ([i] ++ rest)) :=
    List.Lex.append_left _ .nil stem
  rwa [List.append_nil, ← List.append_assoc] at further

/-- A walk passes what contains others before these, and else what was declared first. -/
theorem Walk.ordered {next : Nat} (numbered : m.Numbered next) (nested : m.Nested)
    (walk : m.Walk depth siblings entries) (level : m.Level around siblings) :
    entries.Pairwise fun x y => m.address x.element.id < m.address y.element.id := by
  induction walk generalizing around with
  | done => exact .nil
  | @pass depth e siblings inside after walkBelow walkBeside below beside =>
    have inner := level.children numbered nested List.mem_cons_self
    -- The address of an entry goes on from that of the sibling it is under.
    have stem : ∀ {e' x : Element}, e'.id :: around <:+ m.lineage x.id →
        around.reverse.map (·.index) ++ [e'.id.index] <+: m.address x.id := by
      intro e' x under
      simpa using address_of_suffix under
    have later : ∀ x : Element, e.id :: around <:+ m.lineage x.id → ∀ y ∈ after,
        m.address x.id < m.address y.element.id := by
      intro x under y passed
      obtain ⟨-, e', listed, under'⟩ := walkBeside.passes_only numbered nested level.tail y passed
      have older := (List.pairwise_cons.mp level.ascend).1 e' listed
      exact lex_of_prefix (stem under) (stem under') older
    have own := level.suffix_lineage (e := e) List.mem_cons_self
    rw [List.cons_append, List.pairwise_cons, List.pairwise_append]
    refine ⟨fun y passed => ?_, below inner, beside level.tail, fun x passed => ?_⟩
    · rcases List.mem_append.mp passed with passed | passed
      · obtain ⟨-, c, -, under⟩ := walkBelow.passes_only numbered nested inner y passed
        have address : m.address e.id = (e.id :: around).reverse.map (·.index) := by
          rw [address, lineage, level.inside e List.mem_cons_self]
        rw [address]
        exact lex_of_shorter (i := c.id.index) (by simpa using address_of_suffix under)
      · exact later e own y passed
    · obtain ⟨-, c, -, under⟩ := walkBelow.passes_only numbered nested inner x passed
      exact later x.element ((List.suffix_cons _ _).trans under)

/-! ### The outline -/

section Outline

variable {next : Nat} (numbered : m.Numbered next) (nested : m.Nested)

include numbered nested

omit numbered in
/-- No element has as many others around it as there are elements. -/
theorem ancestors_length_lt (member : e ∈ m.elements) :
    (m.ancestors e.id).length < m.elements.length := by
  have distinct : (m.lineage e.id).Nodup :=
    (nested.ancestors_descend e.id).imp fun older same => by simp [same] at older
  have declared : m.lineage e.id ⊆ m.elements.map (·.id) := by
    intro id listed
    rcases List.mem_cons.mp listed with rfl | above
    · exact List.mem_map_of_mem member
    · obtain ⟨child, link⟩ := nested.exists_child above
      obtain ⟨_, _, _, p, member, rfl, -⟩ := nested.parent?_spec link
      exact List.mem_map_of_mem member
  simpa [lineage, Nat.succ_le_iff] using (List.subperm_of_subset distinct declared).length_le

/-- As many levels as there are elements left are enough. -/
theorem walk_outlineFrom {limit : Nat} (enough : limit + around.length = m.elements.length)
    (level : m.Level around siblings) :
    m.Walk depth siblings (siblings.flatMap (m.outlineFrom limit depth)) := by
  induction limit generalizing depth around siblings with
  | zero =>
    cases siblings with
    | nil => exact .done
    | cons e siblings =>
      have room := ancestors_length_lt nested (level.members e List.mem_cons_self)
      rw [level.inside e List.mem_cons_self] at room
      omega
  | succ limit ih =>
    induction siblings with
    | nil => exact .done
    | cons e siblings others =>
      have inner := level.children numbered nested (e := e) List.mem_cons_self
      rw [List.flatMap_cons, outlineFrom]
      exact .pass (ih (by rw [List.length_cons]; omega) inner) (others level.tail)

/-- The outline is the walk that starts with the roots. -/
theorem walk_outline : m.Walk 1 m.roots m.outline :=
  walk_outlineFrom numbered nested rfl (level_roots numbered nested)

/-- Every element is inside of a root, or is one. -/
theorem exists_root (member : x ∈ m.elements) : ∃ e ∈ m.roots, [e.id] <:+ m.lineage x.id := by
  generalize own : x.id = id
  induction id using ElementId.induction_older generalizing x with
  | older id ih =>
    subst own
    rw [lineage, nested.ancestors_eq, parent?_of_mem numbered member]
    cases inside : x.parent with
    | none => exact ⟨x, List.mem_filter.mpr ⟨member, by simp [inside]⟩, List.suffix_refl _⟩
    | some parent =>
      obtain ⟨p, listed, rfl, older, -⟩ := (nested x member).inside_older parent inside
      obtain ⟨e, root, under⟩ := ih p.id older listed rfl
      exact ⟨e, root, under.trans (List.suffix_cons _ _)⟩

/-- Every element has a place in the outline, found by going down from its root. -/
theorem mem_outline : x ∈ m.outline.map (·.element) ↔ x ∈ m.elements := by
  have walk := walk_outline numbered nested
  have level := level_roots numbered nested
  constructor
  · intro passed
    obtain ⟨entry, listed, rfl⟩ := List.mem_map.mp passed
    exact (walk.passes_only numbered nested level entry listed).1
  · intro member
    obtain ⟨e, root, under⟩ := exists_root numbered nested member
    exact walk.passes_all numbered nested level member root under

/-- The outline has every element of the model once. -/
theorem outline_perm : (m.outline.map (·.element)).Perm m.elements := by
  have ordered := (walk_outline numbered nested).ordered numbered nested
    (level_roots numbered nested)
  have distinct : (m.outline.map (·.element)).Nodup := by
    refine List.Pairwise.map _ (fun x y other => other) (ordered.imp fun {x y} before same => ?_)
    rw [same] at before
    exact lt_irrefl _ before
  have declared : m.elements.Nodup := List.Nodup.of_map _ numbered.nodup_elements
  exact (List.perm_ext_iff_of_nodup distinct declared).mpr fun x => mem_outline numbered nested

end Outline

end Edifice.Model

namespace Edifice.Builder

variable {b : Builder}

/-- **The summary lists every element once, below what contains it.**  Under the heading
`Elements` of the summary of a reachable builder stand as many lines as the heading counts, one
for each element.  They are those of the walk that meets the elements without parent and, after
each element, what is directly inside it, both in the order of their declaration; this walk
ends, and what it passes are all elements in the order of their addresses.  A line is indented
by two spaces and two more for each element around its own. -/
theorem summary_of_reachable (reachable : b.Reachable) :
    ∃ entries : List OutlineEntry,
      b.finish.summaryLines = Summary.titleLines b.finish ++
        ["", Summary.heading "Elements" entries.length] ++ entries.map Summary.elementLine ++
          (Summary.relationshipLines b.model ++ Summary.viewLines b.finish ++
            Summary.decisionLines b.finish) ∧
      (∀ others, b.model.Walk 1 b.model.roots others ↔ others = entries) ∧
      (entries.map (·.element)).Perm b.model.elements ∧
      (entries.Pairwise fun x y =>
        b.model.address x.element.id < b.model.address y.element.id) ∧
      ∀ entry ∈ entries, ∃ details,
        Summary.elementLine entry =
          String.ofList (List.replicate
            (2 * (b.model.ancestors entry.element.id).length + 2) ' ') ++
              entry.element.kind.keyword ++ " " ++ entry.element.name ++ details := by
  have numbered := reachable.grown.numbered
  have nested := reachable.grown.nested
  have walk := Model.walk_outline numbered nested
  have level := Model.level_roots numbered nested
  have perm := Model.outline_perm numbered nested
  refine ⟨b.model.outline, ?_, fun others => ⟨fun walk' => walk'.unique walk, ?_⟩, perm,
    walk.ordered numbered nested level, fun entry passed => ?_⟩
  · have count : b.model.outline.length = b.model.elements.length := by
      simpa using perm.length_eq
    simp only [Workspace.summaryLines, Summary.elementLines, count, List.append_assoc]
    rfl
  · rintro rfl
    exact walk
  · have depth : entry.depth = (b.model.ancestors entry.element.id).length + 1 := by
      refine Model.Walk.depth_eq numbered nested ?_ level entry passed
      exact walk
    rw [Summary.elementLine, depth, Nat.mul_add, String.append_assoc]
    exact ⟨_, rfl⟩

/-- The containers of the shop follow it, and so do those deployed on its server. -/
theorem summary_of_shop :
    shop.Reachable ∧ shop.model.Walk 1 shop.model.roots shop.model.outline ∧
      (shop.model.outline.map (·.element)).Perm shop.model.elements ∧
      shop.model.outline.map Summary.elementLine =
        ["  softwareSystem Shop", "    container Web", "    container Store", "  person Customer",
          "  deploymentNode Server", "    containerInstance Web",
          "    containerInstance Store"] := by
  obtain ⟨entries, -, walks, perm, -⟩ := summary_of_reachable reachable_shop
  obtain rfl : shop.model.outline = entries :=
    (walks _).mp (Model.walk_outline reachable_shop.grown.numbered reachable_shop.grown.nested)
  exact ⟨reachable_shop, (walks _).mpr rfl, perm, by decide +kernel⟩

end Edifice.Builder
