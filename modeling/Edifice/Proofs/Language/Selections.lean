import Edifice.Proofs.Builder.Exclusions
import Edifice.Proofs.Builder.Filters
import Edifice.Proofs.Language.Readings

/-!
The `include` and `exclude` statements of static views.

Every line of a reading keeps the session coherent (`Session.Advances.reads`), so what is said
of the views of reachable builders holds in every session that a reading comes to.  A
statement makes the changes of its expressions one after the other on the same view; what its
expressions stand for depends on names alone, so the same statement can be read again after it.
-/

namespace Edifice.Language

open Check
open Builder (LeadsMatching)

namespace Session

variable {s s' : Session} {setting : Setting} {key : String} {v : View}

/-! ### Sessions of a reading -/

/-- A line keeps a session coherent. -/
theorem Advances.reads {ts : Tokens} (advances : s.Advances setting ts s') (coherent : s.Coherent) :
    s.Reads s' := by
  obtain ⟨file, inclusion, performs⟩ := advances.performs
  cases performs with
  | closes _ closed => exact (coherent.closeBlock ts).gives s' closed
  | directs _ _ executed =>
    exact ((yields_executeDirective coherent ts file).gives _ executed).reads coherent
  | runs _ _ ran => exact (yields_runStatement coherent _ _).gives s' ran

/-- A course of lines keeps a session coherent, line by line. -/
theorem Course.reads (course : s.Course setting s') (coherent : s.Coherent) : s.Reads s' := by
  induction course with
  | refl => exact ⟨coherent, .refl⟩
  | tail _ step ih =>
    obtain ⟨ts, advances⟩ := step
    have reads := advances.reads ih.coherent
    exact ⟨reads.coherent, ih.run.trans reads.run⟩

def wordTokens (words : List String) : Tokens :=
  words.map fun text => { text, span := .point 0 }

def readWords (p : Progress) (words : List String) : Except Failure Progress :=
  (readTokens {} none { number := 1, offset := 0 } { number := 1, offset := 0, content := "" }
    (wordTokens words) p).map Prod.fst

theorem advances_readWords {p : Progress} (words : List String) :
    Gives (readWords p words) fun p' =>
      p.session.Advances {} (wordTokens words) p'.session :=
  .map fun answer read => ⟨none, _, _, p, answer.1, answer.2, read, rfl, rfl⟩

theorem course_readWords {p : Progress} (lines : List (List String)) :
    Gives (lines.foldlM readWords p) fun p' => p.session.Course {} p'.session := by
  refine .foldlM (fun words p₁ course p' read => ?_) .refl
  exact course.tail ⟨_, advances_readWords words p' read⟩

/-- What the reading of a source comes to whose lines are the given words, as long as none of
them includes a source. -/
def afterLines (lines : List (List String)) : Except Failure Progress :=
  lines.foldlM (fun p words =>
    (readTokens {} none { number := 1, offset := 0 } { number := 1, offset := 0, content := "" }
      (wordTokens words) p).map Prod.fst) { session := .start {} }

theorem course_afterLines (lines : List (List String)) :
    Gives (afterLines lines) fun p => (Session.start {}).Course {} p.session :=
  course_readWords lines

/-! ### Exclusions -/

/-- Exclusions made one after the other filter the view at once. -/
theorem foldlM_excludeSelection (coherent : s.Coherent) (found : s.builder.view key = .ok v)
    (static : v.kind ≠ .dynamic) (selections : List (Selection × Span)) :
    selections.foldlM (fun s (selection, span) =>
        s.build span (Builder.excludeSelection key selection)) s =
      .ok (s.withBuilder (s.builder.putView key
        (v.without s.builder.model (selections.map Prod.fst)))) := by
  induction selections generalizing s v with
  | nil =>
    rw [List.map_nil, View.without_nil, Builder.putView_found found]
    rfl
  | cons first rest ih =>
    obtain ⟨selection, span⟩ := first
    have has : s.builder.Has (.view key) := ⟨v, found⟩
    have built : s.build span (Builder.excludeSelection key selection) =
        .ok (s.withBuilder (s.builder.putView key (v.without s.builder.model [selection]))) :=
      build_eq_ok.mpr ⟨_, Builder.excludeSelection_eq coherent.reachable found static, rfl⟩
    have follows :=
      (coherent.build (Builder.safe_excludeSelection coherent.reachable has) span).gives _ built
    have found' := Builder.view_putView_self s.builder key
      (v.without s.builder.model [selection])
    have later := ih follows.coherent found' static
    simp only [withBuilder, Builder.putView_putView] at later
    have once : (v.without s.builder.model [selection]).without s.builder.model
        (rest.map Prod.fst) = v.without s.builder.model (selection :: rest.map Prod.fst) :=
      View.without_without [selection] _
    rw [List.foldlM_cons]
    refine bind_eq_ok.mpr ⟨_, built, later.trans ?_⟩
    exact congrArg (fun w => Except.ok (s.withBuilder (s.builder.putView key w))) once

/-- Excluding what several expressions select is to filter the view once. -/
theorem excludeAll_eq (coherent : s.Coherent) (found : s.builder.view key = .ok v)
    (static : v.kind ≠ .dynamic) {ts : Tokens} {selections : List (Selection × Span)}
    (read : readExpressions s ts = .ok selections) :
    s.excludeAll key ts = .ok (s.withBuilder (s.builder.putView key
      (v.without s.builder.model (selections.map Prod.fst)))) :=
  bind_eq_ok.mpr ⟨selections, read, foldlM_excludeSelection coherent found static selections⟩

theorem executeStaticView_exclude {st : Statement} (keyword : st.keyword = "exclude")
    (given : 1 < st.tokens.length) :
    executeStaticView s key st = s.excludeAll key (st.tokens.drop 1) >>= Session.done := by
  simp only [executeStaticView, keyword]
  rw [if_neg (Nat.not_le.mpr given)]

/-- **Excluding is exact, and is done once and for all.**  In a static view, in every session
that a reading comes to, an expression that is excluded leaves of the elements those that it
does not match and of the lines those that it does not match and that touch none of the
elements it matches, each in the order in which they were.  So does a statement of several
expressions with all of them; it is not refused once its expressions are read, and the same
statement once more changes nothing. -/
theorem exclusion_is_exact {s₀ : Session} (prepared : s₀.Prepared) (course : s₀.Course setting s)
    (found : s.builder.view key = .ok v) (static : v.kind ≠ .dynamic) :
    (∀ selection, Builder.excludeSelection key selection s.builder =
      .ok () (s.builder.putView key (v.without s.builder.model [selection]))) ∧
    ∀ (st : Statement) selections, st.keyword = "exclude" → 1 < st.tokens.length →
      readExpressions s (st.tokens.drop 1) = .ok selections →
        ∃ s', s' = s.withBuilder (s.builder.putView key
            (v.without s.builder.model (selections.map Prod.fst))) ∧
          executeStaticView s key st = .ok (none, s') ∧
          executeStaticView s' key st = .ok (none, s') := by
  have coherent := (course.reads prepared.coherent).coherent
  refine ⟨fun selection => Builder.excludeSelection_eq coherent.reachable found static, ?_⟩
  intro st selections keyword given read
  let w := v.without s.builder.model (selections.map Prod.fst)
  let s' := s.withBuilder (s.builder.putView key w)
  have excluded : s.excludeAll key (st.tokens.drop 1) = .ok s' :=
    excludeAll_eq coherent found static read
  have has : s.builder.Has (.view key) := ⟨v, found⟩
  have coherent' : s'.Coherent :=
    ((yields_excludeAll coherent has _).gives s' excluded).coherent
  have found' : s'.builder.view key = .ok w :=
    Builder.view_putView_self ..
  have again : s'.excludeAll key (st.tokens.drop 1) = .ok s' := by
    rw [excludeAll_eq coherent' found' static read]
    show Except.ok (s.withBuilder ((s.builder.putView key w).putView key (w.without _ _))) = _
    rw [Builder.putView_putView]
    exact congrArg (fun w => Except.ok (s.withBuilder (s.builder.putView key w)))
      (View.without_twice _)
  refine ⟨s', rfl, ?_, ?_⟩
  · rw [executeStaticView_exclude keyword given, excluded]
    rfl
  · rw [executeStaticView_exclude keyword given, again]
    rfl

/-- A shop, its customer and a guest, as far as a view of them has been filled. -/
def mapLines : List (List String) :=
  [["workspace", "\x7b"], ["model", "\x7b"], ["shop", "=", "softwareSystem", "Shop"],
    ["customer", "=", "person", "Customer"], ["guest", "=", "person", "Guest"],
    ["customer", "->", "shop", "Uses"], ["guest", "->", "shop", "Visits"], ["\x7d"],
    ["views", "\x7b"], ["systemLandscape", "Map", "\x7b"], ["include", "*"]]

/-- The guest goes out of the view, and all that the customer uses. -/
def thinningStatement : Statement :=
  .ofTokens (wordTokens ["exclude", "guest", "customer->"])

/-- What is left is the shop and its customer without a line between them, also when the
statement is read once more. -/
theorem exclusion_of_map :
    ∃ p s', afterLines mapLines = .ok p ∧
      executeStaticView p.session "Map" thinningStatement = .ok (none, s') ∧
      executeStaticView s' "Map" thinningStatement = .ok (none, s') ∧
      ((s'.builder.view "Map").map fun v => (v.elements, v.lines)).toOption =
        some ([⟨1⟩, ⟨2⟩], []) := by
  have left : (do
      let p ← (afterLines mapLines).toOption
      let v ← (p.session.builder.view "Map").toOption
      let selections ← (readExpressions p.session (thinningStatement.tokens.drop 1)).toOption
      let w := v.without p.session.builder.model (selections.map Prod.fst)
      return (v.kind, w.elements, w.lines)) =
        some (.systemLandscape, [⟨1⟩, ⟨2⟩], []) := by decide +kernel
  simp only [Option.bind_eq_bind, Option.bind_eq_some_iff, toOption_eq_some, Option.pure_def,
    Option.some.injEq, Prod.mk.injEq] at left
  obtain ⟨p, answer, v, found, selections, read, kind, elements, lines⟩ := left
  have course := course_afterLines mapLines p answer
  have static : v.kind ≠ .dynamic := by simp [kind]
  obtain ⟨s', rfl, excluded, again⟩ := (exclusion_is_exact (.start {}) course found static).2
    thinningStatement selections rfl (by decide) read
  refine ⟨p, _, answer, excluded, again, ?_⟩
  rw [withBuilder, Builder.view_putView_self]
  simp [elements, lines, Except.toOption, Except.map]

/-! ### Filters of relationships -/

/-- Where the deployment trees lie in one environment each when a reading begins, every view
accepts what it shows in all sessions that the reading comes to. -/
theorem Course.accepts {s₀ : Session} (course : s₀.Course setting s) (coherent : s₀.Coherent)
    (one : s₀.builder.model.OneEnvironment) (found : s.builder.view key = .ok v) :
    v.Accepts s.builder.model := by
  have reads := course.reads coherent
  have one' := (reads.run.matching coherent.grown).oneEnvironment coherent.grown one
  have formed := reads.coherent.reachable.wellFormed one' (Builder.mem_of_view found)
  intro id shown
  obtain ⟨w, found', accepted⟩ := Builder.checkViewElement_eq_ok.mp (formed.accepted id shown)
  obtain rfl := Except.ok.inj (formed.found.symm.trans found')
  exact accepted

theorem executeStaticView_include {st : Statement} (keyword : st.keyword = "include")
    (given : 1 < st.tokens.length) :
    executeStaticView s key st = s.includeAll key (st.tokens.drop 1) >>= Session.done := by
  simp only [executeStaticView, keyword]
  rw [if_neg (Nat.not_le.mpr given)]

/-- **A filter of relationships draws those that it describes between the elements shown.**
In a static view, in every session that a reading comes to which begins where deployment trees
lie in one environment each, as they do where nothing is declared yet: including a filter of
relationships is not refused.  It adds the lines of the relationships that the filter
describes, whose ends are shown and which are not, each once and in the order of the model.
In a deployment view what is around their ends comes in as far as it is not shown; so the
elements stay as they are where all of that is shown, in every view of another kind, and only
there. -/
theorem relationship_filters_draw {s₀ : Session} (prepared : s₀.Prepared)
    (one : s₀.builder.model.OneEnvironment) (course : s₀.Course setting s)
    (found : s.builder.view key = .ok v) (static : v.kind ≠ .dynamic) {x : Selection}
    (filter : x.isRelationshipFilter) :
    ∃ v', Builder.includeSelection key x s.builder = .ok () (s.builder.putView key v') ∧
      (∀ (st : Statement) span, st.keyword = "include" → 1 < st.tokens.length →
        readExpressions s (st.tokens.drop 1) = .ok [(x, span)] →
          executeStaticView s key st = .ok (none, s.withBuilder (s.builder.putView key v'))) ∧
      v'.lines = v.lines ++ (s.builder.model.relationships.filter fun r =>
        v.Picks x r ∧ ¬ v.showsRelationship r.id).map .ofRelationship ∧
      v.Widens s.builder.model (v.Surrounds s.builder.model x) v' ∧
      (v'.elements = v.elements ↔
        ∀ y, v.Surrounds s.builder.model x y → y ∈ v.elements) := by
  have grown := (course.reads prepared.coherent).coherent.grown
  have accepts := course.accepts prepared.coherent one found
  have drawn := Builder.includeSelection_of_filter grown found static accepts filter
  have widens := View.widens_drawing (v := v) (s := x) grown.nested
  refine ⟨_, drawn, ?_, View.lines_drawing grown.numbered, widens, widens.elements_eq_iff⟩
  intro st span keyword given read
  have built : s.build span (Builder.includeSelection key x) =
      .ok (s.withBuilder (s.builder.putView key (v.drawing s.builder.model x))) :=
    build_eq_ok.mpr ⟨_, drawn, rfl⟩
  rw [executeStaticView_include keyword given]
  refine bind_eq_ok.mpr ⟨_, bind_eq_ok.mpr ⟨_, read, ?_⟩, rfl⟩
  exact bind_eq_ok.mpr ⟨_, built, rfl⟩

def thinnedLines : List (List String) :=
  mapLines ++ [["exclude", "customer->"]]

/-- All relationships between what is shown are included. -/
def drawingStatement : Statement :=
  .ofTokens (wordTokens ["include", "relationship==*"])

/-- What the customer uses comes back after the other line, and the elements stay as they
are. -/
theorem filter_of_map :
    ∃ p s', afterLines thinnedLines = .ok p ∧
      executeStaticView p.session "Map" drawingStatement = .ok (none, s') ∧
      ((s'.builder.view "Map").map fun v => (v.elements, v.lines.map (·.relationship))).toOption =
        some ([⟨1⟩, ⟨2⟩, ⟨3⟩], [⟨5⟩, ⟨4⟩]) := by
  have shown : (do
      let p ← (afterLines thinnedLines).toOption
      let v ← (p.session.builder.view "Map").toOption
      let selections ← (readExpressions p.session (drawingStatement.tokens.drop 1)).toOption
      let new := p.session.builder.model.relationships.filter fun r =>
        v.Picks .allRelationships r ∧ ¬ v.showsRelationship r.id
      let lines := v.lines ++ new.map .ofRelationship
      return (selections, v.kind, v.elements, lines.map (·.relationship))) =
      some ([(.allRelationships, .point 0)], .systemLandscape, [⟨1⟩, ⟨2⟩, ⟨3⟩], [⟨5⟩, ⟨4⟩]) := by
    decide +kernel
  simp only [Option.bind_eq_bind, Option.bind_eq_some_iff, toOption_eq_some, Option.pure_def,
    Option.some.injEq, Prod.mk.injEq] at shown
  obtain ⟨p, answer, v, found, _, read, rfl, kind, elements, ids⟩ := shown
  have one : (Session.start {}).builder.model.OneEnvironment := by
    rintro e ⟨⟩
  have static : v.kind ≠ .dynamic := by simp [kind]
  obtain ⟨v', -, drawn, lines, widens, same⟩ := relationship_filters_draw (.start {}) one
    (course_afterLines thinnedLines p answer) found static (x := .allRelationships) rfl
  have kept : v'.elements = v.elements := same.mpr fun y surrounds => by
    simp [View.Surrounds, kind] at surrounds
  refine ⟨p, _, answer, drawn drawingStatement (.point 0) rfl (by decide) read, ?_⟩
  rw [withBuilder, Builder.view_putView_self]
  simp only [Except.map, Except.toOption, kept, elements, lines, ids]

/-- Two systems on one server, which is taken out of the view of them. -/
def serverlessLines : List (List String) :=
  [["workspace", "\x7b"], ["model", "\x7b"], ["a", "=", "softwareSystem", "A"],
    ["b", "=", "softwareSystem", "B"], ["a", "->", "b", "Uses"],
    ["deploymentEnvironment", "Live", "\x7b"], ["server", "=", "deploymentNode", "Server", "\x7b"],
    ["softwareSystemInstance", "a"], ["softwareSystemInstance", "b"], ["\x7d"], ["\x7d"], ["\x7d"],
    ["views", "\x7b"], ["deployment", "*", "Live", "Places", "\x7b"], ["include", "*"],
    ["exclude", "server"]]

/-- A filter of relationships may change the elements: the server comes back into the view,
because what runs on it is related. -/
theorem filters_bring_nodes :
    ¬ ∀ (s : Session) key v x b', (Session.start {}).Course {} s → s.builder.view key = .ok v →
      v.kind ≠ .dynamic → x.isRelationshipFilter →
        Builder.includeSelection key x s.builder = .ok () b' →
          (b'.view key).map (·.elements) = .ok v.elements := by
  intro always
  have shown : (do
      let p ← (afterLines serverlessLines).toOption
      let v ← (p.session.builder.view "Places").toOption
      let include_ := Builder.includeSelection "Places" .allRelationships
      let done ← (include_.answer p.session.builder).toOption
      let w ← ((include_.after p.session.builder).view "Places").toOption
      return (done, v.kind, v.elements, w.elements)) =
      some ((), .deployment, [⟨5⟩, ⟨6⟩], [⟨5⟩, ⟨6⟩, ⟨4⟩]) := by decide +kernel
  simp only [Option.bind_eq_bind, Option.bind_eq_some_iff, toOption_eq_some, Option.pure_def,
    Option.some.injEq, Prod.mk.injEq] at shown
  obtain ⟨p, answer, v, found, _, done, w, found', -, kind, elements, elements'⟩ := shown
  have same := always p.session "Places" v .allRelationships _
    (course_afterLines serverlessLines p answer) found (by simp [kind]) rfl
    (Change.answer_eq_ok.mp done)
  rw [found'] at same
  simp [Except.map, elements, elements'] at same

end Session

end Edifice.Language
