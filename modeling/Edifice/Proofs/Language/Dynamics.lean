import Edifice.Proofs.Builder.Interactions
import Edifice.Proofs.Language.Courses
import Edifice.Proofs.Text

/-!
How the lines of a dynamic view are told apart.

A line may start with an order, ended by a colon (`OrderedLine`).  What stands after it is an
interaction exactly when an arrow follows its first token, and otherwise names a relationship
of the model.  Either form says what the ends and the texts of the line are
(`Session.Interaction`, `Session.Mention`), and a line is accepted exactly if it has one of the
two (`dynamic_lines_told_apart`).
-/

open Edifice.Change

namespace Edifice

namespace View

variable {m : Model} {v : View}

/-- An interaction passes the checks exactly if both ends have a seat in the view and a line
can be made of it. -/
theorem checkInteraction_eq_ok_iff {source destination : Participant}
    {description technology : String} {l : ViewLine} :
    v.checkInteraction m source destination description technology = .ok l ↔
      v.Seats m source ∧ v.Seats m destination ∧
        interactionLine m source.id destination.id description technology = .ok l := by
  constructor
  · intro answer
    simp only [checkInteraction, Check.then_eq_ok] at answer
    obtain ⟨suits, accepted, suits', accepted', backed⟩ := answer
    exact ⟨⟨suits, accepted⟩, ⟨suits', accepted'⟩, backed⟩
  · rintro ⟨seats, seats', backed⟩
    exact (checkInteraction_of_seats seats seats' description technology).trans backed

end View

namespace Language

/-- The line starts with `order`, which a colon ends, and `rest` follows; or it starts with no
order and is `rest` itself. -/
inductive OrderedLine : Tokens → String → Tokens → Prop where
  | marked {t : Token} {order : String} {rest : Tokens} (mark : t.text = order ++ ":") :
      OrderedLine (t :: rest) order rest
  | unmarked {ts : Tokens} (plain : ∀ order, ts.text 0 ≠ order ++ ":") : OrderedLine ts "" ts

/-- The words that start a setting of a dynamic view, or what such a view does not permit. -/
def settingWords : List String :=
  ["include", "exclude", "title", "description", "autoLayout", "autolayout", "properties"]

/-- The line starts with the word of a setting, and no arrow follows it. -/
def IsSetting (ts : Tokens) : Prop :=
  ts.text 0 ∈ settingWords ∧ ts.isAt 1 arrow = false

namespace Session

/-- The token stands for an element that may take part in interactions. -/
structure NamesParticipant (s : Session) (t : Token) (id : ElementId) : Prop where
  names : s.resolve t = some (.element id)
  kind : ∃ e, s.builder.model.element? id = some e ∧ (e.kind.isStaticStructure ∨ e.kind.isCustom)

/-- The tokens describe `l` as an interaction, and the view accepts it. -/
structure Interaction (s : Session) (v : View) (ts : Tokens) (l : ViewLine) : Prop where
  arrow : ts.isAt 1 arrow
  enough : 3 ≤ ts.length
  few : ts.length ≤ 5
  source : ∃ t, ts[0]? = some t ∧ s.NamesParticipant t l.source
  destination : ∃ t, ts[2]? = some t ∧ s.NamesParticipant t l.destination
  description : l.description = ts.text 3
  technology : l.technology = ts.text 4
  source_accepted : v.check s.builder.model l.source = .ok ()
  destination_accepted : v.check s.builder.model l.destination = .ok ()
  backed : View.interactionLine s.builder.model l.source l.destination l.description
    l.technology = .ok l

/-- The tokens name the relationship of `l`, and the view accepts its ends. -/
structure Mention (s : Session) (v : View) (ts : Tokens) (l : ViewLine) : Prop where
  no_arrow : ts.isAt 1 Edifice.arrow = false
  enough : 1 ≤ ts.length
  few : ts.length ≤ 2
  relationship : ∃ t, ts[0]? = some t ∧ s.resolve t = some (.relationship l.relationship)
  ends : ∃ r, s.builder.model.relationship? l.relationship = some r ∧ l.source = r.source ∧
    l.destination = r.destination
  description : l.description = ts.text 1
  technology : l.technology = ""
  unnumbered : l.order = none
  along : l.response = false
  source_accepted : v.check s.builder.model l.source = .ok ()
  destination_accepted : v.check s.builder.model l.destination = .ok ()

end Session

variable {s s' : Session} {key : String} {ts rest : Tokens} {order : String}
  {colors : ColorReader}
  {numbered : Option String}

/-! ### The parts of a line -/

/-- An order is split off as the line has it; an empty one is none. -/
theorem splitOrder_eq (split : OrderedLine ts order rest) :
    splitOrder ts = (if order = "" then none else some order, rest) := by
  cases split with
  | marked mark =>
    have stripped : Text.stripEnd? orderMark (Tokens.text (_ :: rest) 0) = some order :=
      Text.stripEnd?_eq_some.mpr mark
    simp [splitOrder, stripped]
  | unmarked plain =>
    have stripped : Text.stripEnd? orderMark (ts.text 0) = none :=
      Option.eq_none_iff_forall_ne_some.mpr fun order stripped =>
        plain order (Text.stripEnd?_eq_some.mp stripped)
    simp [splitOrder, stripped]

theorem resolveElement_eq_ok {t : Token} {role : String} {id : ElementId} :
    s.resolveElement t role = .ok id ↔ s.resolve t = some (.element id) := by
  unfold Session.resolveElement
  split <;> simp [*]

theorem resolveRelationship_eq_ok {t : Token} {id : RelationshipId} :
    s.resolveRelationship t = .ok id ↔ s.resolve t = some (.relationship id) := by
  unfold Session.resolveRelationship
  split <;> simp [*]

/-- A participant is described as what its element is. -/
theorem readParticipant_eq_ok {t : Token} {role : String} {p : Participant} :
    readParticipant s t role = .ok p ↔
      s.resolve t = some (.element p.id) ∧
        ∃ e, s.builder.model.element? p.id = some e ∧ p.suits e.kind := by
  simp only [readParticipant, Check.bind_eq_ok, resolveElement_eq_ok, Session.element_eq_ok]
  constructor
  · rintro ⟨id, names, e, known, answer⟩
    split at answer
    case isTrue static =>
      obtain rfl := Except.ok.inj answer
      exact ⟨names, e, known, static⟩
    case isFalse =>
      split at answer
      case isTrue custom =>
        obtain rfl := Except.ok.inj answer
        exact ⟨names, e, known, custom⟩
      case isFalse => cases answer
  · rintro ⟨names, e, known, suits⟩
    refine ⟨p.id, names, e, known, ?_⟩
    cases p with
    | staticStructure id => exact if_pos suits
    | custom id =>
      have custom : e.kind = .customElement := by
        cases kind : e.kind <;> simp_all [Participant.suits, ElementKind.isCustom]
      rw [custom]
      rfl

/-- What may take part is read as a participant. -/
theorem namesParticipant_iff {t : Token} {id : ElementId} (role : String) :
    s.NamesParticipant t id ↔ ∃ p, readParticipant s t role = .ok p ∧ p.id = id := by
  simp only [readParticipant_eq_ok]
  constructor
  · rintro ⟨names, e, known, static | custom⟩
    · exact ⟨.staticStructure id, ⟨names, e, known, static⟩, rfl⟩
    · exact ⟨.custom id, ⟨names, e, known, custom⟩, rfl⟩
  · rintro ⟨p, ⟨names, e, known, suits⟩, rfl⟩
    refine ⟨names, e, known, ?_⟩
    cases p with
    | staticStructure => exact .inl suits
    | custom => exact .inr suits

/-- A participant that is read passes its check. -/
theorem check_of_readParticipant {t : Token} {role : String} {p : Participant}
    (read : readParticipant s t role = .ok p) : p.check s.builder.model = .ok () := by
  obtain ⟨-, e, known, suits⟩ := readParticipant_eq_ok.mp read
  simp [Participant.check, known, suits]

/-! ### The two forms -/

/-- Tokens describe an interaction as the builder checks it. -/
theorem interaction_iff {a b z : Token} {more : Tokens} {v : View} {l : ViewLine}
    (arrow : Tokens.isAt (a :: b :: z :: more) 1 arrow) :
    s.Interaction v (a :: b :: z :: more) l ↔
      more.length ≤ 2 ∧ ∃ source destination,
        readParticipant s a "source element" = .ok source ∧
        readParticipant s z "destination element" = .ok destination ∧
        v.checkInteraction s.builder.model source destination
          (Tokens.text (a :: b :: z :: more) 3) (Tokens.text (a :: b :: z :: more) 4) = .ok l := by
  constructor
  · intro told
    obtain ⟨_, ⟨⟩, names⟩ := told.source
    obtain ⟨_, ⟨⟩, names'⟩ := told.destination
    obtain ⟨source, named, source_eq⟩ := (namesParticipant_iff "source element").mp names
    obtain ⟨destination, named', destination_eq⟩ :=
      (namesParticipant_iff "destination element").mp names'
    have few := told.few
    simp only [List.length_cons] at few
    refine ⟨by omega, source, destination, named, named', ?_⟩
    -- the builder checks again what the participants are
    refine View.checkInteraction_eq_ok_iff.mpr ⟨⟨check_of_readParticipant named, ?_⟩,
      ⟨check_of_readParticipant named', ?_⟩, ?_⟩
    · rw [source_eq]
      exact told.source_accepted
    · rw [destination_eq]
      exact told.destination_accepted
    · rw [source_eq, destination_eq, ← told.description, ← told.technology]
      exact told.backed
  · rintro ⟨few, source, destination, named, named', answer⟩
    obtain ⟨seats, seats', backed⟩ := View.checkInteraction_eq_ok_iff.mp answer
    obtain ⟨source_eq, destination_eq, -⟩ := View.interactionLine_eq_ok backed
    obtain ⟨description, technology⟩ := View.texts_of_interactionLine backed
    exact {
      arrow
      enough := by simp
      few := by simp only [List.length_cons]; omega
      source := ⟨a, rfl, (namesParticipant_iff _).mpr ⟨source, named, source_eq.symm⟩⟩
      destination :=
        ⟨z, rfl, (namesParticipant_iff _).mpr ⟨destination, named', destination_eq.symm⟩⟩
      description
      technology
      source_accepted := source_eq ▸ seats.accepted
      destination_accepted := destination_eq ▸ seats'.accepted
      backed := by rw [source_eq, destination_eq, description, technology]; exact backed }

/-- An interaction is added exactly if the tokens describe it and the view accepts it. -/
theorem executeInteraction_eq_ok (arrow : ts.isAt 1 arrow) :
    executeInteraction s key numbered ts = .ok s' ↔
      ∃ v l, s.builder.dynamicView key = .ok v ∧ s.Interaction v ts l ∧
        s' = s.withBuilder (s.builder.putView key (v.appendLine l numbered)) := by
  unfold executeInteraction
  constructor
  · intro done
    by_cases many : ts.length > 5
    · rw [if_pos many] at done
      cases done
    · rw [if_neg many] at done
      split at done
      case h_2 => cases done
      case h_1 a b z more =>
        simp only [Check.bind_eq_ok, Session.build_eq_ok] at done
        obtain ⟨source, named, destination, named', b', added, rfl⟩ := done
        obtain ⟨v, l, asked, answer, rfl⟩ := Builder.append_eq_ok.mp added
        have few : more.length ≤ 2 := by
          simp only [List.length_cons] at many
          omega
        have told := (interaction_iff arrow).mpr
          ⟨few, source, destination, named, named', answer⟩
        exact ⟨v, l, asked, told, rfl⟩
  · rintro ⟨v, l, asked, told, rfl⟩
    obtain ⟨z, third, -⟩ := told.destination
    obtain ⟨a, b, more, rfl⟩ : ∃ a b more, ts = a :: b :: z :: more := by
      match ts, third with
      | a :: b :: _ :: more, rfl => exact ⟨a, b, more, rfl⟩
    rw [if_neg (Nat.not_lt.mpr told.few)]
    obtain ⟨-, source, destination, named, named', answer⟩ := (interaction_iff arrow).mp told
    refine Check.bind_eq_ok.mpr ⟨source, named, Check.bind_eq_ok.mpr ⟨destination, named', ?_⟩⟩
    exact Session.build_eq_ok.mpr ⟨_, Builder.append_eq_ok.mpr ⟨v, l, asked, answer, rfl⟩, rfl⟩

/-- Tokens name a relationship as the builder checks it. -/
theorem mention_iff {t : Token} {more : Tokens} {v : View} {l : ViewLine}
    (no_arrow : Tokens.isAt (t :: more) 1 arrow = false) :
    s.Mention v (t :: more) l ↔
      more.length ≤ 1 ∧ s.resolve t = some (.relationship l.relationship) ∧
        s.builder.checkRelationshipLine v l.relationship (Tokens.text (t :: more) 1) = .ok l := by
  rw [Builder.checkRelationshipLine_eq_ok]
  constructor
  · intro told
    obtain ⟨_, ⟨⟩, names⟩ := told.relationship
    obtain ⟨r, known, source, destination⟩ := told.ends
    have few := told.few
    simp only [List.length_cons] at few
    refine ⟨by omega, names, r, known, source ▸ told.source_accepted,
      destination ▸ told.destination_accepted, ?_⟩
    obtain ⟨id, a, z, description, technology, order, response⟩ := l
    obtain rfl := told.description
    obtain rfl := told.technology
    obtain rfl := told.unnumbered
    obtain rfl := told.along
    obtain rfl : a = r.source := source
    obtain rfl : z = r.destination := destination
    obtain rfl : r.id = id := (Model.relationship?_eq_some known).2
    rfl
  · rintro ⟨few, names, r, known, accepted, accepted', line⟩
    exact {
      no_arrow
      enough := by simp
      few := by simp only [List.length_cons]; omega
      relationship := ⟨t, rfl, names⟩
      ends := ⟨r, known, by rw [line]; rfl, by rw [line]; rfl⟩
      description := by rw [line]
      technology := by rw [line]; rfl
      unnumbered := by rw [line]; rfl
      along := by rw [line]; rfl
      source_accepted := by rw [line]; exact accepted
      destination_accepted := by rw [line]; exact accepted' }

/-- A relationship is added exactly if the tokens name it and the view accepts its ends. -/
theorem executeRelationshipLine_eq_ok (no_arrow : ts.isAt 1 arrow = false) :
    executeRelationshipLine s key numbered ts = .ok s' ↔
      ∃ v l, s.builder.dynamicView key = .ok v ∧ s.Mention v ts l ∧
        s' = s.withBuilder (s.builder.putView key (v.appendLine l numbered)) := by
  unfold executeRelationshipLine
  constructor
  · intro done
    split at done
    case h_1 => cases done
    case h_2 t more =>
      split at done
      case isTrue => cases done
      case isFalse few =>
        simp only [Check.bind_eq_ok, resolveRelationship_eq_ok, Session.build_eq_ok] at done
        obtain ⟨id, names, b', added, rfl⟩ := done
        obtain ⟨v, l, asked, answer, rfl⟩ := Builder.append_eq_ok.mp added
        obtain ⟨r, known, -, -, line⟩ := Builder.checkRelationshipLine_eq_ok.mp answer
        obtain rfl : l.relationship = id := by
          rw [line]
          exact (Model.relationship?_eq_some known).2
        have single : more.length ≤ 1 := by
          simp only [List.length_cons] at few
          omega
        have told := (mention_iff no_arrow).mpr ⟨single, names, answer⟩
        exact ⟨v, l, asked, told, rfl⟩
  · rintro ⟨v, l, asked, told, rfl⟩
    obtain ⟨t, first, -⟩ := told.relationship
    obtain ⟨more, rfl⟩ : ∃ more, ts = t :: more := by
      match ts, first with
      | _ :: more, rfl => exact ⟨more, rfl⟩
    obtain ⟨-, names, answer⟩ := (mention_iff no_arrow).mp told
    dsimp only
    rw [if_neg (Nat.not_lt.mpr told.few)]
    refine Check.bind_eq_ok.mpr ⟨_, resolveRelationship_eq_ok.mpr names, ?_⟩
    exact Session.build_eq_ok.mpr ⟨_, Builder.append_eq_ok.mpr ⟨v, l, asked, answer, rfl⟩, rfl⟩

/-! ### Lines -/

/-- The session with a line added to the view under a key, under its order or else the next
step number. -/
def Session.withLine (s : Session) (key : String) (v : View) (l : ViewLine) (order : String) :
    Session :=
  s.withBuilder (s.builder.putView key { v with
    elements := insertLast l.destination (insertLast l.source v.elements)
    lines := v.lines ++
      [{ l with order := some (if order = "" then toString v.steps.next.1 else order) }]
    steps := v.steps.next.2 })

/-- An order that is empty is none. -/
theorem appendLine_eq (v : View) (l : ViewLine) (order : String) :
    s.withBuilder (s.builder.putView key
      (v.appendLine l (if order = "" then none else some order))) = s.withLine key v l order := by
  by_cases empty : order = ""
  · simp only [empty, if_true]
    rfl
  · simp only [empty, if_false, Session.withLine]
    rfl

/-- A line is added in the form that its arrow decides. -/
theorem executeDynamicLine_eq_ok {st : Statement} {answer : Option Block × Session}
    (split : OrderedLine st.tokens order rest) :
    executeDynamicLine s key st = .ok answer ↔
      ∃ v l, s.builder.dynamicView key = .ok v ∧ (s.Interaction v rest l ∨ s.Mention v rest l) ∧
        answer = (none, s.withLine key v l order) := by
  unfold executeDynamicLine
  rw [splitOrder_eq split]
  simp only [← appendLine_eq]
  by_cases arrow : rest.isAt 1 arrow
  · rw [if_pos arrow, Check.bind_eq_ok]
    constructor
    · rintro ⟨s', done, ⟨⟩⟩
      obtain ⟨v, l, asked, told, rfl⟩ := (executeInteraction_eq_ok arrow).mp done
      exact ⟨v, l, asked, .inl told, rfl⟩
    · rintro ⟨v, l, asked, told | told, rfl⟩
      · exact ⟨_, (executeInteraction_eq_ok arrow).mpr ⟨v, l, asked, told, rfl⟩, rfl⟩
      · cases arrow.symm.trans told.no_arrow
  · have no_arrow := Bool.of_not_eq_true arrow
    rw [if_neg arrow, Check.bind_eq_ok]
    constructor
    · rintro ⟨s', done, ⟨⟩⟩
      obtain ⟨v, l, asked, told, rfl⟩ := (executeRelationshipLine_eq_ok no_arrow).mp done
      exact ⟨v, l, asked, .inr told, rfl⟩
    · rintro ⟨v, l, asked, told | told, rfl⟩
      · exact absurd told.arrow arrow
      · exact ⟨_, (executeRelationshipLine_eq_ok no_arrow).mpr ⟨v, l, asked, told, rfl⟩, rfl⟩

/-- What is no setting is a line. -/
theorem executeDynamicView_of_not_setting {st : Statement} (line : ¬ IsSetting st.tokens) :
    executeDynamicView s key st = executeDynamicLine s key st := by
  unfold executeDynamicView
  split
  case isTrue => rfl
  case isFalse other =>
    have no_arrow : st.tokens.isAt 1 arrow = false := by
      by_contra arrow
      simp [isDynamicLine, Bool.of_not_eq_false arrow] at other
    have free : st.keyword ∉ settingWords := fun word => line ⟨word, no_arrow⟩
    dsimp only
    split
    case h_1 word | h_2 word | h_3 word | h_4 word | h_5 word | h_6 word | h_7 word =>
      exact absurd (word ▸ by decide) free
    case h_8 => rfl

variable {setting : Setting} {file : Option String} {l : Source.LogicalLine} {line : SourceLine}
  {p p' : Progress} {inclusion : Option Inclusion}

/-- A line that is none of the others runs as a statement, without advice where none is given. -/
theorem readTokens_of_statement (other : closesBlock ts = false)
    (statement : isDirective ts = false)
    (unadvised : ∀ ts, advice p.session.frames.block? ts = []) :
    readTokens setting file l line ts p = .ok (p', inclusion) ↔
      p.session.closed = false ∧ inclusion = none ∧
        ∃ s', runStatement setting.colors p.session (.ofTokens ts) l.number = .ok s' ∧
          p' = { p with session := s' } := by
  unfold readTokens
  by_cases ended : p.session.closed = true
  · rw [if_pos ended]
    exact iff_of_false nofun fun read => by simp [ended] at read
  · rw [if_neg ended, if_neg (by simp [other]), if_neg (by simp [statement])]
    dsimp only
    rw [unadvised]
    have ongoing : p.session.closed = false := Bool.of_not_eq_true ended
    cases ran : runStatement setting.colors p.session (.ofTokens ts) l.number with
    | ok s' =>
      constructor
      · rintro ⟨⟩
        exact ⟨ongoing, rfl, s', rfl, rfl⟩
      · rintro ⟨-, rfl, _, ⟨⟩, rfl⟩
        rfl
    | error d => exact iff_of_false nofun fun ⟨_, _, _, answer, _⟩ => nomatch answer

/-- A statement that ends without a brace runs as it is executed. -/
theorem runStatement_of_no_brace {st : Statement} {line : Nat} (bare : st.opensBlock = false) :
    runStatement colors s st line = .ok s' ↔ ∃ block, executeStatement colors s st = .ok (block, s') := by
  unfold runStatement
  rw [Check.bind_eq_ok]
  constructor
  · rintro ⟨⟨block, s₁⟩, executed, answer⟩
    replace answer : (if st.opensBlock then _ else Except.ok s₁) = Except.ok s' := answer
    rw [bare] at answer
    obtain rfl := Except.ok.inj answer
    exact ⟨block, executed⟩
  · rintro ⟨block, executed⟩
    refine ⟨(block, s'), executed, ?_⟩
    show (if st.opensBlock then _ else Except.ok s') = Except.ok s'
    rw [bare]
    rfl

/-- **Lines of a dynamic view are told apart by their form.**  A line in a dynamic view or in a
parallel sequence that opens no block, and is no directive, closing brace or setting, is
accepted exactly if what stands after its order either has an arrow as its second token, three
to five tokens, and describes an interaction that the view accepts, or has none there, at most
two tokens, and names a relationship whose ends the view accepts.  Then this one line is added
to the view, under the order in front of it unless that is empty, and else under the next step
number; nothing else changes. -/
theorem dynamic_lines_told_apart (setting : Setting) (file : Option String)
    (l : Source.LogicalLine) (line : SourceLine) {ts rest : Tokens} {order key : String}
    {p p' : Progress} {inclusion : Option Inclusion}
    (here : p.session.frames.block? = some (.dynamicView key) ∨
      p.session.frames.block? = some (.parallel key))
    (words : ts ≠ []) (bare : ts.opensBlock = false) (statement : isDirective ts = false)
    (other : closesBlock ts = false) (no_setting : ¬ IsSetting ts)
    (split : OrderedLine ts order rest) :
    readTokens setting file l line ts p = .ok (p', inclusion) ↔
      p.session.closed = false ∧ inclusion = none ∧
        ∃ v l, p.session.builder.dynamicView key = .ok v ∧
          (p.session.Interaction v rest l ∨ p.session.Mention v rest l) ∧
          p' = { p with session := p.session.withLine key v l order } := by
  have unadvised : ∀ ts, advice p.session.frames.block? ts = [] := by
    intro ts
    rcases here with here | here <;> rw [here] <;> rfl
  have own : Statement.ofTokens ts = { tokens := ts, opensBlock := false } := by
    simp [Statement.ofTokens, bare]
  -- in a parallel sequence lines mean what they mean in the view itself
  have executed : executeStatement setting.colors p.session (.ofTokens ts) =
      executeDynamicLine p.session key (.ofTokens ts) := by
    rw [executeStatement, if_neg (by simp [own, words]), executeWords]
    rcases here with here | here <;> rw [here] <;>
      exact executeDynamicView_of_not_setting (by rw [own]; exact no_setting)
  rw [readTokens_of_statement other statement unadvised]
  refine and_congr_right fun _ => and_congr_right fun _ => ?_
  have ran : ∀ s', runStatement setting.colors p.session (.ofTokens ts) l.number = .ok s' ↔
      ∃ block, executeDynamicLine p.session key (.ofTokens ts) = .ok (block, s') := by
    intro s'
    rw [runStatement_of_no_brace (by rw [own]), executed]
  have split' : OrderedLine (Statement.ofTokens ts).tokens order rest := by
    rw [own]
    exact split
  simp only [ran, executeDynamicLine_eq_ok split']
  constructor
  · rintro ⟨s', ⟨block, v, l, asked, told, answer⟩, rfl⟩
    obtain ⟨-, rfl⟩ := Prod.ext_iff.mp answer
    exact ⟨v, l, asked, told, rfl⟩
  · rintro ⟨v, l, asked, told, rfl⟩
    exact ⟨_, ⟨none, v, l, asked, told, rfl⟩, rfl⟩

/-- A dynamic view of the shop is open, in which the shop and its customer have names. -/
def steppingSession : Session :=
  { builder := Builder.tradingShop
    registry := { entries := [⟨[], "shop", .element ⟨1⟩⟩, ⟨[], "customer", .element ⟨3⟩⟩] }
    frames := [{ block := .dynamicView "Steps", scope := [], line := 1, span := .point 0 }] }

/-- The customer orders, in a step that has a number of its own. -/
def orderingLine : Tokens :=
  ["customer", "->", "shop", "Orders", "HTTPS"].map fun word => { text := word, span := .point 0 }

/-- The line with an order in front is an interaction under that order. -/
theorem line_of_shop :
    ∃ p' v l, readTokens {} none { number := 2, offset := 0 }
        { number := 2, offset := 0, content := "" }
        ({ text := "9:", span := .point 0 } :: orderingLine) { session := steppingSession } =
          .ok (p', none) ∧
      steppingSession.builder.dynamicView "Steps" = .ok v ∧
      (steppingSession.Interaction v orderingLine l ∨
        steppingSession.Mention v orderingLine l) ∧
      p' = { session := steppingSession.withLine "Steps" v l "9" } := by
  have accepted : ((readTokens {} none { number := 2, offset := 0 }
      { number := 2, offset := 0, content := "" }
      ({ text := "9:", span := .point 0 } :: orderingLine)
      { session := steppingSession }).toOption.map Prod.snd) = some none := by
    decide +kernel
  obtain ⟨⟨p', inclusion⟩, read, rfl⟩ := Check.toOption_map_eq_some.mp accepted
  have no_setting : ¬ IsSetting ({ text := "9:", span := .point 0 } :: orderingLine) :=
    fun setting => absurd setting.1 (by decide)
  have split : OrderedLine ({ text := "9:", span := .point 0 } :: orderingLine) "9" orderingLine :=
    .marked (by decide)
  have told := (dynamic_lines_told_apart {} none _ _ (.inl rfl) (List.cons_ne_nil _ _)
    (by decide) (by decide) (by decide) no_setting split).mp read
  obtain ⟨-, -, v, l, asked, form, own⟩ := told
  exact ⟨p', v, l, read, asked, form, own⟩

end Language

end Edifice
