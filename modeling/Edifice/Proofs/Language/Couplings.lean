import Edifice.Proofs.Identifier.Names
import Edifice.Proofs.Language.Dynamics
import Edifice.Proofs.Source.Offsets

/-!
How couplings are told apart.

An arrow in front of a name or behind it makes a coupling of an expression.  Neither a name nor
a path holds the head of an arrow (`Identifier.plain_of_segments`), so the arrows that are
taken off are those that were put on, even where the name ends in a hyphen.  What stands between
two arrows can be cut out by counting bytes: the cut falls between two characters of every text
that has more between them than an arrow of its own (`couplingAt?_eq`).
-/

namespace Edifice

/-! ### Names and paths -/

namespace Identifier

/-- A character that can stand in an identifier or in a path. -/
def isPathChar (c : Char) : Bool :=
  isIdentifierChar c || c == pathMark

/-- A path of identifiers is not empty, and no other characters stand in it. -/
theorem plain_of_segments {p : String} (valid : ∀ n ∈ segments p, isValid n = true) :
    p ≠ "" ∧ ∀ c ∈ p.toList, isPathChar c = true := by
  constructor
  · rintro rfl
    exact absurd (valid "" (by decide)) (by decide)
  · intro c mem
    by_cases mark : c = pathMark
    · simp [isPathChar, mark]
    · obtain ⟨n, listed, mem⟩ := Text.exists_piece_of_mem mem mark
      have letters : ∀ c ∈ n.toList, isIdentifierChar c = true := by
        have valid_n := valid n listed
        simp only [isValid, Bool.and_eq_true, List.all_eq_true] at valid_n
        exact valid_n.2
      simp [isPathChar, letters c mem]

theorem not_mem_of_plain {p : String} {c : Char} (plain : ∀ c ∈ p.toList, isPathChar c = true)
    (other : isPathChar c = false) : c ∉ p.toList :=
  fun mem => Bool.false_ne_true (other.symm.trans (plain c mem))

end Identifier

namespace Language

open Source (byteCount)

variable {s : Session} {p text property : String} {id : ElementId} {span : Span}

/-! ### Arrows at the ends -/

section Arrows

variable (some_text : p ≠ "") (headless : '>' ∉ p.toList)

include some_text headless

/-- A path does not start with an arrow, as no arrow is made of its characters. -/
theorem stripStart?_arrow_append : Text.stripStart? arrow (p ++ arrow) = none := by
  refine Text.stripStart?_eq_none.mpr fun starts => ?_
  rw [String.toList_append] at starts
  cases letters : p.toList with
  | nil => exact some_text (String.toList_eq_nil_iff.mp letters)
  | cons c cs =>
    -- Behind a single letter stands the hyphen of the arrow, and no head behind more.
    rw [letters] at headless starts
    cases cs with
    | nil => simp [arrow] at starts
    | cons d ds => simp_all [arrow]

/-- A path does not end with an arrow. -/
theorem stripEnd?_append_arrow : Text.stripEnd? arrow (arrow ++ p) = none := by
  refine Option.eq_none_iff_forall_ne_some.mpr fun rest ends => headless ?_
  have whole := congrArg String.toList (Text.stripEnd?_eq_some.mp ends)
  rw [String.toList_append, String.toList_append] at whole
  obtain ⟨c, last⟩ : ∃ c, p.toList.getLast? = some c :=
    ⟨_, List.getLast?_eq_some_getLast (mt String.toList_eq_nil_iff.mp some_text)⟩
  obtain rfl : c = '>' := by
    have ends := congrArg List.getLast? whole
    rw [List.getLast?_append, List.getLast?_append, last] at ends
    exact Option.some.inj ends
  exact List.mem_of_getLast? last

omit some_text in
theorem stripStart?_arrow : Text.stripStart? arrow p = none := by
  refine Text.stripStart?_eq_none.mpr fun starts => headless (starts.subset ?_)
  simp [arrow]

omit some_text in
theorem stripEnd?_arrow : Text.stripEnd? arrow p = none := by
  refine Option.eq_none_iff_forall_ne_some.mpr fun rest ends => headless ?_
  rw [Text.stripEnd?_eq_some.mp ends]
  simp [arrow]

end Arrows

/-! ### Couplings of a name -/

section Names

variable (some_text : p ≠ "") (headless : '>' ∉ p.toList)

include some_text headless

theorem coupling?_afferent : coupling? (arrow ++ p) = some (p, .afferent) := by
  have start : Text.stripStart? arrow (arrow ++ p) = some p := Text.stripStart?_eq_some.mpr rfl
  simp only [coupling?, start, stripEnd?_append_arrow some_text headless]

theorem coupling?_efferent : coupling? (p ++ arrow) = some (p, .efferent) := by
  have stop : Text.stripEnd? arrow (p ++ arrow) = some p := Text.stripEnd?_eq_some.mpr rfl
  simp only [coupling?, stop, stripStart?_arrow_append some_text headless]

omit headless in
/-- Arrows on both sides are a coupling in both directions. -/
theorem coupling?_both : coupling? (arrow ++ p ++ arrow) = some (p, .both) := by
  have start : Text.stripStart? arrow (arrow ++ p ++ arrow) = some (p ++ arrow) :=
    Text.stripStart?_eq_some.mpr (String.append_assoc ..)
  have stop : Text.stripEnd? arrow (arrow ++ p ++ arrow) = some (arrow ++ p) :=
    Text.stripEnd?_eq_some.mpr rfl
  have inner : Text.stripEnd? arrow (p ++ arrow) = some p := Text.stripEnd?_eq_some.mpr rfl
  simp only [coupling?, start, stop, inner, if_neg some_text]

omit some_text in
theorem coupling?_name : coupling? p = none := by
  simp only [coupling?, stripStart?_arrow headless, stripEnd?_arrow headless]

end Names

/-- Filters compare. -/
theorem filterOn?_eq_none (plain : '=' ∉ text.toList) : filterOn? property text = none := by
  unfold filterOn?
  split
  case h_1 => rfl
  case h_2 rest starts =>
    have own := Text.stripStart?_eq_some.mp starts
    have plain' : '=' ∉ rest.toList := fun mem => plain (by simp [own, mem])
    have equal : Text.stripStart? "==" rest = none :=
      Text.stripStart?_eq_none.mpr fun starts => plain' (starts.subset (by simp))
    have different : Text.stripStart? "!=" rest = none :=
      Text.stripStart?_eq_none.mpr fun starts => plain' (starts.subset (by simp))
    simp only [equal, different, Option.map_none]

/-- What is neither a filter nor everything nor an arrow by itself is an identifier or a
coupling. -/
theorem readExpression_of_plain (plain : '=' ∉ text.toList) (other : '*' ∉ text.toList)
    (named : text ≠ arrow) :
    readExpression s { text, span } = readReference s { text, span } := by
  have everything : text ≠ wildcard := by
    rintro rfl
    exact other (by decide)
  have relationships : text ≠ allRelationships := by
    rintro rfl
    exact plain (by decide)
  simp [readExpression, Token.is, filterOn?_eq_none plain, everything, relationships, named]

/-- A reference with arrows is read as the coupling of the element that its path stands for. -/
theorem readReference_of_coupling {coupling : Coupling} {at_ : Span}
    (coupled : coupling? text = some (p, coupling))
    (stands : s.resolve { text := p, span := at_ } = some (.element id)) :
    readReference s { text, span } = .ok (.coupled id coupling) := by
  have known : s.resolveElement { text := p, span } "element" = .ok id :=
    resolveElement_eq_ok.mpr stands
  simp only [readReference, coupled, known]
  rfl

/-! ### Cutting by offsets -/

/-- The text before an offset in bytes; nothing where the offset lies outside of the text or
inside one of its characters. -/
def upTo? : Nat → List Char → Option (List Char)
  | 0, _ => some []
  | _ + 1, [] => none
  | n + 1, c :: cs =>
    if c.utf8Size ≤ n + 1 then (upTo? (n + 1 - c.utf8Size) cs).map (c :: ·) else none

/-- The coupling of a text, where what stands between two arrows is cut out by its length in
bytes; nothing where such a cut is not possible. -/
def couplingAt? (s : String) : Option (Option (String × Coupling)) :=
  match Text.stripStart? arrow s, Text.stripEnd? arrow s with
  | some inner, some _ =>
    let size := byteCount inner.toList
    let mark := byteCount arrow.toList
    if mark < size then
      (upTo? (size - mark) inner.toList).map fun name => some (String.ofList name, .both)
    else some (some (inner, .afferent))
  | some name, none => some (some (name, .afferent))
  | none, some name => some (some (name, .efferent))
  | none, none => some none

/-- Cutting after as many bytes as a prefix has gives the prefix back. -/
theorem upTo?_append (before after : List Char) :
    upTo? (byteCount before) (before ++ after) = some before := by
  induction before with
  | nil => simp [upTo?]
  | cons c cs ih =>
    obtain ⟨n, size⟩ : ∃ n, byteCount (c :: cs) = n + 1 :=
      ⟨byteCount (c :: cs) - 1, by have := c.utf8Size_pos; simp; omega⟩
    have rest : n + 1 - c.utf8Size = byteCount cs := by
      rw [← size, Source.byteCount_cons]
      omega
    have fits : c.utf8Size ≤ n + 1 := by
      rw [← size, Source.byteCount_cons]
      omega
    rw [size, List.cons_append, upTo?, if_pos fits, rest, ih]
    rfl

/-- Between two arrows that do not overlap there is room for both. -/
theorem exists_between {inner front : String} (whole : arrow ++ inner = front ++ arrow)
    (room : byteCount arrow.toList < byteCount inner.toList) :
    ∃ name, name ≠ "" ∧ inner = name ++ arrow := by
  have letters := congrArg String.toList whole
  rw [String.toList_append, String.toList_append] at letters
  rcases List.append_eq_append_iff.mp letters with ⟨name, -, own⟩ | ⟨overlap, -, own⟩
  · refine ⟨String.ofList name, ?_, String.toList_inj.mp (by simpa using own)⟩
    rintro empty
    obtain rfl : name = [] := by simpa using congrArg String.toList empty
    simp [own] at room
  · rw [own, Source.byteCount_append] at room
    omega

/-- Every cut is possible, and what is cut out is what the coupling names. -/
theorem couplingAt?_eq (s : String) : couplingAt? s = some (coupling? s) := by
  unfold couplingAt? coupling?
  cases starts : Text.stripStart? arrow s with
  | none => cases Text.stripEnd? arrow s <;> rfl
  | some inner =>
    cases ends : Text.stripEnd? arrow s with
    | none => rfl
    | some front =>
      have whole : arrow ++ inner = front ++ arrow :=
        (Text.stripStart?_eq_some.mp starts).symm.trans (Text.stripEnd?_eq_some.mp ends)
      by_cases room : byteCount arrow.toList < byteCount inner.toList
      · obtain ⟨name, some_name, rfl⟩ := exists_between whole room
        have cut : Text.stripEnd? arrow (name ++ arrow) = some name :=
          Text.stripEnd?_eq_some.mpr rfl
        have size : byteCount (name ++ arrow).toList - byteCount arrow.toList =
            byteCount name.toList := by
          rw [String.toList_append, Source.byteCount_append]
          omega
        simp only [if_pos room, size, cut, if_neg some_name]
        rw [String.toList_append, upTo?_append]
        simp
      · have bare : ∀ name, Text.stripEnd? arrow inner = some name → name = "" := by
          intro name cut
          rw [Text.stripEnd?_eq_some.mp cut, String.toList_append, Source.byteCount_append] at room
          exact String.toList_eq_nil_iff.mp (Source.eq_nil_of_byteCount (by omega))
        simp only [if_neg room]
        cases cut : Text.stripEnd? arrow inner with
        | none => rfl
        | some name => simp only [if_pos (bare name cut)]

/-! ### Expressions -/

/-- **Couplings are told apart.**  Where a path of identifiers stands for an element, it is read
as that element, and with an arrow in front of it, behind it or both as the coupling of the
element that follows what leads to it, away from it or either.  In no text whatever does the
name in a coupling end at an offset that is not a place between characters of the text. -/
theorem couplings_told_apart {at_ : Span}
    (valid : ∀ n ∈ Identifier.segments p, Identifier.isValid n)
    (stands : s.resolve { text := p, span := at_ } = some (.element id)) (span : Span) :
    readExpression s { text := p, span } = .ok (.element id) ∧
      readExpression s { text := arrow ++ p, span } = .ok (.coupled id .afferent) ∧
      readExpression s { text := p ++ arrow, span } = .ok (.coupled id .efferent) ∧
      readExpression s { text := arrow ++ p ++ arrow, span } = .ok (.coupled id .both) ∧
      ∀ t : Token, couplingAt? t.text = some (coupling? t.text) := by
  obtain ⟨some_text, plain⟩ := Identifier.plain_of_segments valid
  have absent : ∀ c, Identifier.isPathChar c = false → c ∉ p.toList := fun c other =>
    Identifier.not_mem_of_plain plain other
  have headless := absent '>' (by decide)
  have unequal := absent '=' (by decide)
  have single := absent '*' (by decide)
  have alone : p ≠ arrow := fun own => headless (own ▸ by decide)
  -- With an arrow at one of its ends, the text is longer than an arrow.
  have longer : ∀ text : String, arrow.length < text.length → text ≠ arrow := by
    rintro _ long rfl
    exact Nat.lt_irrefl _ long
  have letters : 0 < p.length := by
    rw [← String.length_toList]
    exact List.length_pos_iff.mpr (mt String.toList_eq_nil_iff.mp some_text)
  refine ⟨?_, ?_, ?_, ?_, fun t => couplingAt?_eq t.text⟩
  · rw [readExpression_of_plain unequal single alone]
    have same : s.resolve { text := p, span } = some (.element id) := stands
    simp only [readReference, coupling?_name headless, same]
  · rw [readExpression_of_plain (by simpa [arrow] using unequal) (by simpa [arrow] using single)
      (longer _ (by simp [String.length_append]; omega))]
    exact readReference_of_coupling (coupling?_afferent some_text headless) stands
  · rw [readExpression_of_plain (by simpa [arrow] using unequal) (by simpa [arrow] using single)
      (longer _ (by simp [String.length_append]; omega))]
    exact readReference_of_coupling (coupling?_efferent some_text headless) stands
  · rw [readExpression_of_plain (by simpa [arrow] using unequal) (by simpa [arrow] using single)
      (longer _ (by simp [String.length_append]; omega))]
    exact readReference_of_coupling (coupling?_both some_text) stands

/-- A shop with a container whose identifier ends in a hyphen. -/
def shopSession : Session :=
  { registry :=
      { mode := .hierarchical
        entries :=
          [{ scope := [⟨1⟩], name := "web-", binding := .element ⟨2⟩ },
            { scope := [], name := "shop", binding := .element ⟨1⟩ }] } }

/-- The hyphen of the name is not taken for one of an arrow. -/
theorem couplings_of_hyphened_path :
    (∀ n ∈ Identifier.segments "shop.web-", Identifier.isValid n) ∧
      shopSession.resolve { text := "shop.web-", span := .point 0 } = some (.element ⟨2⟩) ∧
      readExpression shopSession { text := "->shop.web-->", span := .point 0 } =
        .ok (.coupled ⟨2⟩ .both) ∧
      couplingAt? "->shop.web-->" = some (some ("shop.web-", .both)) := by
  have valid : ∀ n ∈ Identifier.segments "shop.web-", Identifier.isValid n := by decide +kernel
  have stands : shopSession.resolve { text := "shop.web-", span := .point 0 } =
      some (.element ⟨2⟩) := by decide +kernel
  obtain ⟨-, -, -, both, cuts⟩ := couplings_told_apart valid stands (.point 0)
  refine ⟨valid, stands, both, ?_⟩
  rw [cuts { text := "->shop.web-->", span := .point 0 }]
  decide +kernel

end Language

end Edifice
