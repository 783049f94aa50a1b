import Edifice.Proofs.Language.Lines
import Edifice.Proofs.Language.Selections
import Mathlib.Data.List.Infix

/-!
Constants in texts.

What it means to put constants into a text is said by `Replaces`, from the front to the back:
where a reference to a constant stands, its value takes the place of it, and every other
character is kept.  A reference counts or does not count for what stands in front of it.  The
scan looks for the end of a reference behind the first dollar sign and brace, so of two that
are opened one in the other it is the inner one that does not count (`IsOpen`); where no
constant is used in such a place, all uses are replaced (`constants_replaced`).
-/

namespace Edifice.Language

open Check

variable {constants : Dictionary String} {counts counts' : List Char → Prop} {c : Char}
  {before cs rest out out' name : List Char}

/-! ### References -/

def reference (name : String) : List Char :=
  '$' :: '\x7b' :: (name.toList ++ ['\x7d'])

/-- `Replaces constants counts before cs out`: the text `cs`, which stands behind `before`,
becomes `out` when the uses of constants are replaced that count. -/
inductive Replaces (constants : Dictionary String) (counts : List Char → Prop) :
    List Char → List Char → List Char → Prop where
  | nil {before : List Char} : Replaces constants counts before [] []
  | value {before cs out : List Char} {name value : String} (counted : counts before)
      (defined : constants.get? name = some value)
      (rest : Replaces constants counts (before ++ reference name) cs out) :
      Replaces constants counts before (reference name ++ cs) (value.toList ++ out)
  | kept {before cs out : List Char} {c : Char}
      (other : counts before → ∀ name rest, c :: cs = reference name ++ rest →
        constants.get? name = none)
      (rest : Replaces constants counts (before ++ [c]) cs out) :
      Replaces constants counts before (c :: cs) (c :: out)

/-- Whether a reference is opened in the text without being closed in it. -/
def IsOpen (before : List Char) : Prop :=
  ∃ tail ∈ before.tails, ['$', '\x7b'] <+: tail ∧ '\x7d' ∉ tail

instance : Decidable (IsOpen before) :=
  inferInstanceAs (Decidable (∃ tail ∈ before.tails, ['$', '\x7b'] <+: tail ∧ '\x7d' ∉ tail))

/-- A reference is open exactly if a dollar sign and a brace open it and no brace behind them
closes it. -/
theorem isOpen_iff : IsOpen before ↔
    ∃ front name, before = front ++ '$' :: '\x7b' :: name ∧ '\x7d' ∉ name := by
  constructor
  · rintro ⟨tail, suffix, ⟨name, rfl⟩, closed⟩
    obtain ⟨front, rfl⟩ := (List.mem_tails _ _).mp suffix
    exact ⟨front, name, rfl, fun member => closed (List.mem_append_right _ member)⟩
  · rintro ⟨front, name, rfl, closed⟩
    refine ⟨_, (List.mem_tails _ _).mpr ⟨front, rfl⟩, ⟨name, rfl⟩, ?_⟩
    simpa using closed

theorem IsOpen.append (opened : IsOpen before) (closed : '\x7d' ∉ cs) : IsOpen (before ++ cs) := by
  obtain ⟨front, name, rfl, unclosed⟩ := isOpen_iff.mp opened
  refine isOpen_iff.mpr ⟨front, name ++ cs, by simp, ?_⟩
  simp [unclosed, closed]

/-- One more character opens a reference only as the brace behind a dollar sign. -/
theorem isOpen_snoc : IsOpen (before ++ [c]) ↔
    c ≠ '\x7d' ∧ (IsOpen before ∨ c = '\x7b' ∧ before.getLast? = some '$') := by
  constructor
  · intro opened
    obtain ⟨front, name, same, closed⟩ := isOpen_iff.mp opened
    obtain rfl | ⟨init, d, rfl⟩ := List.eq_nil_or_concat name
    · have split : before ++ [c] = front ++ ['$'] ++ ['\x7b'] := by simpa using same
      obtain ⟨rfl, last⟩ := List.append_inj' split rfl
      obtain rfl := List.singleton_inj.mp last
      exact ⟨by decide, .inr ⟨rfl, List.getLast?_concat⟩⟩
    · have split : before ++ [c] = front ++ '$' :: '\x7b' :: init ++ [d] := by simpa using same
      obtain ⟨rfl, last⟩ := List.append_inj' split rfl
      obtain rfl := List.singleton_inj.mp last
      rw [List.concat_eq_append, List.mem_append, List.mem_singleton, not_or] at closed
      exact ⟨Ne.symm closed.2, .inl (isOpen_iff.mpr ⟨front, init, rfl, closed.1⟩)⟩
  · rintro ⟨closed, opened | ⟨rfl, last⟩⟩
    · exact opened.append (by simpa using Ne.symm closed)
    · obtain ⟨front, rfl⟩ := List.getLast?_eq_some_iff.mp last
      exact isOpen_iff.mpr ⟨front, [], by simp, List.not_mem_nil⟩

theorem not_isOpen_nil : ¬ IsOpen [] := by
  decide

theorem append_reference (name : String) :
    before ++ reference name = before ++ '$' :: '\x7b' :: name.toList ++ ['\x7d'] := by
  simp [reference]

/-- Behind a reference, none is open. -/
theorem not_isOpen_reference (name : String) : ¬ IsOpen (before ++ reference name) := by
  rw [append_reference, isOpen_snoc]
  exact fun opened => opened.1 rfl

/-! ### What is replaced -/

/-- The constants have names that identifiers may have. -/
def ProperlyNamed (constants : Dictionary String) : Prop :=
  ∀ name, constants.contains name = true → Identifier.isValid name = true

/-- In the name of a constant there is no closing brace. -/
theorem ProperlyNamed.unbraced (named : ProperlyNamed constants) {name value : String}
    (defined : constants.get? name = some value) : '\x7d' ∉ name.toList := by
  intro member
  have valid := named name (by rw [Dictionary.contains, defined]; rfl)
  simp only [Identifier.isValid, Bool.and_eq_true, List.all_eq_true] at valid
  have refused : Identifier.isIdentifierChar '\x7d' = false := by decide +kernel
  exact absurd (valid.2 _ member) (by simp [refused])

/-- A name ends at the first closing brace. -/
theorem eq_of_closed {name' rest' : List Char} (closed : '\x7d' ∉ name) (closed' : '\x7d' ∉ name')
    (same : name ++ '\x7d' :: rest = name' ++ '\x7d' :: rest') : name = name' ∧ rest = rest' := by
  induction name generalizing name' with
  | nil =>
    cases name' with
    | nil => exact ⟨rfl, (List.cons.inj same).2⟩
    | cons d name' => exact absurd ((List.cons.inj same).1 ▸ List.mem_cons_self) closed'
  | cons c name ih =>
    cases name' with
    | nil => exact absurd ((List.cons.inj same).1 ▸ List.mem_cons_self) closed
    | cons d name' =>
      obtain ⟨rfl, tails⟩ := List.cons.inj same
      rw [List.mem_cons, not_or] at closed closed'
      obtain ⟨rfl, rfl⟩ := ih closed.2 closed'.2 tails
      exact ⟨rfl, rfl⟩

/-- A text starts with one reference to a constant at most. -/
theorem ProperlyNamed.reference_inj (named : ProperlyNamed constants)
    {name name' value value' : String} (defined : constants.get? name = some value)
    (defined' : constants.get? name' = some value')
    (same : reference name ++ cs = reference name' ++ rest) : name = name' ∧ cs = rest := by
  simp only [reference, List.cons_append, List.append_assoc, List.nil_append, List.cons.injEq,
    true_and] at same
  obtain ⟨spelled, same⟩ := eq_of_closed (named.unbraced defined) (named.unbraced defined') same
  exact ⟨String.toList_inj.mp spelled, same⟩

namespace Replaces

/-- A text without closing brace is kept as it is. -/
theorem of_unclosed (unclosed : '\x7d' ∉ cs) : Replaces constants counts before cs cs := by
  induction cs generalizing before with
  | nil => exact .nil
  | cons c cs ih =>
    refine .kept (fun _ name rest same => absurd ?_ unclosed)
      (ih fun member => unclosed (List.mem_cons_of_mem _ member))
    rw [same]
    simp [reference]

/-- Inside of an open reference a text without closing brace is kept as it is. -/
theorem within (opened : IsOpen before) (unclosed : '\x7d' ∉ cs)
    (later : Replaces constants (¬ IsOpen ·) (before ++ cs) rest out) :
    Replaces constants (¬ IsOpen ·) before (cs ++ rest) (cs ++ out) := by
  induction cs generalizing before with
  | nil => simpa using later
  | cons c cs ih =>
    rw [List.mem_cons, not_or] at unclosed
    refine .kept (fun counted => absurd opened counted) (ih ?_ unclosed.2 (by simpa using later))
    exact opened.append (by simpa using unclosed.1)

/-- What is counted matters only where constants are used. -/
theorem congr (replaces : Replaces constants counts before cs out)
    (same : ∀ front name rest, cs = front ++ reference name ++ rest →
      constants.contains name = true → (counts (before ++ front) ↔ counts' (before ++ front))) :
    Replaces constants counts' before cs out := by
  induction replaces with
  | nil => exact .nil
  | @value before cs out name value counted defined _ ih =>
    have here := same [] name cs rfl (by rw [Dictionary.contains, defined]; rfl)
    rw [List.append_nil] at here
    refine .value (here.mp counted) defined (ih fun front name' rest split used => ?_)
    rw [List.append_assoc]
    exact same (reference name ++ front) name' rest (by simp [split]) used
  | @kept before cs out c other _ ih =>
    refine .kept (fun counted name rest split => ?_) (ih fun front name rest split used => ?_)
    · by_contra used
      have here := same [] name rest split (Option.isSome_iff_ne_none.mpr used)
      rw [List.append_nil] at here
      exact used (other (here.mpr counted) name rest split)
    · rw [List.append_assoc]
      exact same (c :: front) name rest (by simp [split]) used

/-- What a text becomes is determined. -/
theorem unique (named : ProperlyNamed constants)
    (replaces : Replaces constants counts before cs out)
    (replaces' : Replaces constants counts before cs out') : out' = out := by
  induction replaces generalizing out' with
  | nil =>
    generalize same : ([] : List Char) = text at replaces'
    cases replaces' with
    | nil => rfl
    | value => simp [reference] at same
    | kept => cases same
  | @value before cs out name value counted defined _ ih =>
    generalize same : reference name ++ cs = text at replaces'
    cases replaces' with
    | nil => simp [reference] at same
    | value _ defined' later =>
      obtain ⟨rfl, rfl⟩ := named.reference_inj defined defined' same
      obtain rfl := Option.some.inj (defined.symm.trans defined')
      rw [ih later]
    | kept other _ =>
      have undefined := other counted name cs same.symm
      rw [defined] at undefined
      cases undefined
  | @kept before cs out c other _ ih =>
    generalize same : c :: cs = text at replaces'
    cases replaces' with
    | nil => cases same
    | value counted defined _ =>
      have undefined := other counted _ _ same
      rw [defined] at undefined
      cases undefined
    | kept _ later =>
      obtain ⟨rfl, rfl⟩ := List.cons.inj same
      rw [ih later]

/-- What a text becomes is determined, so that one replacement decides. -/
theorem iff_eq (named : ProperlyNamed constants)
    (replaces : Replaces constants counts before cs out) :
    Replaces constants counts before cs out' ↔ out' = out := by
  refine ⟨replaces.unique named, ?_⟩
  rintro rfl
  exact replaces

end Replaces

/-! ### The scan -/

/-- What the scan has read of a reference and not yet put out. -/
def pending : Option (List Char) → List Char
  | none => []
  | some name => '$' :: '\x7b' :: name.reverse

/-- Outside of references, the scan is not between a dollar sign and its brace; inside, it has
met no closing brace. -/
def Scans (before cs : List Char) : Option (List Char) → Prop
  | none => before.getLast? = some '$' → cs.head? ≠ some '\x7b'
  | some name => '\x7d' ∉ name

theorem scans_reference (name : String) (cs : List Char) :
    Scans (before ++ reference name) cs none := by
  rw [Scans, append_reference, List.getLast?_concat]
  rintro ⟨⟩

/-- A name that is not defined is kept with all around it. -/
theorem Replaces.of_undefined (named : ProperlyNamed constants)
    (unbraced : '\x7d' ∉ name) (undefined : constants.get? (String.ofList name) = none)
    (later : Replaces constants (¬ IsOpen ·) (before ++ reference (String.ofList name)) rest out) :
    Replaces constants (¬ IsOpen ·) before ('$' :: '\x7b' :: (name ++ '\x7d' :: rest))
      ('$' :: '\x7b' :: (name ++ '\x7d' :: out)) := by
  have opened : IsOpen (before ++ ['$'] ++ ['\x7b']) :=
    isOpen_iff.mpr ⟨before, [], by simp, List.not_mem_nil⟩
  have front : before ++ reference (String.ofList name) =
      before ++ ['$'] ++ ['\x7b'] ++ name ++ ['\x7d'] := by simp [reference]
  refine .kept (fun _ name' rest' same => ?_) (.kept ?_ (.within opened unbraced (.kept ?_ ?_)))
  · by_contra used
    obtain ⟨value, defined⟩ := Option.ne_none_iff_exists'.mp used
    simp only [reference, List.cons_append, List.append_assoc, List.nil_append, List.cons.injEq,
      true_and] at same
    obtain ⟨rfl, -⟩ := eq_of_closed unbraced (named.unbraced defined) same
    rw [String.ofList_toList] at undefined
    exact used undefined
  · intro _ name' rest' same
    simp [reference] at same
  · intro _ name' rest' same
    simp [reference] at same
  · rwa [← front]

/-- The scan replaces the uses of constants that do not stand inside of an open reference. -/
theorem replaces_substituteChars (named : ProperlyNamed constants) (state : Option (List Char))
    (closed : ¬ IsOpen before) (scans : Scans before cs state) :
    Replaces constants (¬ IsOpen ·) before (pending state ++ cs)
      (substituteChars constants state cs).1 := by
  induction state, cs using substituteChars.induct constants generalizing before with
  | case1 => exact .nil
  | case2 name =>
    rw [List.append_nil]
    exact .of_unclosed (by simpa [pending, Scans] using scans)
  | case3 cs ih =>
    have later := ih closed List.not_mem_nil
    simpa [pending, substituteChars] using later
  | case4 c cs plain text missing answer ih =>
    rw [substituteChars.eq_4 _ _ _ plain, answer]
    rw [answer] at ih
    refine .kept (fun _ name rest same => ?_) (ih ?_ ?_)
    · simp only [reference, List.cons_append, List.cons.injEq] at same
      exact (plain _ same.1 same.2).elim
    · rw [isOpen_snoc]
      rintro ⟨-, opened | ⟨rfl, last⟩⟩
      · exact closed opened
      · exact scans last rfl
    · intro last follows
      obtain ⟨cs', rfl⟩ := List.head?_eq_some_iff.mp follows
      rw [List.getLast?_concat] at last
      exact plain cs' (Option.some.inj last) rfl
  | case5 name cs text missing answer value defined ih =>
    have split : pending (some name) ++ '\x7d' :: cs =
        reference (String.ofList name.reverse) ++ cs := by simp [pending, reference]
    have out : (substituteChars constants (some name) ('\x7d' :: cs)).1 = value.toList ++ text := by
      simp [substituteChars, answer, defined]
    rw [answer] at ih
    rw [split, out]
    exact .value closed defined (ih (not_isOpen_reference _) (scans_reference _ cs))
  | case6 name cs text missing answer undefined ih =>
    have out : (substituteChars constants (some name) ('\x7d' :: cs)).1 =
        '$' :: '\x7b' :: (name.reverse ++ '\x7d' :: text) := by
      simp [substituteChars, answer, undefined]
    rw [answer] at ih
    rw [out]
    exact .of_undefined named (fun member => scans (List.mem_reverse.mp member)) undefined
      (ih (not_isOpen_reference _) (scans_reference _ cs))
  | case7 name c cs other ih =>
    have later := ih closed (by simpa [Scans, Ne.symm other] using scans)
    simpa [pending, substituteChars, other] using later

/-! ### Constants of a reading -/

variable {s s' s₀ : Session} {setting : Setting} {file : Option String} {ts : Tokens}
  {inclusion : Option Inclusion}

/-- A constant is defined under a name that an identifier may have. -/
theorem isValid_of_definesConstant (defines : definesConstant ts = true) :
    Gives (executeDirective setting s ts file) fun _ => Identifier.isValid (ts.text 1) = true := by
  have constant : Gives (executeConstant s ts) fun _ => Identifier.isValid (ts.text 1) = true := by
    intro s' executed
    obtain ⟨-, executed⟩ := then_eq_ok.mp executed
    dsimp only at executed
    split at executed
    case isTrue => cases executed
    case isFalse valid => simpa using valid
  simp only [definesConstant, Bool.and_eq_true, Bool.or_eq_true, beq_iff_eq] at defines
  unfold executeDirective
  obtain named | named := defines.2
  all_goals
    rw [named]
    exact .bind constant fun _ valid => .ok valid

/-- No line defines a constant with a closing brace in its name. -/
theorem Session.Performs.properlyNamed (performs : s.Performs setting file ts (s', inclusion))
    (named : ProperlyNamed s.constants) : ProperlyNamed s'.constants := by
  rw [performs.constants]
  cases performs with
  | closes closing _ => rwa [constantsAfter_of_closes closing]
  | runs _ statement _ => rwa [constantsAfter_of_statement statement]
  | directs _ _ executed =>
    rw [constantsAfter]
    split
    case isFalse => exact named
    case isTrue defines =>
      intro name used
      rw [Dictionary.contains, Dictionary.get?_insert] at used
      split at used
      case isTrue same => exact same ▸ isValid_of_definesConstant defines _ executed
      case isFalse => exact named name used

/-- The constants of a reading are properly named. -/
theorem Session.Course.properlyNamed (course : s.Course setting s')
    (named : ProperlyNamed s.constants) : ProperlyNamed s'.constants := by
  induction course with
  | refl => exact named
  | tail _ step ih =>
    obtain ⟨ts, advances⟩ := step
    obtain ⟨file, inclusion, performs⟩ := advances.performs
    exact performs.properlyNamed ih

/-- **Constants are put in where they are used outside of other references.**  With the
constants that a reading has defined so far, a text becomes the one in which the use of each of
them is replaced by its value, unless it stands behind a dollar sign and a brace which no
closing brace follows before it; everything else is kept as it is.  Where no constant is used
in such a place, each use is replaced. -/
theorem constants_replaced (prepared : s₀.Prepared) (course : s₀.Course setting s)
    (text : String) :
    (∀ out, Replaces s.constants (¬ IsOpen ·) [] text.toList out ↔
      out = (substitute s.constants text).1.toList) ∧
    ((∀ before name rest, text.toList = before ++ reference name ++ rest →
        s.constants.contains name = true → ¬ IsOpen before) →
      ∀ out, Replaces s.constants (fun _ => True) [] text.toList out ↔
        out = (substitute s.constants text).1.toList) := by
  have named : ProperlyNamed s.constants := by
    refine course.properlyNamed fun name used => ?_
    rw [prepared.fresh.constants] at used
    cases used
  have replaces : Replaces s.constants (¬ IsOpen ·) [] text.toList
      (substitute s.constants text).1.toList := by
    rw [substitute, String.toList_ofList]
    exact replaces_substituteChars named none not_isOpen_nil nofun
  refine ⟨fun out => replaces.iff_eq named, fun outside out => ?_⟩
  have all : Replaces s.constants (fun _ => True) [] text.toList
      (substitute s.constants text).1.toList :=
    replaces.congr fun before name rest split used =>
      iff_true_intro (outside before name rest split used)
  exact all.iff_eq named

def brandConstants : Dictionary String :=
  ⟨[("brand", "Acme")]⟩

theorem eq_brand {name : String} (used : brandConstants.contains name = true) : name = "brand" := by
  by_contra other
  have unequal : (name == "brand") = false := by simpa using other
  simp [brandConstants, Dictionary.contains, Dictionary.get?, List.lookup_cons, unequal] at used

theorem constants_of_brand : ∃ p, Session.afterLines [["!const", "brand", "Acme"]] = .ok p ∧
    p.session.constants = brandConstants := by
  have read : (Session.afterLines [["!const", "brand", "Acme"]]).toOption.map
      (·.session.constants) = some brandConstants := by decide +kernel
  exact toOption_map_eq_some.mp read

/-- A text that uses the constant, among dollar signs and braces that do not matter. -/
def brandText : String :=
  "$\x7b\x7d$\x7bother\x7d \x7b$\x7bbrand\x7d\x7d$\x7b"

/-- The use of the constant is replaced, and nothing else. -/
theorem brand_replaced : ∃ p, Session.afterLines [["!const", "brand", "Acme"]] = .ok p ∧
    Replaces p.session.constants (fun _ => True) [] brandText.toList
      "$\x7b\x7d$\x7bother\x7d \x7bAcme\x7d$\x7b".toList := by
  obtain ⟨p, read, constants⟩ := constants_of_brand
  have course := Session.course_afterLines _ p read
  have closed : ∀ before ∈ brandText.toList.inits,
      reference "brand" <+: brandText.toList.drop before.length → ¬ IsOpen before := by
    decide +kernel
  refine ⟨p, read, ((constants_replaced (.start {}) course brandText).2 ?_ _).mpr ?_⟩
  · intro before name rest split used
    rw [constants] at used
    obtain rfl := eq_brand used
    refine closed before ((List.mem_inits _ _).mpr ⟨reference "brand" ++ rest, ?_⟩) ⟨rest, ?_⟩
    · rw [split, List.append_assoc]
    · rw [split, List.append_assoc, List.drop_left]
  · rw [constants]
    decide +kernel

/-- A use inside of an open reference is not replaced. -/
theorem brand_hidden :
    ¬ ∀ (setting : Setting) (s₀ s : Session) (text : String), s₀.Prepared → s₀.Course setting s →
      Replaces s.constants (fun _ => True) [] text.toList
        (substitute s.constants text).1.toList := by
  intro all
  obtain ⟨p, read, constants⟩ := constants_of_brand
  have kept := all {} _ _ "$\x7ba$\x7bbrand\x7d" (.start {}) (Session.course_afterLines _ p read)
  have spelled : "$\x7ba$\x7bbrand\x7d".toList =
      ['$', '\x7b', 'a'] ++ (reference "brand" ++ []) := by decide +kernel
  rw [constants, spelled] at kept
  have replaced : Replaces brandConstants (fun _ => True) []
      (['$', '\x7b', 'a'] ++ (reference "brand" ++ []))
      (['$', '\x7b', 'a'] ++ ("Acme".toList ++ [])) := by
    refine .kept (fun _ name rest same => ?_) (.kept ?_ (.kept ?_ (.value trivial rfl .nil)))
    · by_contra used
      obtain rfl := eq_brand (Option.isSome_iff_ne_none.mpr used)
      simp [reference] at same
    · intro _ name rest same
      simp [reference] at same
    · intro _ name rest same
      simp [reference] at same
  have named : ProperlyNamed brandConstants := by
    intro name used
    rw [eq_brand used]
    decide +kernel
  exact absurd (replaced.unique named kept) (by decide +kernel)

end Edifice.Language
