import Edifice.Decision.Record
import Edifice.Proofs.Ordered
import Edifice.Proofs.Text

/-!
Decision records are read back.

A record in the usual layout holds its heading, its date, the section `## Status` and the line
`## Context`, with blank lines between them wherever one likes, and then any text
(`Layout.Spells`).  Each scan of a record sees nothing but its lines that are not blank
(`solidLines`), and stops within the layout, whatever the title is and whatever follows.  A
line of links is scanned link by link, so that none of them is lost and no two are taken as one
(`links_linkLine`).  Reading therefore gives the values that the layout was made of
(`read_of_spells`).
-/

namespace Edifice.Record

variable {path segment digits id name content : String}

/-! ### Numbers of records -/

/-- The number that the digits write, without the zeros in front of it. -/
inductive Unpadded (digits : String) : String → Prop
  | zero (zeros : ∀ c ∈ digits.toList, c = '0') : Unpadded digits "0"
  | number {zeros id : String} (whole : digits = zeros ++ id)
      (padding : ∀ c ∈ zeros.toList, c = '0') (some_digit : id ≠ "")
      (first : id.toList.head? ≠ some '0') : Unpadded digits id

/-- The segment is all that stands after the last slash of the path, of either kind. -/
inductive LastSegment (path segment : String) : Prop
  | intro {directory : String} (whole : path = directory ++ segment)
      (directory_ends : ∀ c, directory.toList.getLast? = some c → c = '/' ∨ c = '\\')
      (plain : ∀ c ∈ segment.toList, c ≠ '/' ∧ c ≠ '\\')

/-- The name starts with digits, and with no more of them, that write the number. -/
inductive Numbered (name id : String) : Prop
  | intro {digits rest : String} (whole : name = digits ++ rest) (some_digit : digits ≠ "")
      (decimal : ∀ c ∈ digits.toList, c.isDigit = true)
      (digits_end : ∀ c, rest.toList.head? = some c → c.isDigit = false)
      (unpadded : Unpadded digits id)

/-- The last segment of the target starts with the number of a record. -/
def Cites (target id : String) : Prop :=
  ∃ segment, LastSegment target segment ∧ Numbered segment id

/-- A list is cut in one way only into a run and a rest that does not go on with it. -/
theorem cut_iff {p : Char → Bool} {cs run rest : List Char} :
    cs.takeWhile p = run ∧ cs.dropWhile p = rest ↔
      cs = run ++ rest ∧ (∀ c ∈ run, p c = true) ∧ ∀ c, rest.head? = some c → p c = false := by
  constructor
  · rintro ⟨rfl, rfl⟩
    refine ⟨List.takeWhile_append_dropWhile.symm, fun c => List.mem_takeWhile_imp, ?_⟩
    intro c first
    have stops := List.head?_dropWhile_not p cs
    rwa [first] at stops
  · rintro ⟨rfl, holds, stops⟩
    rw [List.takeWhile_append_of_pos holds, List.dropWhile_append_of_pos holds]
    cases rest with
    | nil => simp
    | cons c cs => simp [stops c rfl]

/-- A text starts with a run of characters and goes on with another one, or ends there. -/
theorem exists_run (p : Char → Bool) (s : String) : ∃ run rest : String, s = run ++ rest ∧
    (∀ c ∈ run.toList, p c = true) ∧ ∀ c, rest.toList.head? = some c → p c = false := by
  obtain ⟨whole, holds, stops⟩ := cut_iff.mp
    ⟨Eq.refl (s.toList.takeWhile p), Eq.refl (s.toList.dropWhile p)⟩
  refine ⟨String.ofList _, String.ofList _, ?_, by simpa using holds, by simpa using stops⟩
  rw [← String.toList_inj, String.toList_append, String.toList_ofList, String.toList_ofList]
  exact whole

/-- The zeros in front of an id are taken off, but for the last digit. -/
theorem withoutZeros_of_unpadded (unpadded : Unpadded digits id) :
    withoutZeros digits.toList = id := by
  rcases unpadded with zeros | @⟨zeros, id, rfl, padding, some_digit, first⟩
  · rw [withoutZeros, List.dropWhile_eq_nil_iff.mpr (by simpa using zeros)]
  · have stops : ∀ c, id.toList.head? = some c → (c == '0') = false := by
      rintro c starts
      rw [beq_eq_false_iff_ne]
      rintro rfl
      exact first starts
    obtain ⟨-, rest⟩ := cut_iff.mpr ⟨String.toList_append, by simpa using padding, stops⟩
    rw [withoutZeros, rest]
    split
    case h_1 nothing => exact absurd (String.toList_eq_nil_iff.mp nothing) some_digit
    case h_2 => exact String.ofList_toList

theorem exists_unpadded (digits : String) : ∃ id, Unpadded digits id := by
  obtain ⟨zeros, id, rfl, padding, stops⟩ := exists_run (· == '0') digits
  by_cases nothing : id = ""
  · exact ⟨"0", .zero (by simpa [nothing] using padding)⟩
  · refine ⟨id, .number rfl (by simpa using padding) nothing fun starts => ?_⟩
    exact absurd (stops '0' starts) (by decide)

/-- The file name is what stands behind the last separator. -/
theorem fileName_of_lastSegment (named : LastSegment path segment) : fileName path = segment := by
  obtain @⟨directory, rfl, ends, plain⟩ := named
  have letters : ∀ c ∈ segment.toList.reverse, (c != '/' && c != '\\') = true := by
    intro c mem
    rw [Bool.and_eq_true, bne_iff_ne, bne_iff_ne]
    exact plain c (List.mem_reverse.mp mem)
  have stops : ∀ c, directory.toList.reverse.head? = some c → (c != '/' && c != '\\') = false := by
    intro c first
    rw [Bool.and_eq_false_iff, bne_eq_false_iff_eq, bne_eq_false_iff_eq]
    exact ends c (by rwa [List.head?_reverse] at first)
  obtain ⟨run, -⟩ := cut_iff.mpr ⟨Eq.refl _, letters, stops⟩
  rw [fileName, String.toList_append, List.reverse_append, run, List.reverse_reverse,
    String.ofList_toList]

/-- Every path has a last segment. -/
theorem exists_lastSegment (path : String) : ∃ segment, LastSegment path segment := by
  obtain ⟨run, rest, whole, plain, ends⟩ :=
    exists_run (fun c => c != '/' && c != '\\') (String.ofList path.toList.reverse)
  have cut : path = String.ofList rest.toList.reverse ++ String.ofList run.toList.reverse := by
    rw [← String.toList_inj] at whole ⊢
    simpa [List.reverse_eq_iff] using whole
  refine ⟨_, .intro cut (fun c last => ?_) fun c mem => ?_⟩
  · have stops := ends c (by simpa using last)
    rwa [Bool.and_eq_false_iff, bne_eq_false_iff_eq, bne_eq_false_iff_eq] at stops
  · have letter := plain c (by simpa using mem)
    rwa [Bool.and_eq_true, bne_iff_ne, bne_iff_ne] at letter

/-- What is numbered is found under its number without the zeros in front. -/
theorem number?_of_numbered (numbered : Numbered name id) : number? name = some id := by
  obtain @⟨digits, rest, rfl, some_digit, decimal, digits_end, unpadded⟩ := numbered
  obtain ⟨run, -⟩ := cut_iff.mpr ⟨String.toList_append, decimal, digits_end⟩
  rw [number?, run]
  split
  case h_1 nothing => exact absurd (String.toList_eq_nil_iff.mp nothing) some_digit
  case h_2 => rw [withoutZeros_of_unpadded unpadded]

/-- What is found as the number of a file name stands in front of it. -/
theorem numbered_of_number? (found : number? name = some id) : Numbered name id := by
  obtain ⟨digits, rest, rfl, decimal, digits_end⟩ := exists_run Char.isDigit name
  have run := (cut_iff.mpr ⟨String.toList_append, decimal, digits_end⟩).1
  have some_digit : digits ≠ "" := by
    rintro rfl
    rw [number?, run] at found
    cases found
  obtain ⟨id', unpadded⟩ := exists_unpadded digits
  have numbered := Numbered.intro rfl some_digit decimal digits_end unpadded
  obtain rfl : id' = id := by simpa [number?_of_numbered numbered] using found
  exact numbered

/-- A link leads to the record under an id exactly if its path cites it. -/
theorem number?_fileName_eq_some_iff : number? (fileName path) = some id ↔ Cites path id := by
  constructor
  · intro found
    obtain ⟨segment, named⟩ := exists_lastSegment path
    rw [fileName_of_lastSegment named] at found
    exact ⟨segment, named, numbered_of_number? found⟩
  · rintro ⟨segment, named, numbered⟩
    rw [fileName_of_lastSegment named, number?_of_numbered numbered]

/-! ### Lines of links -/

/-- A link as it is written, with the text in front of it. -/
structure WrittenLink where
  description : String
  shown : String
  target : String

namespace WrittenLink

variable {link : WrittenLink}

def text (link : WrittenLink) : String :=
  link.description ++ "[" ++ link.shown ++ "](" ++ link.target ++ ")"

/-- None of the three parts holds what ends it. -/
structure Plain (link : WrittenLink) : Prop where
  description : '[' ∉ link.description.toList
  shown : ¬ [']', '('] <:+: link.shown.toList
  target : ')' ∉ link.target.toList

/-- The record that the link cites, if it cites one, with the description. -/
def cited? (link : WrittenLink) : Option (String × String) :=
  (number? (fileName link.target)).map fun id => (id, Text.trim link.description)

/-- A link is cited under the id of its target, with its description trimmed. -/
theorem cited?_eq_some {p : String × String} :
    link.cited? = some p ↔ Cites link.target p.1 ∧ p.2 = Text.trim link.description := by
  rw [← number?_fileName_eq_some_iff, cited?, Option.map_eq_some_iff]
  constructor
  · rintro ⟨id, found, rfl⟩
    exact ⟨found, rfl⟩
  · rintro ⟨found, described⟩
    exact ⟨p.1, found, by rw [← described]⟩

/-- The link without the blanks in front of its description. -/
def trimStart (link : WrittenLink) : WrittenLink :=
  { link with description := String.ofList (Text.trimLeft link.description.toList) }

theorem Plain.trimStart (plain : link.Plain) : link.trimStart.Plain where
  description mem := by
    rw [WrittenLink.trimStart, String.toList_ofList] at mem
    exact plain.description ((List.dropWhile_sublist _).subset mem)
  shown := plain.shown
  target := plain.target

theorem cited?_trimStart (link : WrittenLink) : link.trimStart.cited? = link.cited? := by
  simp only [cited?, trimStart, Text.trim_trimLeft]

end WrittenLink

def linkLine : List WrittenLink → String
  | [] => ""
  | link :: rest => link.text ++ linkLine rest

section Scan

variable {cs text path rest : List Char}

/-- Up to an opening bracket everything is a description, by induction on it. -/
theorem scanLinks_description (plain : '[' ∉ cs) :
    scanLinks (.description text) (cs ++ '[' :: rest) =
      scanLinks (.shown (cs.reverse ++ text)) rest := by
  induction cs generalizing text with
  | nil => rw [List.nil_append, scanLinks, if_pos rfl]; rfl
  | cons c cs ih =>
    rw [List.cons_append, scanLinks, if_neg (List.ne_of_not_mem_cons plain).symm,
      ih (List.not_mem_of_not_mem_cons plain)]
    simp

/-- What is shown goes on until a bracket is followed by a parenthesis. -/
theorem scanLinks_shown (plain : ¬ [']', '('] <:+: cs) :
    scanLinks (.shown text) (cs ++ ']' :: '(' :: rest) = scanLinks (.target text []) rest := by
  induction cs with
  | nil => rw [List.nil_append, scanLinks]
  | cons c cs ih =>
    have further := ih fun inside => plain (inside.trans (List.suffix_cons c cs).isInfix)
    rw [List.cons_append, ← further]
    -- The bracket that ends the shown text comes later, where a parenthesis follows it.
    cases cs with
    | nil => simp [scanLinks]
    | cons d ds =>
      rw [List.cons_append, scanLinks]
      rintro after rfl same
      obtain rfl : d = '(' := (List.cons.inj same).1
      exact plain (List.prefix_append [']', '('] ds).isInfix

/-- A target goes on to its parenthesis, and then the link is complete. -/
theorem scanLinks_target (plain : ')' ∉ cs) :
    scanLinks (.target text path) (cs ++ ')' :: rest) =
      (link? text (cs.reverse ++ path)).toList ++ scanLinks (.description []) rest := by
  induction cs generalizing path with
  | nil => rw [List.nil_append, scanLinks, if_pos rfl]; rfl
  | cons c cs ih =>
    rw [List.cons_append, scanLinks, if_neg (List.ne_of_not_mem_cons plain).symm,
      ih (List.not_mem_of_not_mem_cons plain)]
    simp

/-- Without a bracket there is no link. -/
theorem scanLinks_of_plain (plain : '[' ∉ cs) : scanLinks (.description text) cs = [] := by
  induction cs generalizing text with
  | nil => rfl
  | cons c cs ih =>
    rw [scanLinks, if_neg (List.ne_of_not_mem_cons plain).symm,
      ih (List.not_mem_of_not_mem_cons plain)]

end Scan

/-- The links of a line are read back as they are cited, one after the other. -/
theorem links_linkLine {line : List WrittenLink} (plain : ∀ link ∈ line, link.Plain) :
    links (linkLine line) = line.filterMap WrittenLink.cited? := by
  induction line with
  | nil => rfl
  | cons link rest ih =>
    obtain ⟨here, plain⟩ := List.forall_mem_cons.mp plain
    have cut : (linkLine (link :: rest)).toList = link.description.toList ++ '[' ::
        (link.shown.toList ++ ']' :: '(' :: (link.target.toList ++ ')' ::
          (linkLine rest).toList)) := by
      simp [linkLine, WrittenLink.text]
    have found :
        link? link.description.toList.reverse link.target.toList.reverse = link.cited? := by
      simp [link?, WrittenLink.cited?]
    rw [links, cut, scanLinks_description here.description, scanLinks_shown here.shown,
      scanLinks_target here.target, List.append_nil, List.append_nil, found]
    rw [links] at ih
    rw [ih plain, List.filterMap_cons]
    cases link.cited? <;> rfl

section Trim

variable {link : WrittenLink} {line : List WrittenLink}

/-- Behind the first description, a line of links starts and ends with marks. -/
theorem exists_linkLine (shown target : String) (line : List WrittenLink) : ∃ body : List Char,
    ∀ description, (linkLine (⟨description, shown, target⟩ :: line)).toList =
      description.toList ++ '[' :: body ++ [')'] := by
  induction line generalizing shown target with
  | nil =>
    refine ⟨shown.toList ++ ']' :: '(' :: target.toList, fun description => ?_⟩
    simp [linkLine, WrittenLink.text]
  | cons next line ih =>
    obtain ⟨body, further⟩ := ih next.shown next.target
    refine ⟨shown.toList ++ ']' :: '(' :: (target.toList ++ ')' ::
      (next.description.toList ++ '[' :: body)), fun description => ?_⟩
    rw [linkLine, String.toList_append, further next.description]
    simp [WrittenLink.text]

/-- Nothing but blanks in front of the first description is trimmed off a line of links. -/
theorem trim_linkLine (link : WrittenLink) (line : List WrittenLink) :
    Text.trim (linkLine (link :: line)) = linkLine (link.trimStart :: line) := by
  obtain ⟨body, letters⟩ := exists_linkLine link.shown link.target line
  have trimmed : (linkLine (link.trimStart :: line)).toList =
      Text.trimLeft link.description.toList ++ '[' :: body ++ [')'] := by
    rw [WrittenLink.trimStart, letters, String.toList_ofList]
  rw [← String.toList_inj, trimmed, Text.toList_trim, letters, List.append_assoc,
    List.cons_append, Text.trimLeft_append_cons (by decide), ← List.cons_append,
    ← List.append_assoc, Text.trimRight_append_of_last (by decide)]

/-- Trimming a line takes off blanks of the first description only, which do not count. -/
theorem links_trim_linkLine (plain : ∀ link ∈ line, link.Plain) :
    links (Text.trim (linkLine line)) = line.filterMap WrittenLink.cited? := by
  cases line with
  | nil => rfl
  | cons link line =>
    obtain ⟨here, plain⟩ := List.forall_mem_cons.mp plain
    rw [trim_linkLine link line,
      links_linkLine (List.forall_mem_cons.mpr ⟨here.trimStart, plain⟩), List.filterMap_cons,
      List.filterMap_cons, WrittenLink.cited?_trimStart]

theorem startsHeading_iff {s : String} :
    Text.startsWith "#" s = true ↔ s.toList.head? = some '#' := by
  have mark : "#" = String.singleton '#' := by simp
  rw [mark, Text.startsWith_singleton]

/-- A line of links is no heading unless its first description makes it one. -/
theorem not_heading_linkLine (plain : Text.startsWith "#" (Text.trim link.description) = false) :
    Text.startsWith "#" (Text.trim (linkLine (link :: line))) = false := by
  rw [Bool.eq_false_iff, ne_eq, startsHeading_iff, Text.head?_trim] at plain ⊢
  obtain ⟨body, letters⟩ := exists_linkLine link.shown link.target line
  rw [letters, List.append_assoc, List.cons_append, Text.trimLeft_append_cons (by decide),
    List.head?_append]
  cases first : (Text.trimLeft link.description.toList).head? with
  | none => simp
  | some c => simpa [first] using plain

end Trim

/-! ### Lines that are not blank -/

def solidLines (content : String) : List String :=
  (lines content).filter (· != "")

/-- Of lines that are joined, those that are not blank are found again, trimmed. -/
theorem solidLines_intercalate {ls : List String} (one_line : ∀ l ∈ ls, '\n' ∉ l.toList) :
    solidLines ("\n".intercalate ls) = (ls.filter (!Text.isBlankText ·)).map Text.trim := by
  have solid : ((· != "") ∘ Text.trim) = (!Text.isBlankText ·) := by
    funext l
    rw [Function.comp_apply, bne, Bool.not_inj_iff, ← Bool.coe_iff_coe, beq_iff_eq,
      Text.trim_eq_empty_iff]
  rw [solidLines, lines, List.filter_map, solid]
  by_cases nothing : ls = []
  · subst nothing
    decide
  · exact congrArg (fun ls => (List.filter _ ls).map Text.trim)
      (Text.pieces_intercalate nothing one_line)

/-- What stands after a mark is looked for line by line, and blank lines do not matter. -/
theorem after?_eq {mark : String} (some_mark : mark ≠ "") :
    after? mark content = (solidLines content).findSome? (Text.stripStart? mark) := by
  have blank : Text.stripStart? mark "" = none :=
    Text.stripStart?_eq_none.mpr fun starts =>
      some_mark (String.toList_eq_nil_iff.mp (List.prefix_nil.mp starts))
  rw [after?, solidLines]
  induction lines content with
  | nil => rfl
  | cons line rest ih =>
    by_cases nothing : line = ""
    · rw [nothing, List.filter_cons_of_neg (by decide), List.findSome?_cons, blank, ih]
    · rw [List.filter_cons_of_pos (by simpa using nothing), List.findSome?_cons,
        List.findSome?_cons, ih]

/-- The section on the status is what stands between its heading and the next one; blank lines
do not matter. -/
theorem statusSection_eq : statusSection content =
    (((solidLines content).dropWhile fun line => !Text.eqIgnoreCase line "## status").drop 1
      |>.takeWhile fun line => !Text.startsWith "#" line) := by
  -- A blank line is neither the heading of the section nor that of the next one.
  have before : (fun line => !(line != "") || !Text.eqIgnoreCase line "## status") =
      fun line => !Text.eqIgnoreCase line "## status" := by
    funext line
    by_cases nothing : line = ""
    · subst nothing
      decide +kernel
    · simp [nothing]
  have within : (fun line => !(line != "") || !Text.startsWith "#" line) =
      fun line => !Text.startsWith "#" line := by
    funext line
    by_cases nothing : line = ""
    · subst nothing
      decide
    · simp [nothing]
  rw [solidLines, List.dropWhile_filter, before, statusSection]
  have heading := List.head?_dropWhile_not (fun line => !Text.eqIgnoreCase line "## status")
    (lines content)
  cases fromHeading : (lines content).dropWhile fun line => !Text.eqIgnoreCase line "## status" with
  | nil => rfl
  | cons line rest =>
    rw [fromHeading] at heading
    have some_text : line ≠ "" := by
      rintro rfl
      have blank : (!Text.eqIgnoreCase "" "## status") = true := by decide +kernel
      exact Bool.false_ne_true (heading.symm.trans blank)
    rw [List.filter_cons_of_pos (by simpa using some_text), List.drop_one, List.drop_one,
      List.tail_cons, List.tail_cons, List.takeWhile_filter, within]

/-! ### The usual layout -/

/-- A date of four, two and two digits with hyphens between them. -/
inductive Dated (date : String) : Prop
  | intro {year month day : String} (whole : date = year ++ "-" ++ month ++ "-" ++ day)
      (year_length : year.length = 4) (month_length : month.length = 2)
      (day_length : day.length = 2)
      (decimal : ∀ c ∈ (year ++ month ++ day).toList, c.isDigit = true)

/-- The values that a record is made of. -/
structure Layout where
  number : String
  title : String
  date : String
  status : String
  links : List (List WrittenLink)

namespace Layout

/-- The lines in front of the section `## Context`. -/
def front (r : Layout) : List String :=
  ["# " ++ r.number ++ ". " ++ r.title, "Date: " ++ r.date, "## Status", r.status] ++
    r.links.map linkLine

/-- The lines of the text are those of the layout, then the line `## Context`, then any others,
with blank lines among all of them.  No line holds a break, so neither do the values. -/
def Spells (r : Layout) (content : String) : Prop :=
  ∃ ls further, content = "\n".intercalate ls ∧ (∀ l ∈ ls, '\n' ∉ l.toList) ∧
    ls.filter (!Text.isBlankText ·) = r.front ++ "## Context" :: further

/-- The values can be told apart where they are written. -/
structure WellFormed (r : Layout) : Prop where
  number : r.number ≠ "" ∧ ∀ c ∈ r.number.toList, c.isDigit = true
  title : r.title ≠ "" ∧ Text.Trimmed r.title
  date : Dated r.date
  status : r.status ≠ "" ∧ ∀ c ∈ r.status.toList, c.isAlpha = true
  links : ∀ line ∈ r.links, line ≠ [] ∧ ∀ link ∈ line, link.Plain
  headless : ∀ link rest, link :: rest ∈ r.links →
    Text.startsWith "#" (Text.trim link.description) = false

/-- The decision holds the values of the record, and is listed under the number of its file. -/
structure ReadAs (r : Layout) (digits content : String) (d : Decision) : Prop where
  id : Unpadded digits d.id
  title : d.title = r.title
  date : d.date = r.date
  status : d.status = r.status
  content : d.content = content
  /-- The links ascend, so that none of them is listed twice. -/
  ascending : d.links.Pairwise fun a b => toLex a < toLex b
  links : ∀ id description, (id, description) ∈ d.links ↔
    id ≠ d.id ∧ ∃ line ∈ r.links, ∃ link ∈ line,
      Cites link.target id ∧ description = Text.trim link.description

end Layout

variable {r : Layout}

/-! ### Titles, dates and status words -/

/-- The number in front of a title is taken off with its full stop and the blank behind it. -/
theorem withoutNumber_of_digits {number title : String} (some_digit : number ≠ "")
    (decimal : ∀ c ∈ number.toList, c.isDigit = true) (some_text : title ≠ "")
    (trimmed : Text.Trimmed title) : withoutNumber (number ++ ". " ++ title) = title := by
  obtain ⟨c, cs, letters⟩ : ∃ c cs, number.toList = c :: cs :=
    List.exists_cons_of_ne_nil (mt String.toList_eq_nil_iff.mp some_digit)
  have solid : Text.isBlank c = false :=
    Text.isBlank_of_isAlphanum (by simp [Char.isAlphanum, decimal c (by simp [letters])])
  have whole : Text.Trimmed (number ++ ". " ++ title) :=
    trimmed.prepend some_text ⟨c, cs ++ ". ".toList, by simp [letters], solid⟩
  have rest : (number ++ ". " ++ title).toList.dropWhile Char.isDigit = (". " ++ title).toList := by
    refine (cut_iff.mpr ⟨?_, decimal, ?_⟩).2
    · rw [String.append_assoc, String.toList_append]
    · simp [Char.isDigit]
  have stripped : Text.stripStart? ". " (". " ++ title) = some title :=
    Text.stripStart?_eq_some.mpr rfl
  have shorter : (". " ++ title).length < (number ++ ". " ++ title).length := by
    have some_digits : 0 < number.length := by simp [← String.length_toList, letters]
    simpa [String.length_append] using some_digits
  -- Other ways to unfold it evaluate the mark.
  delta withoutNumber
  simp only [whole.trim_eq, rest, String.ofList_toList, stripped, if_pos shorter,
    trimmed.trim_eq]

/-- A date that is written with all its digits is read as one. -/
theorem isDate_of_dated {s : String} (dated : Dated s) : isDate s = true := by
  obtain @⟨year, month, day, rfl, year_length, month_length, day_length, decimal⟩ := dated
  rw [← String.length_toList] at year_length month_length day_length
  obtain ⟨a, b, c, d, year_eq⟩ := List.length_eq_four.mp year_length
  obtain ⟨e, f, month_eq⟩ := List.length_eq_two.mp month_length
  obtain ⟨g, h, day_eq⟩ := List.length_eq_two.mp day_length
  have whole :
      (year ++ "-" ++ month ++ "-" ++ day).toList = [a, b, c, d, '-', e, f, '-', g, h] := by
    simp [year_eq, month_eq, day_eq]
  have digits : [a, b, c, d, e, f, g, h].all Char.isDigit = true := by
    rw [List.all_eq_true]
    simpa [year_eq, month_eq, day_eq] using decimal
  rw [isDate, whole]
  exact digits

/-- A date starts and ends with a digit. -/
theorem Dated.trimmed {s : String} (dated : Dated s) : Text.Trimmed s := by
  obtain @⟨year, month, day, rfl, -, -, -, decimal⟩ := dated
  refine Text.trimmed_of_solid fun c mem => ?_
  have letter : (c ∈ year.toList ∨ c ∈ month.toList ∨ c ∈ day.toList) ∨ c = '-' := by
    simp at mem
    grind
  rcases letter with listed | rfl
  · exact Text.isBlank_of_isAlphanum (by simp [Char.isAlphanum, decimal c (by simpa using listed)])
  · decide

/-- A word of letters is a status as it stands. -/
theorem statusWord_of_letters {status : String} (letters : ∀ c ∈ status.toList, c.isAlpha = true) :
    statusWord status = status := by
  have plain : ∀ c ∈ status.toList, c.isAlphanum = true := fun c mem => by
    simp [Char.isAlphanum, letters c mem]
  have solid : ∀ c ∈ status.toList, Text.isBlank c = false := fun c mem =>
    Text.isBlank_of_isAlphanum (plain c mem)
  have word : Text.firstWord status = status := by
    have left : Text.trimLeft status.toList = status.toList :=
      (cut_iff.mpr ⟨(List.nil_append _).symm, List.forall_mem_nil _, fun c first =>
        solid c (List.mem_of_mem_head? first)⟩).2
    rw [Text.firstWord, left, List.takeWhile_eq_self_iff.mpr (by simpa using solid),
      String.ofList_toList]
  have kept : Text.dropEndWhile Text.isPunctuation status.toList = status.toList :=
    List.rdropWhile_eq_self_iff.mpr fun some_letter => by
      simp [Text.isPunctuation_of_isAlphanum (plain _ (List.getLast_mem some_letter))]
  rw [statusWord, word, kept, String.ofList_toList]

/-! ### Links of a decision -/

/-- Adding links takes up those that do not lead back, and changes nothing else. -/
theorem exists_addLinks (d : Decision) (listed : List (String × String))
    (ascending : d.links.Pairwise fun a b => toLex a < toLex b) : ∃ links,
    listed.foldl (fun d (target, text) => d.addLink target text) d = { d with links } ∧
      (links.Pairwise fun a b => toLex a < toLex b) ∧
      ∀ p, p ∈ links ↔ p ∈ d.links ∨ (p ∈ listed ∧ p.1 ≠ d.id) := by
  induction listed generalizing d with
  | nil => exact ⟨d.links, rfl, ascending, by simp⟩
  | cons p listed ih =>
    obtain ⟨target, text⟩ := p
    simp only [List.foldl_cons, Decision.addLink]
    split
    case isTrue own =>
      obtain ⟨links, sum, ascending, mem⟩ := ih d ascending
      refine ⟨links, sum, ascending, fun q => (mem q).trans ?_⟩
      have other : q.1 ≠ d.id → q ≠ (target, text) := fun other same => other (same ▸ own)
      rw [List.mem_cons]
      tauto
    case isFalse other =>
      obtain ⟨links, sum, ascending', mem⟩ :=
        ih { d with links := insertSorted pairBelow (target, text) d.links }
          (pairwise_insertSorted pairBelow_iff ascending)
      refine ⟨links, sum, ascending', fun q => (mem q).trans ?_⟩
      have here : q = (target, text) → q.1 ≠ d.id := fun same => same ▸ other
      rw [mem_insertSorted pairBelow_iff ascending, toLex_inj.ne, List.mem_cons]
      tauto

/-! ### Reading -/

section Reading

variable (formed : r.WellFormed) (spelled : r.Spells content)

include formed spelled

/-- What the scans see of a record. -/
theorem solidLines_spelled : ∃ further, solidLines content =
    ["# " ++ r.number ++ ". " ++ r.title, "Date: " ++ r.date, "## Status", r.status] ++
      r.links.map (Text.trim ∘ linkLine) ++ "## Context" :: further := by
  obtain ⟨ls, further, rfl, one_line, solid⟩ := spelled
  have heading : Text.Trimmed ("# " ++ r.number ++ ". " ++ r.title) :=
    formed.title.2.prepend formed.title.1
      ⟨'#', ' ' :: r.number.toList ++ ". ".toList, by simp, by decide⟩
  have date : Text.Trimmed ("Date: " ++ r.date) := by
    refine formed.date.trimmed.prepend ?_ ⟨'D', "ate: ".toList, by decide, by decide⟩
    rintro nothing
    exact absurd (nothing ▸ isDate_of_dated formed.date) (by decide)
  have status : Text.Trimmed r.status := Text.trimmed_of_solid fun c mem =>
    Text.isBlank_of_isAlphanum (by simp [Char.isAlphanum, formed.status.2 c mem])
  have kept : Text.trim "## Status" = "## Status" ∧ Text.trim "## Context" = "## Context" := by
    decide +kernel
  refine ⟨further.map Text.trim, ?_⟩
  rw [solidLines_intercalate one_line, solid, Layout.front]
  simp [heading.trim_eq, date.trim_eq, status.trim_eq, kept]

/-- The title stands in the first line that is not blank. -/
theorem after?_title : after? "# " content = some (r.number ++ ". " ++ r.title) := by
  obtain ⟨further, solid⟩ := solidLines_spelled formed spelled
  have found : Text.stripStart? "# " ("# " ++ r.number ++ ". " ++ r.title) =
      some (r.number ++ ". " ++ r.title) :=
    Text.stripStart?_eq_some.mpr (by simp only [String.append_assoc])
  rw [after?_eq (by decide), solid, List.cons_append, List.cons_append, List.findSome?_cons, found]

/-- The date stands in the first line behind the title that has its mark. -/
theorem after?_date : after? "Date:" content = some (" " ++ r.date) := by
  obtain ⟨further, solid⟩ := solidLines_spelled formed spelled
  have other : Text.stripStart? "Date:" ("# " ++ r.number ++ ". " ++ r.title) = none :=
    Text.stripStart?_eq_none.mpr (by simp)
  have found : Text.stripStart? "Date:" ("Date: " ++ r.date) = some (" " ++ r.date) :=
    Text.stripStart?_eq_some.mpr (by simp [← String.toList_inj])
  simp only [after?_eq (show "Date:" ≠ "" by decide), solid, List.cons_append,
    List.findSome?_cons, other, found]

/-- The section on the status holds the status and the links, in the order in which they are
written. -/
theorem statusSection_spelled :
    statusSection content = r.status :: r.links.map (Text.trim ∘ linkLine) := by
  obtain ⟨further, solid⟩ := solidLines_spelled formed spelled
  have heading : Text.eqIgnoreCase ("# " ++ r.number ++ ". " ++ r.title) "## status" = false := by
    simp [Text.eqIgnoreCase, Text.lower, ← String.toList_inj]
  have date : Text.eqIgnoreCase ("Date: " ++ r.date) "## status" = false := by
    simp [Text.eqIgnoreCase, Text.lower, ← String.toList_inj]
  have own : Text.eqIgnoreCase "## Status" "## status" = true := by decide +kernel
  have within : ∀ line ∈ r.status :: r.links.map (Text.trim ∘ linkLine),
      (!Text.startsWith "#" line) = true := by
    simp only [Bool.not_eq_true', List.forall_mem_cons, List.forall_mem_map]
    refine ⟨Bool.eq_false_iff.mpr fun starts => ?_, fun line listed => ?_⟩
    · have mark := formed.status.2 '#' (List.mem_of_mem_head? (startsHeading_iff.mp starts))
      exact absurd mark (by decide)
    · obtain ⟨link, rest, rfl⟩ := List.exists_cons_of_ne_nil (formed.links line listed).1
      exact not_heading_linkLine (formed.headless link rest listed)
  have after : Text.startsWith "#" "## Context" = true := startsHeading_iff.mpr (by simp)
  rw [statusSection_eq, solid]
  simp only [List.cons_append, List.nil_append, List.dropWhile_cons, heading, date, own,
    Bool.not_false, Bool.not_true, if_true, List.drop_one]
  rw [if_neg Bool.false_ne_true, List.tail_cons, ← List.cons_append,
    List.takeWhile_append_of_pos within, List.takeWhile_cons_of_neg (by simp [after]),
    List.append_nil]

/-- The links of the section are those of its lines that cite a record. -/
theorem mem_links_spelled {p : String × String} :
    p ∈ (statusSection content).flatMap links ↔ ∃ line ∈ r.links, ∃ link ∈ line,
      Cites link.target p.1 ∧ p.2 = Text.trim link.description := by
  have plain : '[' ∉ r.status.toList := fun mem =>
    absurd (formed.status.2 '[' mem) (by decide)
  have none_here : links r.status = [] := scanLinks_of_plain plain
  rw [statusSection_spelled formed spelled, List.flatMap_cons, none_here, List.nil_append,
    List.flatMap_map, List.mem_flatMap]
  refine exists_congr fun line => and_congr_right fun listed => ?_
  rw [Function.comp_apply, links_trim_linkLine (formed.links line listed).2, List.mem_filterMap]
  exact exists_congr fun link => and_congr_right fun _ => WrittenLink.cited?_eq_some

end Reading

/-- A record in the usual layout is read back, whatever follows it. -/
theorem read_of_spells {slug : String} (formed : r.WellFormed) (spelled : r.Spells content)
    (some_digit : digits ≠ "") (decimal : ∀ c ∈ digits.toList, c.isDigit = true)
    (named : LastSegment path (digits ++ "-" ++ slug ++ ".md")) :
    ∃ d, read path content = .ok d ∧ r.ReadAs digits content d := by
  obtain ⟨id, unpadded⟩ := exists_unpadded digits
  have number : number? (fileName path) = some id := by
    rw [fileName_of_lastSegment named, String.append_assoc, String.append_assoc]
    exact number?_of_numbered (.intro rfl some_digit decimal (by simp [Char.isDigit]) unpadded)
  have title : withoutNumber (r.number ++ ". " ++ r.title) = r.title :=
    withoutNumber_of_digits formed.number.1 formed.number.2 formed.title.1 formed.title.2
  have date : Text.trim (" " ++ r.date) = r.date := by
    rw [Text.trim_append_of_blank (List.all_eq_true.mp (by decide)), formed.date.trimmed.trim_eq]
  have read_eq : read path content = .ok (withStatus
      { id, title := r.title, content, date := r.date } (statusSection content)) := by
    simp only [read, number, after?_title formed spelled, after?_date formed spelled, title, date,
      isDate_of_dated formed.date, if_true]
    rfl
  have word : statusWord r.status = r.status := statusWord_of_letters formed.status.2
  obtain ⟨links, sum, ascending, mem⟩ := exists_addLinks
    { id, title := r.title, content, date := r.date, status := r.status }
    ((statusSection content).flatMap Record.links) .nil
  refine ⟨{ id, title := r.title, content, date := r.date, status := r.status, links }, ?_,
    unpadded, rfl, rfl, rfl, rfl, ascending, fun id description => ?_⟩
  · rw [read_eq, ← sum, statusSection_spelled formed spelled, withStatus, word]
  · rw [mem, mem_links_spelled formed spelled]
    simp [and_comm]

/-- A record that supersedes one decision and amends another. -/
def usePostgres : Layout where
  number := "3"
  title := "Use Postgres"
  date := "2024-03-01"
  status := "Accepted"
  links := [[⟨"Supersedes ", "1. Use MySQL", "0001-use-mysql.md"⟩],
    [⟨"Amends ", "2. Use an ORM", "0002-use-an-orm.md"⟩]]

theorem wellFormed_usePostgres : usePostgres.WellFormed where
  number := ⟨by decide, List.all_eq_true.mp (by decide)⟩
  title := by
    have trimmed : Text.trim usePostgres.title = usePostgres.title := by decide +kernel
    exact ⟨by decide +kernel, trimmed ▸ Text.trimmed_trim usePostgres.title⟩
  date := @Dated.intro _ "2024" "03" "01" (by decide +kernel) rfl rfl rfl
    (List.all_eq_true.mp (by decide +kernel))
  status := ⟨by decide, List.all_eq_true.mp (by decide +kernel)⟩
  links := by
    simp only [usePostgres, List.forall_mem_cons]
    refine ⟨⟨by simp, ⟨?_, ?_, ?_⟩, by simp⟩, ⟨by simp, ⟨?_, ?_, ?_⟩, by simp⟩, by simp⟩
    all_goals decide +kernel
  headless := by
    simp only [usePostgres, List.mem_cons, List.cons.injEq, List.not_mem_nil, or_false]
    rintro link rest (⟨rfl, -⟩ | ⟨rfl, -⟩) <;> decide +kernel

def usePostgresText : String :=
  "# 3. Use Postgres\n\nDate: 2024-03-01\n\n## Status\n\nAccepted\n\n" ++
    "Supersedes [1. Use MySQL](0001-use-mysql.md)\n\n" ++
    "Amends [2. Use an ORM](0002-use-an-orm.md)\n\n" ++
    "## Context\n\nMySQL licensing changed.\n"

theorem spells_usePostgresText : usePostgres.Spells usePostgresText := by
  refine ⟨["# 3. Use Postgres", "", "Date: 2024-03-01", "", "## Status", "", "Accepted", "",
    "Supersedes [1. Use MySQL](0001-use-mysql.md)", "",
    "Amends [2. Use an ORM](0002-use-an-orm.md)", "", "## Context", "",
    "MySQL licensing changed.", ""], ["MySQL licensing changed."], ?_, ?_, ?_⟩
  all_goals decide +kernel

/-- The record of the move to Postgres, read from a file of that number. -/
theorem read_of_usePostgres :
    ∃ d, read "docs/adr/0003-use-postgres.md" usePostgresText = .ok d ∧
      usePostgres.ReadAs "0003" usePostgresText d ∧ d.id = "3" ∧
        ("1", "Supersedes") ∈ d.links := by
  have named : LastSegment "docs/adr/0003-use-postgres.md"
      ("0003" ++ "-" ++ "use-postgres" ++ ".md") :=
    @LastSegment.intro _ _ "docs/adr/" (by decide +kernel) (by simp) (by simp)
  obtain ⟨d, done, told⟩ := read_of_spells wellFormed_usePostgres spells_usePostgresText
    (by decide) (List.all_eq_true.mp (by decide)) named
  have id : d.id = "3" := (withoutZeros_of_unpadded told.id).symm.trans (by decide +kernel)
  have cites : Cites "0001-use-mysql.md" "1" :=
    number?_fileName_eq_some_iff.mp (by decide +kernel)
  refine ⟨d, done, told, id, (told.links _ _).mpr ⟨?_, _, List.mem_cons_self, _,
    List.mem_cons_self, cites, by decide +kernel⟩⟩
  rw [id]
  decide

end Edifice.Record
