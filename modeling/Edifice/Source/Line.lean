import Edifice.Text.Blank

/-!
The logical lines of a source, one for each statement.

A physical line that ends in a backslash after a blank, outside of quotes, goes on in the
next one.  The backslash and what follows it up to the next line are replaced by as many
spaces as they have bytes, so offsets into a logical line are offsets into the source.
Lines from one that starts with `/*` to one that ends with `*/` are a comment, unless a
continued line is under way.
-/

namespace Edifice.Source

def byteCount (cs : List Char) : Nat :=
  cs.foldl (fun n c => n + c.utf8Size) 0

@[simp] theorem byteCount_nil : byteCount [] = 0 :=
  rfl

@[simp] theorem byteCount_cons (c : Char) (cs : List Char) :
    byteCount (c :: cs) = c.utf8Size + byteCount cs := by
  have count : ∀ n, cs.foldl (fun n c => n + c.utf8Size) n = n + byteCount cs := by
    induction cs with
    | nil => exact fun n => rfl
    | cons d ds ih =>
      intro n
      simp only [byteCount, List.foldl_cons] at ih ⊢
      rw [ih, ih (0 + d.utf8Size)]
      omega
  rw [byteCount, List.foldl_cons, count, Nat.zero_add]

@[simp] theorem byteCount_append (cs ds : List Char) :
    byteCount (cs ++ ds) = byteCount cs + byteCount ds := by
  induction cs with
  | nil => simp
  | cons c cs ih => rw [List.cons_append, byteCount_cons, ih, byteCount_cons, Nat.add_assoc]

/-- The text cut after each line feed. -/
def rawLines : List Char → List (List Char)
  | [] => []
  | c :: cs =>
    if c = '\n' then [c] :: rawLines cs
    else
      match rawLines cs with
      | [] => [[c]]
      | l :: ls => (c :: l) :: ls

/-- A line as it stands in the source, without its terminator. -/
structure PhysicalLine where
  /-- Lines are counted from 1. -/
  number : Nat
  /-- Where the line starts, in bytes. -/
  offset : Nat
  content : List Char
  /-- The number of bytes of the terminator. -/
  terminator : Nat
deriving DecidableEq, Repr

/-- Numbers the lines of a source, from a line number and an offset on. -/
def number : Nat → Nat → List (List Char) → List PhysicalLine
  | _, _, [] => []
  | n, offset, raw :: rest =>
    let content := Text.dropEndWhile (fun c => c == '\n' || c == '\r') raw
    { number := n, offset, content, terminator := byteCount raw - byteCount content } ::
      number (n + 1) (offset + byteCount raw) rest

def physicalLines (source : String) : List PhysicalLine :=
  number 1 0 (rawLines source.toList)

/-! ### Continued lines -/

/-- How quotes stand at a place in a line. -/
inductive Quoting where
  | outside
  | inside (quote : Char)
  /-- Inside quotes, after a backslash. -/
  | escaped (quote : Char)
deriving DecidableEq, Repr

/-- How quotes stand after one more character. -/
def Quoting.step (q : Quoting) (c : Char) : Quoting :=
  match q with
  | .outside => if c = '"' ∨ c = '\'' then .inside c else .outside
  | .inside quote =>
    if c = '\\' then .escaped quote else if c = quote then .outside else .inside quote
  | .escaped quote => .inside quote

/-- What stands before the backslash that ends the line, if one does. -/
def beforeBackslash? (line : List Char) : Option (List Char) :=
  match (Text.trimRight line).reverse with
  | '\\' :: before => some before.reverse
  | _ => none

/-- Whether the backslash after `before` stands by itself outside of quotes. -/
def marksContinuation (before : List Char) : Bool :=
  before.getLast?.all Text.isBlank && before.foldl Quoting.step .outside == .outside

/-- What stands before the mark that continues the line, if it is continued. -/
def beforeContinuation? (line : List Char) : Option (List Char) :=
  (beforeBackslash? line).filter marksContinuation

def continues (line : List Char) : Bool :=
  (beforeContinuation? line).isSome

/-! ### Logical lines -/

/-- One statement's worth of source. -/
structure LogicalLine where
  /-- The number of the first physical line. -/
  number : Nat
  /-- Where the line starts, in bytes. -/
  offset : Nat
  text : List Char := []
deriving DecidableEq, Repr

/-- What the lines read so far leave open. -/
inductive Open where
  | nothing
  /-- A line that goes on. -/
  | line (l : LogicalLine)
  /-- A comment, from the line that opened it. -/
  | comment (l : PhysicalLine)
deriving DecidableEq, Repr

def opensComment (content : List Char) : Bool :=
  ['/', '*'].isPrefixOf (Text.trimLeft content)

def closesComment (content : List Char) : Bool :=
  ['*', '/'].isSuffixOf (Text.trimRight content)

/-- Whether the line is a comment by itself: its two marks share no character. -/
def isWholeComment (content : List Char) : Bool :=
  closesComment content && 4 ≤ byteCount (Text.trimRight (Text.trimLeft content))

/-- The line without its continuation mark, whose place spaces take up to the next line. -/
def blankMark (p : PhysicalLine) (before : List Char) : List Char :=
  before ++ List.replicate (byteCount p.content - byteCount before + p.terminator) ' '

/-- Gathers physical lines into logical ones.  An open comment at the end is an error,
described by the line that opened it. -/
def gather : Open → List PhysicalLine → Except PhysicalLine (List LogicalLine)
  | .nothing, [] => .ok []
  | .line l, [] => .ok [l]
  | .comment opened, [] => .error opened
  | .comment opened, p :: ps =>
    gather (if closesComment p.content then .nothing else .comment opened) ps
  | .nothing, p :: ps =>
    if opensComment p.content then
      gather (if isWholeComment p.content then .nothing else .comment p) ps
    else
      match beforeContinuation? p.content with
      | some before =>
        gather (.line { number := p.number, offset := p.offset, text := blankMark p before }) ps
      | none => do
        return { number := p.number, offset := p.offset, text := p.content } ::
          (← gather .nothing ps)
  | .line l, p :: ps =>
    match beforeContinuation? p.content with
    | some before => gather (.line { l with text := l.text ++ blankMark p before }) ps
    | none => do return { l with text := l.text ++ p.content } :: (← gather .nothing ps)

/-- The logical lines of a source, or the line that opened a comment without end. -/
def logicalLines (source : String) : Except PhysicalLine (List LogicalLine) :=
  gather .nothing (physicalLines source)

end Edifice.Source
