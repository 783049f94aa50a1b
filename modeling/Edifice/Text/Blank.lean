/-!
White space as the language sees it.

A character is blank when Unicode gives it the property `White_Space`; the lexer,
`trim` and continued lines all share this one test (`isBlank`).  Trimming works on
character lists, and the `String` forms are thin wrappers around them.
-/

namespace Edifice.Text

/-- The characters with the Unicode property `White_Space`. -/
def isBlank (c : Char) : Bool :=
  let n := c.toNat
  (0x09 ≤ n && n ≤ 0x0D) || n == 0x20 || n == 0x85 || n == 0xA0 || n == 0x1680 ||
    (0x2000 ≤ n && n ≤ 0x200A) || n == 0x2028 || n == 0x2029 || n == 0x202F ||
    n == 0x205F || n == 0x3000

def trimLeft (cs : List Char) : List Char :=
  cs.dropWhile isBlank

/-- Drops the longest run of characters satisfying `p` at the end. -/
def dropEndWhile (p : Char → Bool) (cs : List Char) : List Char :=
  (cs.reverse.dropWhile p).reverse

def trimRight (cs : List Char) : List Char :=
  dropEndWhile isBlank cs

def trim (s : String) : String :=
  String.ofList (trimRight (trimLeft s.toList))

def isBlankText (s : String) : Bool :=
  s.toList.all isBlank

def firstWord (s : String) : String :=
  String.ofList ((trimLeft s.toList).takeWhile fun c => !isBlank c)

end Edifice.Text
