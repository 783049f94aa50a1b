/-!
Case and punctuation in the ASCII range.

Keywords are compared without regard to ASCII case only: letters beyond `z` keep
theirs.  Digits and letters are the ASCII classes of `Char`.
-/

namespace Edifice.Text

/-- The ASCII graphic characters that are neither letters nor digits. -/
def isPunctuation (c : Char) : Bool :=
  let n := c.toNat
  (0x21 ≤ n && n ≤ 0x2F) || (0x3A ≤ n && n ≤ 0x40) || (0x5B ≤ n && n ≤ 0x60) ||
    (0x7B ≤ n && n ≤ 0x7E)

def hexDigit? (c : Char) : Option Nat :=
  if c.isDigit then some (c.toNat - '0'.toNat)
  else if 'a' ≤ c && c ≤ 'f' then some (c.toNat - 'a'.toNat + 10)
  else if 'A' ≤ c && c ≤ 'F' then some (c.toNat - 'A'.toNat + 10)
  else none

def lower (s : String) : String :=
  String.ofList (s.toList.map Char.toLower)

/-- Equality that ignores the case of ASCII letters. -/
def eqIgnoreCase (s t : String) : Bool :=
  lower s == lower t

end Edifice.Text
