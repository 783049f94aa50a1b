/-!
Whole numbers in decimal notation.

Reading takes an optional `+` and at least one ASCII digit and refuses a value above
the given limit; writing pads with zeros on the left.
-/

namespace Edifice.Text

/-- The value of a run of ASCII digits, read from the left. -/
def digitsValue (cs : List Char) : Nat :=
  cs.foldl (fun n c => 10 * n + (c.toNat - '0'.toNat)) 0

/-- Reads a whole number of at most `limit`. -/
def readNat? (limit : Nat) (s : String) : Option Nat :=
  let digits := match s.toList with
    | '+' :: rest => rest
    | cs => cs
  if digits.isEmpty || !digits.all Char.isDigit then none
  else
    let n := digitsValue digits
    if n ≤ limit then some n else none

def wordLimit : Nat := 4294967295

def octetLimit : Nat := 255

/-- Decimal digits, padded with zeros to at least `width` places. -/
def padded (width n : Nat) : String :=
  let digits := toString n
  String.ofList (List.replicate (width - digits.length) '0') ++ digits

end Edifice.Text
