/-!
The step numbers of a dynamic view.

A parallel block numbers its steps from the value current when it opened, and closing
it restores that value, so sibling blocks share numbers.  Closing the outermost block
goes on after the highest number used.
-/

namespace Edifice

/-- Where the numbering of a dynamic view stands. -/
structure StepCounter where
  /-- The number given last in the current block. -/
  value : Nat := 0
  /-- The highest number given so far. -/
  highest : Nat := 0
  /-- The values at which the open parallel blocks started, innermost first. -/
  saved : List Nat := []
deriving DecidableEq, Repr

namespace StepCounter

/-- The next number, and the counter after it. -/
def next (c : StepCounter) : Nat × StepCounter :=
  let n := c.value + 1
  (n, { c with value := n, highest := max c.highest n })

def startParallel (c : StepCounter) : StepCounter :=
  { c with saved := c.value :: c.saved }

/-- Closes the innermost parallel block and says whether there was one. -/
def endParallel (c : StepCounter) : Bool × StepCounter :=
  match c.saved with
  | [] => (false, c)
  | [value] => (true, { c with value := max c.highest value, saved := [] })
  | value :: saved => (true, { c with value, saved })

end StepCounter

end Edifice
