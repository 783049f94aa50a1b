/-!
Byte ranges of a source.
-/

namespace Edifice

/-- A half-open range of bytes. -/
structure Span where
  start : Nat := 0
  stop : Nat := start
  start_le_stop : start ≤ stop := by omega
deriving DecidableEq, Repr

namespace Span

/-- The range from `start` to `stop`, empty when `stop` comes first. -/
def between (start stop : Nat) : Span where
  start
  stop := max start stop
  start_le_stop := Nat.le_max_left start stop

def point (offset : Nat) : Span where
  start := offset
  stop := offset
  start_le_stop := Nat.le_refl offset

def length (s : Span) : Nat :=
  s.stop - s.start

def isEmpty (s : Span) : Bool :=
  s.start == s.stop

/-- The smallest range that covers both. -/
def union (a b : Span) : Span where
  start := min a.start b.start
  stop := max a.stop b.stop
  start_le_stop := by have := a.start_le_stop; omega

end Span

end Edifice
