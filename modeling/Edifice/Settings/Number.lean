import Edifice.Text.Ascii

/-!
The numbers of a settings file.

A number is read exactly, so that its range can be told from its value alone: a whole
number must lie in 128 bits with or without a sign, and any other must not round beyond
the largest binary number of double precision.
-/

namespace Edifice.Settings

/-- A number as it is written. -/
inductive Number where
  | whole (value : Int)
  /-- The digits times ten to the power of the scale. -/
  | decimal (digits : Int) (scale : Int)
  /-- Infinity, or what is not a number. -/
  | special
deriving DecidableEq, Repr

/-! ### Reading -/

def digit? (base : Nat) (c : Char) : Option Nat :=
  (Text.hexDigit? c).filter (· < base)

/-- The value of digits to a base; single underscores may stand between them. -/
def digits? (base : Nat) (cs : List Char) : Option Nat := do
  let runs := cs.splitOn '_'
  guard (runs.all (!·.isEmpty))
  let digits ← runs.flatten.mapM (digit? base)
  return digits.foldl (fun n d => base * n + d) 0

/-- Whether a sign makes a number negative, and the number without its sign. -/
def signed : List Char → Bool × List Char
  | '-' :: cs => (true, cs)
  | '+' :: cs => (false, cs)
  | cs => (false, cs)

/-- The integer with a magnitude. -/
def withSign (negative : Bool) (n : Nat) : Int :=
  if negative then -n else n

/-- The value of an exponent after its letter. -/
def exponent? (cs : List Char) : Option Int := do
  let (negative, cs) := signed cs
  return withSign negative (← digits? 10 cs)

def tenToThe (n : Nat) : Nat :=
  Nat.pow 10 n

/-- Reads a number to the base ten that is no word. -/
def decimal? (negative : Bool) (cs : List Char) : Option Number := do
  let (mantissa, exponent) := cs.span fun c => c != 'e' && c != 'E'
  let (whole, fraction) := mantissa.span (· != '.')
  guard (whole == ['0'] || whole.head? != some '0')
  let n ← digits? 10 whole
  let part := fraction.drop 1
  match fraction.isEmpty, exponent.isEmpty with
  | true, true => return .whole (withSign negative n)
  | true, false => return .decimal (withSign negative n) (← exponent? (exponent.drop 1))
  | false, _ =>
    let places := part.countP Char.isDigit
    let n := n * tenToThe places + (← digits? 10 part)
    let scale ← if exponent.isEmpty then pure 0 else exponent? (exponent.drop 1)
    return .decimal (withSign negative n) (scale - places)

def Number.read? : List Char → Option Number
  | '0' :: 'x' :: cs => (digits? 16 cs).map fun n => .whole n
  | '0' :: 'o' :: cs => (digits? 8 cs).map fun n => .whole n
  | '0' :: 'b' :: cs => (digits? 2 cs).map fun n => .whole n
  | cs =>
    match signed cs with
    | (_, ['i', 'n', 'f']) | (_, ['n', 'a', 'n']) => some .special
    | (negative, cs) => decimal? negative cs

/-! ### Ranges -/

/-- The least magnitude that rounds beyond the largest number of double precision: it
lies half way from there to the next power of two, and a half goes up. -/
def doubleLimit : Nat := Nat.pow 2 1024 - Nat.pow 2 970

/-- Whether some digits times ten to the power of `scale` stay below the limit.  Powers of
more than 308 exceed it for all digits but zero.  Digits of fewer binary places than the
power that divides them give less than one. -/
def isDouble (digits : Nat) (scale : Int) : Bool :=
  digits == 0 ||
    match scale with
    | .ofNat n => n ≤ 308 && digits * tenToThe n < doubleLimit
    | .negSucc n => digits.log2 ≤ n || digits < doubleLimit * tenToThe (n + 1)

theorem doubleLimit_le {n : Nat} (h : 308 < n) : doubleLimit ≤ tenToThe n := by
  induction h with
  | refl => decide +kernel
  | step _ ih => exact Nat.le_trans ih (Nat.pow_le_pow_right (by decide) (Nat.le_succ _))

theorem doubleLimit_pos : 0 < doubleLimit := by decide +kernel

/-- The bound on the power only saves the work. -/
theorem isDouble_ofNat_iff (digits n : Nat) :
    isDouble digits (.ofNat n) = true ↔ digits * tenToThe n < doubleLimit := by
  have far (hn : 308 < n) (hd : 0 < digits) : doubleLimit ≤ digits * tenToThe n :=
    Nat.le_trans (doubleLimit_le hn) (Nat.le_mul_of_pos_left _ hd)
  rcases Nat.eq_zero_or_pos digits with rfl | hd
  · simp [isDouble, doubleLimit_pos]
  · have nonzero : digits ≠ 0 := by omega
    simp only [isDouble, Bool.or_eq_true, beq_iff_eq, nonzero, false_or, Bool.and_eq_true,
      decide_eq_true_eq]
    exact ⟨And.right, fun h => ⟨Nat.le_of_not_lt fun hn => Nat.not_lt.mpr (far hn hd) h, h⟩⟩

/-- The comparison of the binary places only saves the work. -/
theorem isDouble_negSucc_iff (digits n : Nat) :
    isDouble digits (.negSucc n) = true ↔ digits < doubleLimit * tenToThe (n + 1) := by
  have small (h : digits.log2 ≤ n) : digits < doubleLimit * tenToThe (n + 1) :=
    calc digits < 2 ^ (digits.log2 + 1) := Nat.lt_log2_self
      _ ≤ 2 ^ (n + 1) := Nat.pow_le_pow_right (by decide) (by omega)
      _ ≤ tenToThe (n + 1) := Nat.pow_le_pow_left (by decide) _
      _ ≤ doubleLimit * tenToThe (n + 1) := Nat.le_mul_of_pos_left _ doubleLimit_pos
  simp only [isDouble, Bool.or_eq_true, beq_iff_eq, decide_eq_true_eq]
  constructor
  · rintro (rfl | h | h)
    · exact Nat.mul_pos doubleLimit_pos (Nat.pow_pos (by decide))
    · exact small h
    · exact h
  · exact fun h => .inr (.inr h)

def Number.inRange : Number → Bool
  | .whole n => -.ofNat (Nat.pow 2 127) ≤ n && n < .ofNat (Nat.pow 2 128)
  | .decimal digits scale => isDouble digits.natAbs scale
  | .special => true

end Edifice.Settings
