/-!
The points in time of a settings file.

A point in time is a date, a time of a day or both; with both, it may say how far it is
from universal time.  It has to exist in the calendar.
-/

namespace Edifice.Settings

/-- The numbers between the occurrences of a mark, each written with as many digits as
`widths` has for it. -/
def fields? (mark : Char) (widths : List Nat) (cs : List Char) : Option (List Nat) :=
  let parts := cs.splitOn mark
  if parts.map List.length == widths && parts.all (·.all Char.isDigit) then
    some (parts.map fun ds => ds.foldl (fun n d => 10 * n + (d.toNat - '0'.toNat)) 0)
  else none

/-! ### Dates -/

def isLeapYear (year : Nat) : Bool :=
  year % 4 == 0 && (year % 100 != 0 || year % 400 == 0)

def daysIn (year month : Nat) : Nat :=
  match month with
  | 2 => if isLeapYear year then 29 else 28
  | 4 | 6 | 9 | 11 => 30
  | _ => 31

def isDate (cs : List Char) : Bool :=
  match fields? '-' [4, 2, 2] cs with
  | some [year, month, day] =>
    1 ≤ month && month ≤ 12 && 1 ≤ day && day ≤ daysIn year month
  | _ => false

/-! ### Times -/

def isHourMinute (cs : List Char) : Bool :=
  match fields? ':' [2, 2] cs with
  | some [hour, minute] => hour ≤ 23 && minute ≤ 59
  | _ => false

def isHourMinuteSecond (cs : List Char) : Bool :=
  match fields? ':' [2, 2, 2] cs with
  | some [hour, minute, second] => hour ≤ 23 && minute ≤ 59 && second ≤ 60
  | _ => false

/-- Whether the text is the time of a day.  Parts of a second come after seconds only. -/
def isTime (cs : List Char) : Bool :=
  match cs.span (· != '.') with
  | (clock, []) => isHourMinute clock || isHourMinuteSecond clock
  | (clock, _ :: part) => isHourMinuteSecond clock && !part.isEmpty && part.all Char.isDigit

def startsZone (c : Char) : Bool :=
  c == 'Z' || c == 'z' || c == '+' || c == '-'

/-- Whether the text is the distance from universal time. -/
def isZone : List Char → Bool
  | ['Z'] | ['z'] => true
  | c :: cs => (c == '+' || c == '-') && isHourMinute cs
  | [] => false

/-- Whether the text is the time of a day that may say how far it is from universal
time. -/
def isZonedTime (cs : List Char) : Bool :=
  let (time, zone) := cs.span fun c => !startsZone c
  isTime time && (zone.isEmpty || isZone zone)

/-! ### Both -/

def dateLength : Nat := 10

def isMoment (cs : List Char) : Bool :=
  isTime cs ||
    (isDate (cs.take dateLength) &&
      match cs.drop dateLength with
      | [] => true
      | c :: rest => (c == 'T' || c == 't' || c == ' ') && isZonedTime rest)

end Edifice.Settings
