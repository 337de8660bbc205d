/-
**Points in time, written as date and time with an offset.**

A timestamp is written `2024-02-29T23:59:60.5+01:00`: a date, a `T` or a blank, a time of day, perhaps
a fraction of a second, and the offset of the place from universal time, `Z` for none.  Its value is
the number of whole seconds since the beginning of 1970 in universal time; a leap second counts as the
second before it.

Faults are found from left to right, and the date has to exist before the time of day is read.

Main definitions:

* `Timestamp.Fault` — why a text is no timestamp;
* `Timestamp.dayNumber` — the days from the beginning of 1970 to a date;
* `Timestamp.parse` — **the seconds since the beginning of 1970**.
-/

set_option autoImplicit false

namespace FeatureFlags.Timestamp

/-- Why a text is no timestamp. -/
inductive Fault where
  /-- The text ends too early. -/
  | cutShort
  /-- Something else than a digit or the right mark. -/
  | malformed
  /-- A date, a time or an offset that does not exist. -/
  | outOfRange
  /-- Something follows the timestamp. -/
  | trailing
  deriving DecidableEq, Repr

def Fault.message : Fault → String
  | .cutShort => "premature end of input"
  | .malformed => "input contains invalid characters"
  | .outOfRange => "input is out of range"
  | .trailing => "trailing input"

/-! ### The calendar -/

/-- Every fourth year is a leap year, but of the full centuries only every fourth. -/
def isLeapYear (year : Nat) : Bool :=
  year % 4 == 0 && (year % 100 != 0 || year % 400 == 0)

/-- The days of a month; none for a month that does not exist. -/
def daysInMonth (year month : Nat) : Nat :=
  if month = 2 then (if isLeapYear year then 29 else 28)
  else if month ∈ [4, 6, 9, 11] then 30
  else if month ∈ [1, 3, 5, 7, 8, 10, 12] then 31
  else 0

/-- The days before the first of January of a year, counted from the year zero. -/
def daysBeforeYear (year : Nat) : Nat :=
  365 * year + (year + 3) / 4 - (year + 99) / 100 + (year + 399) / 400

/-- The days from the beginning of 1970 to a date. -/
def dayNumber (year month day : Nat) : Int :=
  let inYear := (List.range (month - 1)).foldl (fun n m => n + daysInMonth year (m + 1)) (day - 1)
  ((daysBeforeYear year + inYear : Nat) : Int) - daysBeforeYear 1970

/-! ### Reading -/

/-- The digits of a number, after those that gave `n`. -/
def digits (n : Nat) : Nat → List UInt8 → Except Fault (Nat × List UInt8)
  | 0, s => .ok (n, s)
  | _ + 1, [] => .error .cutShort
  | width + 1, b :: s =>
    if 0x30 ≤ b ∧ b ≤ 0x39 then digits (10 * n + (b.toNat - 0x30)) width s else .error .malformed

/-- A number of so many digits; the text has to be long enough before any of them is looked at. -/
def number (width : Nat) (s : List UInt8) : Except Fault (Nat × List UInt8) :=
  if s.length < width then .error .cutShort else digits 0 width s

/-- One of some marks. -/
def mark (allowed : List UInt8) : List UInt8 → Except Fault (List UInt8)
  | [] => .error .cutShort
  | b :: s => if b ∈ allowed then .ok s else .error .malformed

/-- A fraction of a second: nothing, or a point and at least one digit. -/
def fraction : List UInt8 → Except Fault (List UInt8)
  | 0x2E :: s =>
    match number 1 s with
    | .error f => .error f
    | .ok (_, s) => .ok (s.dropWhile fun b => 0x30 ≤ b && b ≤ 0x39)
  | s => .ok s

/-- The sign of an offset; the minus sign may be the one of typography. -/
def sign : List UInt8 → Except Fault (Int × List UInt8)
  | [] => .error .cutShort
  | 0x2B :: s => .ok (1, s)
  | 0x2D :: s => .ok (-1, s)
  | 0xE2 :: 0x88 :: 0x92 :: s => .ok (-1, s)
  | _ :: _ => .error .malformed

/-- The offset from universal time in seconds. -/
def offset : List UInt8 → Except Fault (Int × List UInt8)
  | 0x5A :: s => .ok (0, s)
  | 0x7A :: s => .ok (0, s)
  | s => do
    let (sign, s) ← sign s
    let (hours, s) ← number 2 s
    let s ← mark [0x3A] s
    let (minutes, s) ← number 2 s
    if 60 ≤ minutes then throw .outOfRange
    pure (sign * (hours * 3600 + minutes * 60 : Nat), s)

/-- The shortest timestamps without their offset have this many bytes. -/
def least : Nat := 19

/-- A date that exists, as the days from the beginning of 1970. -/
def date (s : List UInt8) : Except Fault (Int × List UInt8) := do
  let (year, s) ← number 4 s
  let s ← mark [0x2D] s
  let (month, s) ← number 2 s
  let s ← mark [0x2D] s
  let (day, s) ← number 2 s
  if day = 0 ∨ daysInMonth year month < day then throw .outOfRange
  pure (dayNumber year month day, s)

/-- A time of day that exists, in seconds. -/
def timeOfDay (s : List UInt8) : Except Fault (Nat × List UInt8) := do
  let (hour, s) ← number 2 s
  let s ← mark [0x3A] s
  let (minute, s) ← number 2 s
  let s ← mark [0x3A] s
  let (second, s) ← number 2 s
  let s ← fraction s
  let second := if second = 60 then 59 else second
  if 24 ≤ hour ∨ 60 ≤ minute ∨ 60 ≤ second then throw .outOfRange
  pure (hour * 3600 + minute * 60 + second, s)

/-- The seconds since the beginning of 1970 that a whole text denotes. -/
def parse (s : List UInt8) : Except Fault Int := do
  if s.length < least then throw .cutShort
  let (day, s) ← date s
  let s ← mark [0x54, 0x74, 0x20] s
  let (second, s) ← timeOfDay s
  let (offset, s) ← offset s
  if !s.isEmpty then throw .trailing
  if 86400 ≤ offset.natAbs then throw .outOfRange
  pure (day * 86400 + second - offset)

end FeatureFlags.Timestamp
