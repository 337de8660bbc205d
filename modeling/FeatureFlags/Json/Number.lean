/-
**Numbers in JSON text.**

A number is whole, or it is a floating-point number of four or eight bytes.  A whole number is written
with its decimal digits; a floating-point number with the shortest decimal that reads back, of two
equally near decimals the even one.  What is no finite number has no text of its own and is written
`null`.

Main definitions:

* `Json.Number` — a number as a text holds it;
* `Json.Layout`, `Json.Layout.single`, `Json.Layout.double` — where positional notation ends;
* `Json.Number.chars` — **the text of a number**;
* `Json.Number.toSingle`, `Json.Number.toDouble` — the nearest number of a format.
-/
import FeatureFlags.Number.Shortest

set_option autoImplicit false

namespace FeatureFlags.Json

/-- A number: whole, or in one of the two floating-point formats. -/
inductive Number where
  | integer (value : Int)
  | single (value : Single)
  | double (value : Double)
  deriving DecidableEq, Repr

/-- Positional notation is used while the exponent of the leading digit lies between these two. -/
structure Layout where
  lowest : Int
  highest : Int

namespace Layout

/-- Numbers of four bytes are written positionally from a millionth up to twelve zeros. -/
def single : Layout := ⟨-6, 12⟩

/-- Numbers of eight bytes are written positionally from a hundred-thousandth up to fifteen zeros. -/
def double : Layout := ⟨-5, 15⟩

/-- The digits after the first follow a point; the exponent always has its sign. -/
def scientific (d : Decimal) : List Char :=
  let significand := match d.chars with
    | [] => []
    | [c] => [c]
    | c :: cs => c :: '.' :: cs
  let e := d.leading
  significand ++ 'e' :: (if e < 0 then '-' else '+') :: Nat.toDigits 10 e.natAbs

/-- A decimal in positional or in scientific notation; a whole value written positionally ends in a
point and a zero. -/
def write (l : Layout) (d : Decimal) : List Char :=
  if l.lowest ≤ d.leading ∧ d.leading ≤ l.highest then
    if 0 ≤ d.exponent then d.positional ++ ['.', '0'] else d.positional
  else scientific d

/-- The text of a floating-point number. -/
def chars (l : Layout) {f : Format} : Floating f → List Char
  | .nan => ['n', 'u', 'l', 'l']
  | .infinite _ => ['n', 'u', 'l', 'l']
  | .finite negative m q =>
    let digits := if m = 0 then ['0', '.', '0'] else l.write (Floating.shortest f .toEven m q)
    if negative then '-' :: digits else digits

end Layout

namespace Number

/-- The text of a whole number. -/
def intChars (i : Int) : List Char :=
  if i < 0 then '-' :: Nat.toDigits 10 i.natAbs else Nat.toDigits 10 i.natAbs

/-- The text of a number. -/
def chars : Number → List Char
  | .integer i => intChars i
  | .single x => Layout.single.chars x
  | .double x => Layout.double.chars x

/-- The nearest number of four bytes; one too large becomes an infinity. -/
def toSingle : Number → Single
  | .integer i => Floating.ofInt i
  | .single x => x
  | .double x => x.convert

/-- The nearest number of eight bytes. -/
def toDouble : Number → Double
  | .integer i => Floating.ofInt i
  | .single x => x.convert
  | .double x => x

end Number

end FeatureFlags.Json
