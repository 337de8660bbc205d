/-
**The shortest decimal that reads back.**

A finite positive number of a binary format stands for the interval of reals that round to it: from
halfway to the number below to halfway to the number above, the ends included exactly when its
significand is even.  Among the decimals in that interval those with the fewest digits are sought:
grid by grid, beginning with one digit, the two neighbours of the value on the grid are tested, and
of two neighbours inside the nearer is taken.

Main definitions:

* `Decimal` — `digits * 10 ^ exponent`;
* `Floating.readsBack` — **the specification**: a decimal lies among the reals that round to the
  number;
* `Floating.shortest` — the search;
* `Floating.plain` — a number written positionally, with no more than the shortest digits.
-/
import FeatureFlags.Number.Floating

set_option autoImplicit false

open Nat (pow)

namespace FeatureFlags

/-- The decimal `digits * 10 ^ exponent`. -/
structure Decimal where
  digits : Nat
  exponent : Int
  deriving DecidableEq, Repr

namespace Decimal

/-- Moves the zeros that end the digits into the exponent. -/
def strip : Nat → Decimal → Decimal
  | 0, d => d
  | fuel + 1, d =>
    if d.digits ≠ 0 ∧ d.digits % 10 = 0 then strip fuel ⟨d.digits / 10, d.exponent + 1⟩ else d

/-- The digits as characters, most significant first. -/
def chars (d : Decimal) : List Char := Nat.toDigits 10 d.digits

/-- The exponent of the leading digit. -/
def leading (d : Decimal) : Int := (d.chars.length : Int) - 1 + d.exponent

/-- The digits with a point among them: zeros are put on the left or on the right as needed, and there
is no point if there is no fraction. -/
def positional (d : Decimal) : List Char :=
  let cs := d.chars
  if 0 ≤ d.exponent then cs ++ List.replicate d.exponent.toNat '0'
  else
    let places := (-d.exponent).toNat
    if places < cs.length then
      cs.take (cs.length - places) ++ '.' :: cs.drop (cs.length - places)
    else '0' :: '.' :: List.replicate (places - cs.length) '0' ++ cs

end Decimal

/-- Where a value goes that lies exactly between two neighbours. -/
inductive Tie where
  | toEven
  | upward
  deriving DecidableEq, Repr

namespace Floating

/-- The most digits that the shortest decimal of a number of a format can need. -/
def maxDigits (f : Format) : Nat := f.precision * 30103 / 100000 + 2

/-- The lower end of the interval that rounds to `m * 2 ^ q`, in quarters of the last place.  Below a
power of two the numbers lie closer together. -/
def lowerEnd (f : Format) (m : Nat) (q : Int) : Nat :=
  if m = pow 2 (f.precision - 1) ∧ f.minExponent < q then 4 * m - 1 else 4 * m - 2

/-- Does the decimal lie among the reals that round to `m * 2 ^ q`? -/
def readsBack (f : Format) (m : Nat) (q : Int) (d : Decimal) : Bool :=
  let u := pow 2 q.toNat * pow 10 (-d.exponent).toNat
  let v := 4 * (d.digits * (pow 2 (-q).toNat * pow 10 d.exponent.toNat))
  let low := lowerEnd f m q * u
  let high := (4 * m + 2) * u
  if m % 2 = 0 then low ≤ v && v ≤ high else low < v && v < high

/-- The nearer of the two neighbours of `m * 2 ^ q` on the grid of the given power of ten, of those
that read back. -/
def onGrid? (f : Format) (tie : Tie) (m : Nat) (q grid : Int) : Option Decimal :=
  let num := m * pow 2 q.toNat * pow 10 (-grid).toNat
  let den := pow 2 (-q).toNat * pow 10 grid.toNat
  let a := num / den
  let low : Decimal := ⟨a, grid⟩
  let high : Decimal := ⟨a + 1, grid⟩
  match readsBack f m q low, readsBack f m q high with
  | false, false => none
  | true, false => some low
  | false, true => some high
  | true, true =>
    if 2 * num < (2 * a + 1) * den then some low
    else if (2 * a + 1) * den < 2 * num then some high
    else
      match tie with
      | .upward => some high
      | .toEven => if a % 2 = 0 then some low else some high

/-- The least exponent `k` with `num / den < 10 ^ k`, for a positive quotient.  The estimate from the
binary logarithm is at most two too small. -/
def decimalScale (num den : Nat) : Int :=
  let k := floorLog2 num den * 30103 / 100000
  let below (k : Int) : Bool := num * pow 10 (-k).toNat < den * pow 10 k.toNat
  if below k then k else if below (k + 1) then k + 1 else k + 2

/-- The decimal with the fewest digits that reads back as `m * 2 ^ q`, for positive `m`; should no grid
have one, the exact value. -/
def shortest (f : Format) (tie : Tie) (m : Nat) (q : Int) : Decimal :=
  let k := decimalScale (m * pow 2 q.toNat) (pow 2 (-q).toNat)
  let exact : Decimal := ⟨m * pow 2 q.toNat * pow 5 (-q).toNat, min q 0⟩
  let found := (List.range (maxDigits f)).findSome? fun n : Nat =>
    onGrid? f tie m q (k - ((n : Int) + 1))
  let d := found.getD exact
  d.strip (d.chars.length)

/-- A number written positionally, never with an exponent; whole values have no point, and zero keeps
its sign. -/
def plain {f : Format} : Floating f → String
  | .nan => "NaN"
  | .infinite negative => if negative then "-inf" else "inf"
  | .finite negative m q =>
    let digits := if m = 0 then ['0'] else (shortest f .upward m q).positional
    String.ofList (if negative then '-' :: digits else digits)

end Floating

end FeatureFlags
