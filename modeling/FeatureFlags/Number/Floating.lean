/-
**Binary floating-point numbers, computed exactly and rounded once.**

A finite number of a binary format is `± m · 2 ^ q` with a significand `m` below `2 ^ precision` and
an exponent `q` between two bounds.  Every operation below first takes the exact rational result and
then rounds it to the nearest number of the format, an exact half going to the neighbour with the
even significand.  Everything is computed on natural numbers and integers, so that closed instances
evaluate and nothing depends on a machine's arithmetic.

Main definitions:

* `Format`, `Format.single`, `Format.double` — a format, and the two in use;
* `Floating` — not a number, an infinity, or a signed significand and exponent;
* `Floating.round` — **the rounding**: the nearest number of the format to a quotient;
* `Floating.add`, `Floating.mul`, `Floating.div`, `Floating.convert` — operations, each rounded once;
* `Floating.compare?` — the order of values, undefined when one side is not a number;
* `Floating.truncate` — the whole part, held within a bound.
-/

set_option autoImplicit false

open Nat (pow)

namespace FeatureFlags

/-- A binary floating-point format: the width of a significand, and the range of the exponent of its
last place. -/
structure Format where
  precision : Nat
  minExponent : Int
  maxExponent : Int
  deriving DecidableEq, Repr

namespace Format

/-- Four bytes wide: 24 significant bits. -/
def single : Format := ⟨24, -149, 104⟩

/-- Eight bytes wide: 53 significant bits. -/
def double : Format := ⟨53, -1074, 971⟩

end Format

/-- A number of a format.  A finite one is `significand * 2 ^ exponent` with its sign; zero has both
signs. -/
inductive Floating (f : Format) where
  | nan
  | infinite (negative : Bool)
  | finite (negative : Bool) (significand : Nat) (exponent : Int)
  deriving DecidableEq, Repr

/-- Numbers of four bytes. -/
abbrev Single := Floating Format.single

/-- Numbers of eight bytes. -/
abbrev Double := Floating Format.double

/-! ### Rounding a quotient -/

/-- The natural number nearest to `num / den`; an exact half goes to the even one. -/
def roundHalfEven (num den : Nat) : Nat :=
  let q := num / den
  let r := num % den
  if 2 * r < den then q
  else if den < 2 * r then q + 1
  else if q % 2 = 0 then q else q + 1

/-- The exponent of the greatest power of two that is at most `num / den`, for positive arguments. -/
def floorLog2 (num den : Nat) : Int :=
  let k : Int := (Nat.log2 num : Int) - (Nat.log2 den : Int)
  if den * pow 2 k.toNat ≤ num * pow 2 (-k).toNat then k else k - 1

namespace Floating

variable {f : Format}

/-- Zero with a sign. -/
def zero (negative : Bool) : Floating f := .finite negative 0 f.minExponent

/-- The number `m * 2 ^ q`, or an infinity if that exponent is past the format's range. -/
def pack (negative : Bool) (m : Nat) (q : Int) : Floating f :=
  if f.maxExponent < q then .infinite negative else .finite negative m q

/-- The exponent of the last place to which `num / den` is rounded. -/
def lastPlace (f : Format) (num den : Nat) : Int :=
  max f.minExponent (floorLog2 num den - ((f.precision : Int) - 1))

/-- The number of the format nearest to `num / den`, with the given sign. -/
def round (negative : Bool) (num den : Nat) : Floating f :=
  if num = 0 then zero negative
  else
    let q := lastPlace f num den
    let m := roundHalfEven (num * pow 2 (-q).toNat) (den * pow 2 q.toNat)
    if m = pow 2 f.precision then pack negative (pow 2 (f.precision - 1)) (q + 1)
    else pack negative m q

/-- The number nearest to `m * 2 ^ q`. -/
def roundScaled (negative : Bool) (m : Nat) (q : Int) : Floating f :=
  round negative (m * pow 2 q.toNat) (pow 2 (-q).toNat)

/-- The number nearest to a whole number. -/
def ofInt (i : Int) : Floating f := round (decide (i < 0)) i.natAbs 1

/-- The number nearest to a natural number. -/
def ofNat (n : Nat) : Floating f := round false n 1

/-! ### Reading a number back -/

def isInfinite : Floating f → Bool
  | .infinite _ => true
  | _ => false

/-- The value as a whole number of units `2 ^ q`, for an exponent `q` not above the number's own. -/
def units (negative : Bool) (m : Nat) (e q : Int) : Int :=
  let n : Int := (m * pow 2 (e - q).toNat : Nat)
  if negative then -n else n

/-- The order of two values; `none` when one of them is not a number. -/
def compare? : Floating f → Floating f → Option Ordering
  | .nan, _ => none
  | _, .nan => none
  | .infinite a, .infinite b => some (compare b a)
  | .infinite a, _ => some (if a then .lt else .gt)
  | _, .infinite b => some (if b then .gt else .lt)
  | .finite a m e, .finite b n g =>
    let q := min e g
    some (compare (units a m e q) (units b n g q))

/-- Equal as values: zero equals zero whatever the signs, and nothing equals what is not a number. -/
def eqv (x y : Floating f) : Bool := compare? x y == some .eq

def lt (x y : Floating f) : Bool := compare? x y == some .lt

def le (x y : Floating f) : Bool := lt x y || eqv x y

/-! ### Operations -/

def neg : Floating f → Floating f
  | .nan => .nan
  | .infinite a => .infinite (!a)
  | .finite a m e => .finite (!a) m e

/-- The rounded sum.  An exact zero is positive unless both terms are negative. -/
def add : Floating f → Floating f → Floating f
  | .nan, _ => .nan
  | _, .nan => .nan
  | .infinite a, .infinite b => if a = b then .infinite a else .nan
  | .infinite a, _ => .infinite a
  | _, .infinite b => .infinite b
  | .finite a m e, .finite b n g =>
    let q := min e g
    let s := units a m e q + units b n g q
    roundScaled (if s = 0 then a && b else decide (s < 0)) s.natAbs q

/-- The rounded product. -/
def mul : Floating f → Floating f → Floating f
  | .nan, _ => .nan
  | _, .nan => .nan
  | .infinite a, .infinite b => .infinite (a != b)
  | .infinite a, .finite b n _ => if n = 0 then .nan else .infinite (a != b)
  | .finite a m _, .infinite b => if m = 0 then .nan else .infinite (a != b)
  | .finite a m e, .finite b n g => roundScaled (a != b) (m * n) (e + g)

/-- The rounded quotient. -/
def div : Floating f → Floating f → Floating f
  | .nan, _ => .nan
  | _, .nan => .nan
  | .infinite _, .infinite _ => .nan
  | .infinite a, .finite b _ _ => .infinite (a != b)
  | .finite a _ _, .infinite b => zero (a != b)
  | .finite a m e, .finite b n g =>
    if n = 0 then (if m = 0 then .nan else .infinite (a != b))
    else
      let q := e - g
      round (a != b) (m * pow 2 q.toNat) (n * pow 2 (-q).toNat)

/-- The number of another format nearest to this one. -/
def convert {g : Format} : Floating f → Floating g
  | .nan => .nan
  | .infinite a => .infinite a
  | .finite a m e => roundScaled a m e

/-- The whole part, dropping any fraction, held between zero and `bound`; what is not a number counts
as zero. -/
def truncate (bound : Nat) : Floating f → Nat
  | .nan => 0
  | .infinite a => if a then 0 else bound
  | .finite a m e => if a then 0 else min bound (m * pow 2 e.toNat / pow 2 (-e).toNat)

end Floating

end FeatureFlags
