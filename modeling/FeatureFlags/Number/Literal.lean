/-
**Reading a number from a text, rounded correctly.**

A literal is an optional sign followed by a name of a special value, in any letter case, or by
decimal digits with an optional point and an optional exponent; at least one digit stands beside the
point.  Its exact decimal value is rounded once to the format asked for.

Main definitions:

* `Floating.ofDecimal` — the number nearest to `digits * 10 ^ exponent`;
* `Literal.Fault` — why a text is no literal;
* `Floating.parse` — **the reading of a whole text**.
-/
import FeatureFlags.Number.Floating

set_option autoImplicit false

open Nat (pow)

namespace FeatureFlags

/-- The value of a decimal digit; ASCII digits only. -/
def digit? (c : Char) : Option Nat :=
  if '0' ≤ c ∧ c ≤ '9' then some (c.toNat - 48) else none

/-- The leading decimal digits of a text, and what follows them. -/
def spanDigits : List Char → List Nat × List Char
  | [] => ([], [])
  | c :: s =>
    match digit? c with
    | some d => let (ds, r) := spanDigits s; (d :: ds, r)
    | none => ([], c :: s)

/-- The natural number that decimal digits denote, most significant first. -/
def natOfDigits (ds : List Nat) : Nat := ds.foldl (fun n d => 10 * n + d) 0

namespace Floating

variable {f : Format}

/-- The number nearest to `digits * 10 ^ exponent`.  The two guards answer without computing a large
power: ten to the `e` lies beyond eight to the `e`, so the value is past the format's range, or below
half of its least positive number. -/
def ofDecimal (negative : Bool) (digits : Nat) (exponent : Int) : Floating f :=
  if digits = 0 then zero negative
  else
    let size : Int := (Nat.log2 digits : Int) + 3 * exponent
    if 0 ≤ exponent ∧ f.maxExponent + f.precision ≤ size then .infinite negative
    else if exponent < 0 ∧ size + 2 ≤ f.minExponent then zero negative
    else round negative (digits * pow 10 exponent.toNat) (pow 10 (-exponent).toNat)

end Floating

namespace Literal

/-- Why a text is no literal. -/
inductive Fault where
  | empty
  | malformed
  deriving DecidableEq, Repr

def Fault.message : Fault → String
  | .empty => "cannot parse float from empty string"
  | .malformed => "invalid float literal"

/-- The exponent that ends a literal: nothing, or a letter `e`, an optional sign and digits. -/
def exponent? : List Char → Option Int
  | [] => some 0
  | c :: s =>
    if c = 'e' ∨ c = 'E' then
      let (negative, s) := match s with
        | '-' :: s => (true, s)
        | '+' :: s => (false, s)
        | s => (false, s)
      match spanDigits s with
      | ([], _) => none
      | (ds, []) => some (if negative then -(natOfDigits ds : Int) else natOfDigits ds)
      | (_, _ :: _) => none
    else none

/-- The digits and the power of ten of an unsigned decimal text. -/
def decimal? (s : List Char) : Option (Nat × Int) :=
  let (whole, s) := spanDigits s
  let (fraction, s) := match s with
    | '.' :: s => spanDigits s
    | s => ([], s)
  if whole.isEmpty && fraction.isEmpty then none
  else (exponent? s).map fun e => (natOfDigits (whole ++ fraction), e - fraction.length)

/-- The special value that a name stands for, whatever the case of its letters. -/
def special? {f : Format} (negative : Bool) (s : List Char) : Option (Floating f) :=
  let name := s.map Char.toLower
  if name = ['n', 'a', 'n'] then some .nan
  else if name = ['i', 'n', 'f'] ∨ name = ['i', 'n', 'f', 'i', 'n', 'i', 't', 'y'] then
    some (.infinite negative)
  else none

end Literal

namespace Floating

variable {f : Format}

/-- The number that a whole text denotes. -/
def parse (s : List Char) : Except Literal.Fault (Floating f) :=
  if s.isEmpty then .error .empty
  else
    let (negative, s) := match s with
      | '-' :: s => (true, s)
      | '+' :: s => (false, s)
      | s => (false, s)
    match Literal.decimal? s with
    | some (digits, exponent) => .ok (ofDecimal negative digits exponent)
    | none =>
      match Literal.special? negative s with
      | some x => .ok x
      | none => .error .malformed

end Floating

end FeatureFlags
