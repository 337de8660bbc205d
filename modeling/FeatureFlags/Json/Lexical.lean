/-
**The words of JSON text: blanks, strings and numbers.**

A cursor is a place in a text: how many bytes lie before it, and the bytes from there on.  Each scan
below takes a cursor to a later one.

A string is scanned byte by byte by an automaton whose state says what may come next.  A string that is
*read* must denote a text, so that surrogate escapes have to come in pairs; a string that is *skipped*
only has to end.  A number is first cut into its digits, and only a number that is read is given a
value: its digits are collected while they fit into eight bytes and are then scaled by a rounded power
of ten, so that the value is near the decimal and not always nearest.

Main definitions:

* `Json.Cursor`, `Json.Cursor.skipBlank` — places, and the blanks before a word;
* `Json.Scan.step`, `Json.Scan.run` — **the automaton of strings**;
* `Json.Quoted`, `Json.readString` — a string that is read;
* `Json.Numeral`, `Json.scanNumeral`, `Json.Numeral.value` — **the digits of a number and its value**.
-/
import FeatureFlags.Json.Fault
import FeatureFlags.Number.Literal
import FeatureFlags.Text.Utf8

set_option autoImplicit false

open Nat (pow)

namespace FeatureFlags.Json

/-- A place in a text: how many bytes lie before it, and the bytes from there on. -/
structure Cursor where
  offset : Nat
  rest : List UInt8
  deriving DecidableEq, Repr

namespace Cursor

/-- The start of a text. -/
def start (text : List UInt8) : Cursor := ⟨0, text⟩

/-- A space, a tab, a line feed or a carriage return. -/
def isBlank (b : UInt8) : Bool := b = 0x20 || b = 0x09 || b = 0x0A || b = 0x0D

/-- Past the blanks. -/
def skipBlank (c : Cursor) : Cursor :=
  let blanks := c.rest.takeWhile isBlank
  ⟨c.offset + blanks.length, c.rest.drop blanks.length⟩

end Cursor

/-! ### Strings -/

namespace Scan

/-- What may come next inside a string. -/
inductive State where
  /-- Any character, an escape or the end. -/
  | plain
  /-- The letter of an escape. -/
  | escape
  /-- A hexadecimal digit: the leading surrogate before, how many digits are still due, and the value
  of those seen, unless one of them was no digit. -/
  | hex (lead : Option Nat) (due : Nat) (value : Option Nat)
  /-- The backslash of a trailing surrogate. -/
  | pairBackslash (lead : Nat)
  /-- The letter of a trailing surrogate. -/
  | pairLetter (lead : Nat)
  deriving DecidableEq, Repr

/-- What one byte does. -/
inductive Move where
  /-- The string goes on; these bytes were added to its content. -/
  | more (next : State) (content : List UInt8)
  /-- The string has ended. -/
  | done
  /-- The string is faulty. -/
  | bad (cause : Cause)
  deriving DecidableEq, Repr

/-- The value of a hexadecimal digit. -/
def hexDigit? (b : UInt8) : Option Nat :=
  if 0x30 ≤ b ∧ b ≤ 0x39 then some (b.toNat - 0x30)
  else if 0x41 ≤ b ∧ b ≤ 0x46 then some (b.toNat - 0x37)
  else if 0x61 ≤ b ∧ b ≤ 0x66 then some (b.toNat - 0x57)
  else none

/-- The character that the letter of a short escape stands for. -/
def shortEscape? (b : UInt8) : Option UInt8 :=
  if b = 0x22 ∨ b = 0x5C ∨ b = 0x2F then some b
  else if b = 0x62 then some 0x08
  else if b = 0x66 then some 0x0C
  else if b = 0x6E then some 0x0A
  else if b = 0x72 then some 0x0D
  else if b = 0x74 then some 0x09
  else none

/-- The bytes of a code point. -/
def codePoint (n : Nat) : List UInt8 := Utf8.encodeChars [Char.ofNat n]

/-- What a completed group of four hexadecimal digits does. -/
def unit (strict : Bool) (lead : Option Nat) (n : Nat) : Move :=
  if ¬strict then .more .plain []
  else
    match lead with
    | none =>
      if 0xDC00 ≤ n ∧ n ≤ 0xDFFF then .bad .loneSurrogate
      else if 0xD800 ≤ n ∧ n ≤ 0xDBFF then .more (.pairBackslash n) []
      else .more .plain (codePoint n)
    | some l =>
      if 0xDC00 ≤ n ∧ n ≤ 0xDFFF then
        .more .plain (codePoint ((l - 0xD800) * 0x400 + (n - 0xDC00) + 0x10000))
      else .bad .loneSurrogate

/-- What one byte does in a state; surrogates have to come in pairs only in a strict scan. -/
def step (strict : Bool) (s : State) (b : UInt8) : Move :=
  match s with
  | .plain =>
    if b = 0x22 then .done
    else if b = 0x5C then .more .escape []
    else if b < 0x20 then .bad .controlCharacter
    else .more .plain [b]
  | .escape =>
    if b = 0x75 then .more (.hex none 4 (some 0)) []
    else
      match shortEscape? b with
      | some c => .more .plain [c]
      | none => .bad .invalidEscape
  | .hex lead due value =>
    let value := do
      let n ← value
      let d ← hexDigit? b
      pure (n * 16 + d)
    if due ≤ 1 then
      match value with
      | some n => unit strict lead n
      | none => .bad .invalidEscape
    else .more (.hex lead (due - 1) value) []
  | .pairBackslash lead => if b = 0x5C then .more (.pairLetter lead) [] else .bad .endOfEscape
  | .pairLetter lead =>
    if b = 0x75 then .more (.hex (some lead) 4 (some 0)) [] else .bad .endOfEscape

/-- Runs the automaton to the end of the string: its content, and the place after the closing quote.
A fault is placed after the byte that shows it, but before a bare control character that is only
skipped. -/
def run (strict : Bool) (s : State) (offset : Nat) :
    List UInt8 → Except Fault (List UInt8 × Cursor)
  | [] => .error ⟨offset, .endInString⟩
  | b :: rest =>
    match step strict s b with
    | .done => .ok ([], ⟨offset + 1, rest⟩)
    | .bad cause =>
      .error ⟨if cause = .controlCharacter ∧ ¬strict then offset else offset + 1, cause⟩
    | .more next content =>
      match run strict next (offset + 1) rest with
      | .ok (more, c) => .ok (content ++ more, c)
      | .error f => .error f

end Scan

/-- A string that was read: its text, and whether an escape was needed to write it. -/
structure Quoted where
  text : String
  escaped : Bool
  deriving DecidableEq, Repr

/-- Reads a string from the place after its opening quote.  Its content has to be well formed; if not,
the fault is placed as many bytes before the end of the string as the content has from the first byte
on that is not.  Without escapes that is the place after this byte. -/
def readString (c : Cursor) : Except Fault (Quoted × Cursor) :=
  match Scan.run true .plain c.offset c.rest with
  | .error f => .error f
  | .ok (content, after) =>
    match Utf8.decode? content with
    | some text =>
      let raw := c.rest.take (after.offset - c.offset - 1)
      .ok (⟨text, raw.contains 0x5C⟩, after)
    | none => .error ⟨after.offset - (Utf8.split content).2.length, .invalidCodePoint⟩

/-- Skips a string from the place after its opening quote. -/
def skipString (c : Cursor) : Except Fault Cursor :=
  match Scan.run false .plain c.offset c.rest with
  | .error f => .error f
  | .ok (_, after) => .ok after

/-! ### Numbers -/

/-- The digits of a number: a sign, the digits before and after the point, and the exponent with its
sign. -/
structure Numeral where
  negative : Bool
  whole : List Nat
  fraction : Option (List Nat)
  exponent : Option (Bool × List Nat)
  deriving DecidableEq, Repr

/-- Why the text at a place is no number. -/
inductive NumeralFault where
  /-- The text ends within the number. -/
  | cutShort (offset : Nat)
  /-- A byte that cannot follow; the offset is that after the byte. -/
  | misplaced (offset : Nat)
  deriving DecidableEq, Repr

/-- The value of a decimal digit. -/
def digit? (b : UInt8) : Option Nat :=
  if 0x30 ≤ b ∧ b ≤ 0x39 then some (b.toNat - 0x30) else none

/-- The digits at a place, and the place after them. -/
def spanDigits (c : Cursor) : List Nat × Cursor :=
  let ds := c.rest.takeWhile fun b => (digit? b).isSome
  (ds.filterMap digit?, ⟨c.offset + ds.length, c.rest.drop ds.length⟩)

/-- At least one digit at a place. -/
def someDigits (c : Cursor) : Except NumeralFault (List Nat × Cursor) :=
  match spanDigits c with
  | ([], _) => .error (if c.rest.isEmpty then .cutShort c.offset else .misplaced (c.offset + 1))
  | (ds, after) => .ok (ds, after)

/-- The whole part of a number: a zero, or digits that do not begin with one. -/
def wholeDigits (c : Cursor) : Except NumeralFault (List Nat × Cursor) :=
  match someDigits c with
  | .error f => .error f
  | .ok (0 :: _ :: _, _) => .error (.misplaced (c.offset + 2))
  | .ok (ds, after) => .ok (ds, after)

/-- Past one given byte, if it stands at the place. -/
def Cursor.past? (b : UInt8) (c : Cursor) : Option Cursor :=
  match c.rest with
  | [] => none
  | x :: rest => if x = b then some ⟨c.offset + 1, rest⟩ else none

/-- A minus sign, if one stands at the place, and the place after it. -/
def minusSign (c : Cursor) : Bool × Cursor :=
  match c.past? 0x2D with
  | some d => (true, d)
  | none => (false, c)

/-- A sign, if one stands at the place, and the place after it. -/
def exponentSign (c : Cursor) : Bool × Cursor :=
  match c.past? 0x2D, c.past? 0x2B with
  | some d, _ => (true, d)
  | none, some d => (false, d)
  | none, none => (false, c)

/-- The digits behind a point, if one stands at the place. -/
def fractionDigits (c : Cursor) : Except NumeralFault (Option (List Nat) × Cursor) :=
  match c.past? 0x2E with
  | none => .ok (none, c)
  | some d =>
    match someDigits d with
    | .error f => .error f
    | .ok (ds, after) => .ok (some ds, after)

/-- The sign and the digits of an exponent, if the letter for one stands at the place. -/
def exponentDigits (c : Cursor) : Except NumeralFault (Option (Bool × List Nat) × Cursor) :=
  match (c.past? 0x65).or (c.past? 0x45) with
  | none => .ok (none, c)
  | some d =>
    match someDigits (exponentSign d).2 with
    | .error f => .error f
    | .ok (ds, after) => .ok (some ((exponentSign d).1, ds), after)

/-- Cuts the number at a place into its digits. -/
def scanNumeral (c : Cursor) : Except NumeralFault (Numeral × Cursor) :=
  match wholeDigits (minusSign c).2 with
  | .error f => .error f
  | .ok (whole, d) =>
    match fractionDigits d with
    | .error f => .error f
    | .ok (fraction, e) =>
      match exponentDigits e with
      | .error f => .error f
      | .ok (exponent, after) => .ok (⟨(minusSign c).1, whole, fraction, exponent⟩, after)

/-- Appends digits to a number while the result stays within a limit; the rest of the digits is
returned. -/
def accumulate (limit : Nat) : Nat → List Nat → Nat × List Nat
  | n, [] => (n, [])
  | n, d :: ds => if n * 10 + d ≤ limit then accumulate limit (n * 10 + d) ds else (n, d :: ds)

/-- The greatest number of eight bytes. -/
def maxSignificand : Nat := pow 2 64 - 1

/-- The greatest exponent that is taken at its value. -/
def maxExponent : Nat := pow 2 31 - 1

/-- A significand scaled by a power of ten: one multiplication or division by the nearest number to
that power, or first a division by the greatest power in range.  `none` if the result is too large. -/
def scale (significand : Nat) (exponent : Int) : Option Double :=
  let x : Double := Floating.ofNat significand
  let power (k : Nat) : Double := Floating.ofDecimal false 1 k
  if 308 < exponent then (if significand = 0 then some x else none)
  else if 0 ≤ exponent then
    let y := x.mul (power exponent.toNat)
    if y.isInfinite then none else some y
  else if -308 ≤ exponent then some (x.div (power (-exponent).toNat))
  else if -616 ≤ exponent then some ((x.div (power 308)).div (power (-exponent - 308).toNat))
  else some (Floating.zero false)

namespace Numeral

/-- A floating-point value with the sign of the numeral. -/
def signed (n : Numeral) (x : Double) : Number := .double (if n.negative then x.neg else x)

/-- The value of a numeral without a fraction or an exponent: whole if it fits into eight bytes. -/
def wholeValue (n : Numeral) (significand : Nat) : Number :=
  if ¬n.negative then .integer significand
  else if 1 ≤ significand ∧ significand ≤ pow 2 63 then .integer (-(significand : Int))
  else n.signed (Floating.ofNat significand)

/-- The value of a numeral.  Digits past the eight bytes only count by their place.  If the value is
out of range, the error tells how many digits of the exponent were not looked at. -/
def value (n : Numeral) : Except Nat Number :=
  let (whole, dropped) := accumulate maxSignificand 0 n.whole
  if n.fraction.isNone && n.exponent.isNone && dropped.isEmpty then .ok (n.wholeValue whole)
  else
    let digits := n.fraction.getD []
    let (significand, left) := accumulate maxSignificand whole digits
    let start : Int := (dropped.length : Int) - ((digits.length - left.length : Nat) : Int)
    let scaled (exponent : Int) : Except Nat Number :=
      match scale significand exponent with
      | some x => .ok (n.signed x)
      | none => .error 0
    match n.exponent with
    | none => scaled start
    | some (minus, ds) =>
      match accumulate maxExponent 0 ds with
      | (e, []) => scaled (if minus then start - (e : Int) else start + (e : Int))
      | (_, _ :: unread) =>
        if significand ≠ 0 ∧ ¬minus then .error unread.length
        else .ok (n.signed (Floating.zero false))

end Numeral

end FeatureFlags.Json
