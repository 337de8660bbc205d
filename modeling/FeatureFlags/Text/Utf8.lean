/-
**Characters as bytes.**

Texts cross the edges of the library as bytes in UTF-8: one byte for a code point below `0x80`, and up
to four, a leading byte and continuation bytes, for the others.  Only the shortest form of a code point
is well formed, and surrogates have none.

Main definitions:

* `Utf8.encode` — the bytes of a text;
* `Utf8.split` — **the longest well-formed beginning of a list of bytes**, as characters, and the rest;
* `Utf8.decode?` — the text of a list of bytes that is well formed throughout;
* `Utf8.decodeLossy` — the text of any bytes, with a mark in place of every character that is broken.
-/

set_option autoImplicit false

namespace FeatureFlags.Utf8

/-- The bytes of characters. -/
def encodeChars (cs : List Char) : List UInt8 := cs.flatMap String.utf8EncodeChar

/-- The bytes of a text. -/
def encode (s : String) : List UInt8 := encodeChars s.toList

/-- The six bits that a continuation byte carries. -/
def continuation? (b : UInt8) : Option Nat :=
  if b.toNat / 64 = 2 then some (b.toNat % 64) else none

/-- The character written in two bytes. -/
def two? (a b : UInt8) : Option Char := do
  let y ← continuation? b
  let n := (a.toNat - 0xC0) * 64 + y
  if 0xC2 ≤ a.toNat ∧ a.toNat ≤ 0xDF then some (Char.ofNat n) else none

/-- The character written in three bytes. -/
def three? (a b c : UInt8) : Option Char := do
  let y ← continuation? b
  let z ← continuation? c
  let n := (a.toNat - 0xE0) * 4096 + y * 64 + z
  if 0xE0 ≤ a.toNat ∧ a.toNat ≤ 0xEF ∧ 0x800 ≤ n ∧ ¬(0xD800 ≤ n ∧ n ≤ 0xDFFF) then
    some (Char.ofNat n)
  else none

/-- The character written in four bytes. -/
def four? (a b c d : UInt8) : Option Char := do
  let x ← continuation? b
  let y ← continuation? c
  let z ← continuation? d
  let n := (a.toNat - 0xF0) * 262144 + x * 4096 + y * 64 + z
  if 0xF0 ≤ a.toNat ∧ a.toNat ≤ 0xF4 ∧ 0x10000 ≤ n ∧ n ≤ 0x10FFFF then
    some (Char.ofNat n)
  else none

/-- Puts a character before those already split off. -/
def push (c : Char) (r : List Char × List UInt8) : List Char × List UInt8 := (c :: r.1, r.2)

/-- The characters of the longest well-formed beginning, and the bytes after it. -/
def split : List UInt8 → List Char × List UInt8
  | [] => ([], [])
  | a :: s =>
    if a.toNat < 0x80 then push (Char.ofNat a.toNat) (split s)
    else
      match s with
      | [] => ([], a :: s)
      | b :: t =>
        match two? a b with
        | some c => push c (split t)
        | none =>
          match t with
          | [] => ([], a :: s)
          | c :: u =>
            match three? a b c with
            | some c => push c (split u)
            | none =>
              match u with
              | [] => ([], a :: s)
              | d :: v =>
                match four? a b c d with
                | some c => push c (split v)
                | none => ([], a :: s)

/-- The characters of bytes that are well formed throughout. -/
def decodeChars? (bytes : List UInt8) : Option (List Char) :=
  match split bytes with
  | (cs, []) => some cs
  | (_, _ :: _) => none

/-- The text of bytes that are well formed throughout. -/
def decode? (bytes : List UInt8) : Option String := (decodeChars? bytes).map String.ofList

/-! ### Bytes that are not well formed -/

/-- How many bytes begin a character together with the one before them, and then break off. -/
def brokenTail (a : UInt8) : List UInt8 → Nat
  | [] => 0
  | b :: s =>
    if (three? a b 0x80).isSome then 1
    else if (four? a b 0x80 0x80).isSome then
      match s with
      | [] => 1
      | c :: _ => if (continuation? c).isSome then 2 else 1
    else 0

theorem length_split_le (bytes : List UInt8) : (split bytes).2.length ≤ bytes.length := by
  fun_induction split bytes <;> simp_all [push] <;> omega

/-- The characters of bytes, with a mark in place of every one that is broken. -/
def decodeLossyChars (bytes : List UInt8) : List Char :=
  match _h : split bytes with
  | (cs, []) => cs
  | (cs, a :: s) => cs ++ Char.ofNat 0xFFFD :: decodeLossyChars (s.drop (brokenTail a s))
termination_by bytes.length
decreasing_by
  have hlength := length_split_le bytes
  simp only [_h, List.length_cons, List.length_drop] at hlength ⊢
  omega

/-- The text of bytes, with a mark in place of every character that is broken. -/
def decodeLossy (bytes : List UInt8) : String := String.ofList (decodeLossyChars bytes)

end FeatureFlags.Utf8
