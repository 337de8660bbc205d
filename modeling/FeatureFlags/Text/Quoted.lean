/-
**A text in quotes, for a message.**

A message shows a text between double quotes.  Quotes, backslashes and the common control characters
have a short escape, and any other character that does not print by itself is shown by its code point
in hexadecimal.

Main definitions:

* `Text.quoteChar` — how one character is shown;
* `Text.quote` — **the text in quotes**.
-/
import FeatureFlags.Text.Hidden

set_option autoImplicit false

namespace FeatureFlags.Text

/-- A code point between braces, in lower-case hexadecimal without leading zeros. -/
def codePoint (c : Char) : List Char :=
  ['\\', 'u', '\x7b'] ++ Nat.toDigits 16 c.toNat ++ ['\x7d']

/-- How one character is shown between quotes. -/
def quoteChar (c : Char) : List Char :=
  if c = '"' then ['\\', '"']
  else if c = '\\' then ['\\', '\\']
  else if c = '\n' then ['\\', 'n']
  else if c = '\r' then ['\\', 'r']
  else if c = '\t' then ['\\', 't']
  else if c.toNat = 0 then ['\\', '0']
  else if isHidden c then codePoint c
  else [c]

/-- The text between double quotes. -/
def quote (s : String) : String :=
  String.ofList ('"' :: s.toList.flatMap quoteChar ++ ['"'])

end FeatureFlags.Text
