/-
**JSON values and their text.**

A value is written without blanks.  In a string the quote, the backslash and the control characters are
escaped, and nothing else.

A value of any kind can also be read: the members of an object are then kept in the order of their
names, of members with one name the last, and lists and objects may be nested up to a limit.

Main definitions:

* `Json.Value` — null, truth values, numbers, strings, lists and objects;
* `Json.Value.chars`, `Json.Value.text` — **the text of a value**;
* `Json.Value.decoder`, `Json.Value.entries` — reading any value, and any object.
-/
import FeatureFlags.Json.Decoder

set_option autoImplicit false

namespace FeatureFlags.Json

/-- A JSON value; the members of an object are in the order in which they are written. -/
inductive Value where
  | null
  | bool (value : Bool)
  | number (value : Number)
  | string (value : String)
  | array (items : List Value)
  | object (members : List (String × Value))

namespace Value

/-! ### Writing -/

/-- A character in a string. -/
def escapeChar (c : Char) : List Char :=
  if c = '"' then ['\\', '"']
  else if c = '\\' then ['\\', '\\']
  else if c.toNat = 0x08 then ['\\', 'b']
  else if c.toNat = 0x0C then ['\\', 'f']
  else if c = '\n' then ['\\', 'n']
  else if c = '\r' then ['\\', 'r']
  else if c = '\t' then ['\\', 't']
  else if c.toNat < 0x20 then
    ['\\', 'u', '0', '0', Nat.digitChar (c.toNat / 16), Nat.digitChar (c.toNat % 16)]
  else [c]

/-- A string with its quotes. -/
def stringChars (s : String) : List Char := '"' :: s.toList.flatMap escapeChar ++ ['"']

mutual

/-- The text of a value as characters. -/
def chars : Value → List Char
  | .null => ['n', 'u', 'l', 'l']
  | .bool true => ['t', 'r', 'u', 'e']
  | .bool false => ['f', 'a', 'l', 's', 'e']
  | .number n => n.chars
  | .string s => stringChars s
  | .array [] => ['[', ']']
  | .array (v :: vs) => '[' :: chars v ++ itemChars vs
  | .object [] => ['\x7b', '\x7d']
  | .object ((name, v) :: ms) => '\x7b' :: stringChars name ++ ':' :: chars v ++ memberChars ms

/-- The items after the first, and the bracket. -/
def itemChars : List Value → List Char
  | [] => [']']
  | v :: vs => ',' :: chars v ++ itemChars vs

/-- The members after the first, and the brace. -/
def memberChars : List (String × Value) → List Char
  | [] => ['\x7d']
  | (name, v) :: ms => ',' :: stringChars name ++ ':' :: chars v ++ memberChars ms

end

/-- The text of a value. -/
def text (v : Value) : String := String.ofList v.chars

/-- A member that is left out when there is no value for it. -/
def member? (name : String) : Option Value → List (String × Value)
  | none => []
  | some v => [(name, v)]

/-! ### Reading -/

/-- How deep lists and objects may be nested in a text. -/
def depthLimit : Nat := 128

/-- Puts a member among members in the order of their names, in place of one with its name. -/
def insert (name : String) (v : Value) : List (String × Value) → List (String × Value)
  | [] => [(name, v)]
  | (k, w) :: ms =>
    if name < k then (name, v) :: (k, w) :: ms
    else if name = k then (k, v) :: ms
    else (k, w) :: insert name v ms

mutual

/-- Any value; `depth` brackets may be opened less one. -/
def decoder (depth : Nat) : Decoder Value
  | .null _ _ => .ok .null
  | .bool _ _ b => .ok (.bool b)
  | .number _ _ (.ok n) => .ok (.number n)
  | .number _ _ (.error f) => .error f
  | .string _ _ (.ok q) => .ok (.string q.text)
  | .string _ _ (.error f) => .error f
  | .array start items tail =>
    if depth ≤ 1 then .error ⟨start + 1, .tooDeep⟩
    else
      match decodeItems (depth - 1) items with
      | .error f => .error f
      | .ok vs => tail.read.map fun _ => .array vs
  | .object start members tail =>
    if depth ≤ 1 then .error ⟨start + 1, .tooDeep⟩
    else
      match decodeMembers (depth - 1) [] members with
      | .error f => .error f
      | .ok ms => tail.read.map fun _ => .object ms
  | .broken _ _ why => .error why.read

/-- Any values. -/
def decodeItems (depth : Nat) : List Node → Except Fault (List Value)
  | [] => .ok []
  | n :: ns =>
    match decoder depth n with
    | .error f => .error f
    | .ok v =>
      match decodeItems depth ns with
      | .error f => .error f
      | .ok vs => .ok (v :: vs)

/-- Any members, added to those read before. -/
def decodeMembers (depth : Nat) (seen : List (String × Value)) :
    List (Field Node) → Except Fault (List (String × Value))
  | [] => .ok seen
  | ⟨key, n, _⟩ :: ms =>
    match key.text with
    | .error f => .error f
    | .ok q =>
      match decoder depth n with
      | .error f => .error f
      | .ok v => decodeMembers depth (insert q.text v seen) ms

end

/-- The members of an object of any kind. -/
def entries (depth : Nat) : Decoder (List (String × Value))
  | .object _ members tail =>
    match decodeMembers depth [] members with
    | .error f => .error f
    | .ok ms => tail.read.map fun _ => ms
  | n => .error (n.mismatch "a map")

end Value

end FeatureFlags.Json
