/-
**What can be wrong with a JSON text.**

A fault is a cause and a place.  Inside the reader a place is the number of bytes before it; in a
message it is a line and a column, both counted from the start of the text.  The wording of all causes
stands in one function.

Main definitions:

* `Json.Found` — what stands where something else was wanted;
* `Json.Cause`, `Json.Cause.message` — **the causes and their wording**;
* `Json.Fault` — a cause at an offset;
* `Json.Problem`, `Json.Problem.message` — a cause at a line and a column.
-/
import FeatureFlags.Json.Number
import FeatureFlags.Text.Quoted

set_option autoImplicit false

namespace FeatureFlags.Json

/-- What stands in a text where a value of another kind was wanted. -/
inductive Found where
  | null
  | bool (value : Bool)
  | number (value : Number)
  | string (value : String)
  | sequence
  | map
  deriving DecidableEq, Repr

namespace Found

/-- A number in a message: whole or not, and its text. -/
def numberMessage (n : Number) : String :=
  (match n with
    | .integer _ => "integer"
    | .single _ => "floating point"
    | .double _ => "floating point") ++ " `" ++ String.ofList n.chars ++ "`"

def message : Found → String
  | .null => "null"
  | .bool b => "boolean `" ++ (if b then "true" else "false") ++ "`"
  | .number n => numberMessage n
  | .string s => "string " ++ Text.quote s
  | .sequence => "sequence"
  | .map => "map"

end Found

/-- Why a text cannot be read, or cannot be read as what was wanted. -/
inductive Cause where
  | endInValue
  | endInList
  | endInObject
  | endInString
  | wantColon
  | wantListCommaOrEnd
  | wantObjectCommaOrEnd
  | wantIdent
  | wantValue
  | invalidEscape
  | invalidNumber
  | numberOutOfRange
  | invalidCodePoint
  | controlCharacter
  | keyNotString
  | loneSurrogate
  | endOfEscape
  | trailingComma
  | trailingCharacters
  | tooDeep
  | wrongType (found : Found) (want : String)
  | wrongValue (found : Found) (want : String)
  | wrongLength (length : Nat) (want : String)
  | missingMember (name : String)
  | repeatedMember (name : String)
  | unknownName (name : String) (known : List String)
  deriving DecidableEq, Repr

namespace Cause

/-- A name between backquotes. -/
def ticked (name : String) : String := "`" ++ name ++ "`"

/-- The names that would have been accepted. -/
def oneOf : List String → String
  | [] => "nothing"
  | [a] => ticked a
  | [a, b] => ticked a ++ " or " ++ ticked b
  | names => "one of " ++ ", ".intercalate (names.map ticked)

/-- The wording of a cause. -/
def message : Cause → String
  | .endInValue => "EOF while parsing a value"
  | .endInList => "EOF while parsing a list"
  | .endInObject => "EOF while parsing an object"
  | .endInString => "EOF while parsing a string"
  | .wantColon => "expected `:`"
  | .wantListCommaOrEnd => "expected `,` or `]`"
  | .wantObjectCommaOrEnd => "expected `,` or `\x7d`"
  | .wantIdent => "expected ident"
  | .wantValue => "expected value"
  | .invalidEscape => "invalid escape"
  | .invalidNumber => "invalid number"
  | .numberOutOfRange => "number out of range"
  | .invalidCodePoint => "invalid unicode code point"
  | .controlCharacter => "control character (\\u0000-\\u001F) found while parsing a string"
  | .keyNotString => "key must be a string"
  | .loneSurrogate => "lone leading surrogate in hex escape"
  | .endOfEscape => "unexpected end of hex escape"
  | .trailingComma => "trailing comma"
  | .trailingCharacters => "trailing characters"
  | .tooDeep => "recursion limit exceeded"
  | .wrongType found want => "invalid type: " ++ found.message ++ ", expected " ++ want
  | .wrongValue found want => "invalid value: " ++ found.message ++ ", expected " ++ want
  | .wrongLength n want => "invalid length " ++ toString n ++ ", expected " ++ want
  | .missingMember name => "missing field " ++ ticked name
  | .repeatedMember name => "duplicate field " ++ ticked name
  | .unknownName name known => "unknown variant " ++ ticked name ++ ", expected " ++ oneOf known

end Cause

/-- A cause, and how many bytes of the text lie before the place it is reported at. -/
structure Fault where
  offset : Nat
  cause : Cause
  deriving DecidableEq, Repr

/-- A cause at a line and a column. -/
structure Problem where
  line : Nat
  column : Nat
  cause : Cause
  deriving DecidableEq, Repr

namespace Problem

/-- The wording of a problem: its cause and its place. -/
def message (p : Problem) : String :=
  p.cause.message ++ " at line " ++ toString p.line ++ " column " ++ toString p.column

end Problem

/-- The line and the column after some bytes of a text: lines count from one, and a column counts the
bytes since the last line feed. -/
def place (before : List UInt8) : Nat × Nat :=
  before.foldl (fun p b => if b = 0x0A then (p.1 + 1, 0) else (p.1, p.2 + 1)) (1, 0)

/-- A fault as a problem of the text it was found in. -/
def Fault.locate (f : Fault) (text : List UInt8) : Problem :=
  let p := place (text.take f.offset)
  ⟨p.1, p.2, f.cause⟩

end FeatureFlags.Json
