/-
**From a text to its tree.**

The tree of a text is found by one descent.  Of two calls, one inside the other, the second is made on a
shorter text than the first or is the last on that text, so twice the number of bytes bounds the depth
of the descent; `Outline.of` starts with that bound, and the answer for an exhausted bound is never
given.  After a break the descent goes no further: what lies behind it is never asked for.

Main definitions:

* `Outline.value`, `Outline.items`, `Outline.members` — the descent;
* `Outline.of` — **the tree of a text**, and the place after it.
-/
import FeatureFlags.Json.Node

set_option autoImplicit false

namespace FeatureFlags.Json

/-- The tree of a text, and the place after its value. -/
structure Outline where
  root : Node
  after : Cursor

namespace Outline

/-- A fault reported at the byte at a place, or at the end of the text if there is none. -/
def peeked (c : Cursor) (cause : Cause) : Fault :=
  ⟨if c.rest.isEmpty then c.offset else c.offset + 1, cause⟩

/-- A break where no value begins. -/
def absent (c : Cursor) (why : Break) : Node × Cursor := (.broken c.offset c.rest.head? why, c)

/-- The literal name whose first letter stands at a place. -/
def ident (c : Cursor) (name : List UInt8) (value : Nat → Node) : Node × Cursor :=
  let same := (name.zip c.rest).takeWhile fun p => p.1 = p.2
  let n := same.length
  if n = name.length then (value (c.offset + n), ⟨c.offset + n, c.rest.drop n⟩)
  else
    let f : Fault :=
      if n = c.rest.length then ⟨c.offset + n, .endInValue⟩ else ⟨c.offset + n + 1, .wantIdent⟩
    absent c (.both f)

/-- The number at a place. -/
def numeral (c : Cursor) : Node × Cursor :=
  match scanNumeral c with
  | .error (.cutShort o) => absent c ⟨⟨o, .endInValue⟩, ⟨o, .invalidNumber⟩⟩
  | .error (.misplaced o) => absent c (.both ⟨o, .invalidNumber⟩)
  | .ok (n, after) =>
    let value := match n.value with
      | .ok x => .ok x
      | .error unread => .error ⟨after.offset - unread, .numberOutOfRange⟩
    (.number c.offset after.offset value, after)

/-- The text of the string whose opening quote stands before a place. -/
def text (c : Cursor) : Except Fault Quoted :=
  match readString c with
  | .ok (q, _) => .ok q
  | .error f => .error f

/-- The break of a string that does not end. -/
def unended (c : Cursor) (skip : Fault) : Break :=
  match readString c with
  | .ok _ => .both skip
  | .error read => ⟨read, skip⟩

/-- The string at a place; `c` is the place after its opening quote. -/
def string (start : Cursor) (c : Cursor) : Node × Cursor :=
  match skipString c with
  | .error f => absent start (unended c f)
  | .ok after => (.string start.offset after.offset (text c), after)

/-- Where a fault in the choice of a name is reported: past the blanks and a closing brace. -/
def settle (c : Cursor) : Nat :=
  let d := c.skipBlank
  match d.rest with
  | 0x7D :: _ => d.offset + 1
  | _ => d.offset

mutual

/-- The value at a place, past the blanks before it. -/
def value (bound : Nat) (c : Cursor) : Node × Cursor :=
  let c := c.skipBlank
  match bound, c.rest with
  | 0, _ => absent c (.both (peeked c .wantValue))
  | _, [] => absent c (.both (peeked c .endInValue))
  | bound + 1, b :: rest =>
    let next : Cursor := ⟨c.offset + 1, rest⟩
    if b = 0x6E then ident c [0x6E, 0x75, 0x6C, 0x6C] (.null c.offset)
    else if b = 0x74 then ident c [0x74, 0x72, 0x75, 0x65] (.bool c.offset · true)
    else if b = 0x66 then ident c [0x66, 0x61, 0x6C, 0x73, 0x65] (.bool c.offset · false)
    else if b = 0x22 then string c next
    else if b = 0x2D ∨ (digit? b).isSome then numeral c
    else if b = 0x5B then
      let (ns, tail, after) := firstItem bound next
      (.array c.offset ns tail, after)
    else if b = 0x7B then
      let (ms, tail, after) := firstMember bound next
      (.object c.offset ms tail, after)
    else absent c (.both (peeked c .wantValue))

/-- The items of a list from the place after its bracket. -/
def firstItem (bound : Nat) (c : Cursor) : List Node × Tail × Cursor :=
  let c := c.skipBlank
  match bound, c.rest with
  | 0, _ => ([], .broken (.both (peeked c .wantValue)) (peeked c .wantValue), c)
  | _, [] =>
    let f := peeked c .endInList
    ([], .broken (.both f) f, c)
  | bound + 1, b :: rest =>
    if b = 0x5D then ([], .closed (c.offset + 1), ⟨c.offset + 1, rest⟩)
    else
      let (n, after) := value bound c
      match n.break? with
      | some why => ([n], .broken why why.read, after)
      | none =>
        let (ns, tail, stop) := nextItem bound after
        (n :: ns, tail, stop)

/-- The items of a list from the place after one of them. -/
def nextItem (bound : Nat) (c : Cursor) : List Node × Tail × Cursor :=
  let c := c.skipBlank
  match bound, c.rest with
  | 0, _ => ([], .broken (.both (peeked c .wantValue)) (peeked c .wantValue), c)
  | _, [] =>
    let f := peeked c .endInList
    ([], .broken (.both f) f, c)
  | bound + 1, b :: rest =>
    if b = 0x5D then ([], .closed (c.offset + 1), ⟨c.offset + 1, rest⟩)
    else if b = 0x2C then
      let d := Cursor.skipBlank ⟨c.offset + 1, rest⟩
      match d.rest with
      | [] => ([], .broken (.both (peeked d .endInValue)) (peeked d .trailingCharacters), d)
      | 0x5D :: _ =>
        let f := peeked d .trailingComma
        ([], .broken ⟨f, peeked d .wantValue⟩ f, d)
      | _ :: _ =>
        let (n, after) := value bound d
        match n.break? with
        | some why => ([n], .broken why why.read, after)
        | none =>
          let (ns, tail, stop) := nextItem bound after
          (n :: ns, tail, stop)
    else ([], .broken (.both (peeked c .wantListCommaOrEnd)) (peeked c .trailingCharacters), c)

/-- The members of an object from the place after its brace. -/
def firstMember (bound : Nat) (c : Cursor) : List (Field Node) × Tail × Cursor :=
  let c := c.skipBlank
  match bound, c.rest with
  | 0, _ => ([], .broken (.both (peeked c .wantValue)) (peeked c .wantValue), c)
  | _, [] =>
    let f := peeked c .endInObject
    ([], .broken (.both f) f, c)
  | bound + 1, b :: rest =>
    if b = 0x7D then ([], .closed (c.offset + 1), ⟨c.offset + 1, rest⟩)
    else if b = 0x22 then member bound ⟨c.offset + 1, rest⟩
    else
      let f := peeked c .keyNotString
      ([], .broken (.both f) f, c)

/-- The members of an object from the place after the opening quote of a name. -/
def member (bound : Nat) (c : Cursor) : List (Field Node) × Tail × Cursor :=
  match bound, skipString c with
  | 0, _ => ([], .broken (.both (peeked c .wantValue)) (peeked c .wantValue), c)
  | _, .error f =>
    let why := unended c f
    ([], .broken why why.read, c)
  | bound + 1, .ok after =>
    let key : Key := ⟨text c, after.offset, settle after⟩
    let d := after.skipBlank
    match d.rest with
    | 0x3A :: rest =>
      let (n, after) := value bound ⟨d.offset + 1, rest⟩
      match n.break? with
      | some why => ([⟨key, n, after.offset⟩], .broken why why.read, after)
      | none =>
        let next := after.skipBlank
        let (ms, tail, stop) := nextMember bound next
        (⟨key, n, next.offset⟩ :: ms, tail, stop)
    | _ =>
      let f := peeked d (if d.rest.isEmpty then .endInObject else .wantColon)
      ([⟨key, .broken d.offset none (.both f), d.offset⟩], .broken (.both f) f, d)

/-- The members of an object from the first place after one of them that is not blank. -/
def nextMember (bound : Nat) (c : Cursor) : List (Field Node) × Tail × Cursor :=
  match bound, c.rest with
  | 0, _ => ([], .broken (.both (peeked c .wantValue)) (peeked c .wantValue), c)
  | _, [] =>
    let f := peeked c .endInObject
    ([], .broken (.both f) f, c)
  | bound + 1, b :: rest =>
    if b = 0x7D then ([], .closed (c.offset + 1), ⟨c.offset + 1, rest⟩)
    else if b = 0x2C then
      let d := Cursor.skipBlank ⟨c.offset + 1, rest⟩
      match d.rest with
      | [] =>
        let f := peeked d .endInValue
        ([], .broken ⟨f, peeked d .endInObject⟩ f, d)
      | 0x22 :: rest => member bound ⟨d.offset + 1, rest⟩
      | 0x7D :: _ =>
        let f := peeked d .trailingComma
        ([], .broken ⟨f, peeked d .keyNotString⟩ f, d)
      | _ :: _ =>
        let f := peeked d .keyNotString
        ([], .broken (.both f) f, d)
    else
      let f := peeked c .wantObjectCommaOrEnd
      ([], .broken (.both f) f, c)

end

/-- The tree of a text. -/
def of (text : List UInt8) : Outline :=
  let (root, after) := value (2 * text.length + 2) (Cursor.start text)
  ⟨root, after⟩

end Outline

end FeatureFlags.Json
