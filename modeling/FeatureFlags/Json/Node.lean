/-
**A JSON text as a tree of places.**

Reading a text as a value of some kind can fail in two ways: the text breaks a rule of JSON, or it holds
something else than what was wanted.  Whichever comes first in the text is reported.  So a text is
first cut into a tree that is as complete as the text allows: each value knows the places where it
begins and ends, and where the text breaks a rule, the tree ends in a break.  What is wanted is then
read off the tree, in the order of the text.

The same break is worded differently where a value is read and where a value that nobody wants is
skipped, and a string or a number can be fit for skipping and unfit for reading; a tree tells both.

Main definitions:

* `Json.Break` — a broken rule, as a reader and as one who skips reports it;
* `Json.Node`, `Json.Field`, `Json.Tail` — **values with their places**, members of objects, and the
  ends of lists and objects;
* `Json.Node.skip` — the first fault in a value that nobody wants.
-/
import FeatureFlags.Json.Lexical

set_option autoImplicit false

namespace FeatureFlags.Json

/-- A broken rule: the fault to report when the value was to be read, and when it was to be skipped. -/
structure Break where
  read : Fault
  skip : Fault
  deriving DecidableEq, Repr

/-- A break that is reported alike in both cases. -/
def Break.both (f : Fault) : Break := ⟨f, f⟩

/-- How a list or an object ends. -/
inductive Tail where
  /-- By its bracket; the offset is that after the bracket. -/
  | closed (stop : Nat)
  /-- By a break.  The last fault is the one to report when no further item was wanted. -/
  | broken (why : Break) (finish : Fault)
  deriving DecidableEq, Repr

/-- The name of a member: its text, the offset after it, and the offset that a fault in the choice of
the name is reported at, which is past the blanks and a closing brace. -/
structure Key where
  text : Except Fault Quoted
  stop : Nat
  settled : Nat
  deriving Repr

/-- A member of an object: its name, its value, and the offset of the first byte after the value that
is not blank. -/
structure Field (α : Type) where
  key : Key
  value : α
  next : Nat
  deriving Repr

/-- A value with its places. -/
inductive Node where
  | null (start stop : Nat)
  | bool (start stop : Nat) (value : Bool)
  | number (start stop : Nat) (value : Except Fault Number)
  | string (start stop : Nat) (value : Except Fault Quoted)
  | array (start : Nat) (items : List Node) (tail : Tail)
  | object (start : Nat) (members : List (Field Node)) (tail : Tail)
  /-- No value: the first byte, if there is one, and what is wrong. -/
  | broken (start : Nat) (first : Option UInt8) (why : Break)

namespace Node

/-- The offset of the first byte of a value. -/
def start : Node → Nat
  | .null a _ => a
  | .bool a _ _ => a
  | .number a _ _ => a
  | .string a _ _ => a
  | .array a _ _ => a
  | .object a _ _ => a
  | .broken a _ _ => a

/-- The break that a value ends in. -/
def break? : Node → Option Break
  | .broken _ _ why => some why
  | .array _ _ (.broken why _) => some why
  | .object _ _ (.broken why _) => some why
  | _ => none

end Node

/-- The fault of an end for one who skips. -/
def Tail.skip : Tail → Except Fault Unit
  | .closed _ => .ok ()
  | .broken why _ => .error why.skip

mutual

/-- The first fault in a value that nobody wants. -/
def Node.skip : Node → Except Fault Unit
  | .null _ _ => .ok ()
  | .bool _ _ _ => .ok ()
  | .number _ _ _ => .ok ()
  | .string _ _ _ => .ok ()
  | .array _ items tail =>
    match skipItems items with
    | .error f => .error f
    | .ok () => tail.skip
  | .object _ members tail =>
    match skipMembers members with
    | .error f => .error f
    | .ok () => tail.skip
  | .broken _ _ why => .error why.skip

/-- The first fault in some items. -/
def skipItems : List Node → Except Fault Unit
  | [] => .ok ()
  | n :: items =>
    match n.skip with
    | .error f => .error f
    | .ok () => skipItems items

/-- The first fault in some members. -/
def skipMembers : List (Field Node) → Except Fault Unit
  | [] => .ok ()
  | ⟨_, n, _⟩ :: members =>
    match n.skip with
    | .error f => .error f
    | .ok () => skipMembers members

end

end FeatureFlags.Json
