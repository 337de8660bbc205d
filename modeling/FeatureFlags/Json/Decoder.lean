/-
**Reading what is wanted off a tree.**

A decoder takes a tree to a value of some kind, or to the first fault in the order of the text.  When
another kind of value stands there, the fault names what was found; a list or an object that is not
wanted is reported at its bracket, which has not been read, and anything else after its last byte.

Main definitions:

* `Json.Decoder` — a decoder;
* `Json.Node.mismatch` — the fault for a value of the wrong kind;
* `Json.Decoder.text`, `.flag`, `.single`, `.natural`, `.list`, `.optional`, … — the decoders of plain
  kinds;
* `Json.Vocabulary` — **a fixed set of names**, with or without a value for every other name;
* `Json.decode` — a decoder applied to a whole text.
-/
import FeatureFlags.Json.Outline

set_option autoImplicit false

namespace FeatureFlags.Json

/-- Reads a value of some kind off a tree. -/
abbrev Decoder (α : Type) := Node → Except Fault α

/-- The fault of a value that is not of the wanted kind. -/
def Node.mismatch (want : String) : Node → Fault
  | .null _ stop => ⟨stop, .wrongType .null want⟩
  | .bool _ stop b => ⟨stop, .wrongType (.bool b) want⟩
  | .number _ stop (.ok n) => ⟨stop, .wrongType (.number n) want⟩
  | .number _ _ (.error f) => f
  | .string _ stop (.ok q) => ⟨stop, .wrongType (.string q.text) want⟩
  | .string _ _ (.error f) => f
  | .array start _ _ => ⟨start, .wrongType .sequence want⟩
  | .object start _ _ => ⟨start, .wrongType .map want⟩
  | .broken _ _ why => why.read

/-- The fault of an end at which another item was wanted. -/
def Tail.read : Tail → Except Fault Nat
  | .closed stop => .ok stop
  | .broken why _ => .error why.read

namespace Decoder

variable {α : Type}

/-- A string, under a name for what is wanted. -/
def textAs (want : String) : Decoder String
  | .string _ _ (.ok q) => .ok q.text
  | n => .error (n.mismatch want)

/-- A string. -/
def text : Decoder String := textAs "a string"

/-- A string that is written without escapes. -/
def plainText : Decoder String
  | .string start stop (.ok q) =>
    if q.escaped then .error ((Node.string start stop (.ok q)).mismatch "a borrowed string")
    else .ok q.text
  | n => .error (n.mismatch "a borrowed string")

/-- A truth value. -/
def flag : Decoder Bool
  | .bool _ _ b => .ok b
  | n => .error (n.mismatch "a boolean")

/-- The number of four bytes nearest to a number. -/
def single : Decoder Single
  | .number _ _ (.ok n) => .ok n.toSingle
  | n => .error (n.mismatch "f32")

/-- The number of eight bytes nearest to a number. -/
def double : Decoder Double
  | .number _ _ (.ok n) => .ok n.toDouble
  | n => .error (n.mismatch "f64")

/-- A whole number that is not negative. -/
def natural : Decoder Nat
  | .number _ stop (.ok (.integer i)) =>
    if 0 ≤ i then .ok i.toNat
    else .error ⟨stop, .wrongValue (.number (.integer i)) "u64"⟩
  | n => .error (n.mismatch "u64")

/-- The name `null`. -/
def unit : Decoder Unit
  | .null _ _ => .ok ()
  | n => .error (n.mismatch "unit")

/-- The values of some items. -/
def items (d : Decoder α) : List Node → Except Fault (List α)
  | [] => .ok []
  | n :: ns =>
    match d n with
    | .error f => .error f
    | .ok a =>
      match items d ns with
      | .error f => .error f
      | .ok as => .ok (a :: as)

/-- A list. -/
def list (d : Decoder α) : Decoder (List α)
  | .array _ ns tail =>
    match items d ns with
    | .error f => .error f
    | .ok as =>
      match tail.read with
      | .error f => .error f
      | .ok _ => .ok as
  | n => .error (n.mismatch "a sequence")

/-- A value or `null`. -/
def optional (d : Decoder α) : Decoder (Option α)
  | .null _ _ => .ok none
  | .broken start first why =>
    if first = some 0x6E then .error why.read else (d (.broken start first why)).map some
  | n => (d n).map some

/-- A value, or one that `null` stands for. -/
def orDefault (d : Decoder α) (a : α) : Decoder α := fun n => (optional d n).map (·.getD a)

end Decoder

/-! ### Fixed sets of names -/

/-- A fixed set of names for values, and the value of every other name if there is one. -/
structure Vocabulary (α : Type) where
  names : List (String × α)
  other : Option α

namespace Vocabulary

variable {α : Type}

/-- The value of a name. -/
def value? (v : Vocabulary α) (name : String) : Option α := (v.names.lookup name).or v.other

/-- The value of a name that ends at an offset. -/
def named (v : Vocabulary α) (name : String) (stop : Nat) : Except Fault α :=
  match v.value? name with
  | some a => .ok a
  | none => .error ⟨stop, .unknownName name (v.names.map (·.1))⟩

/-- A name: in a string, or as the only member of an object, with `null` as its value. -/
def decoder (v : Vocabulary α) : Decoder α
  | .string _ stop (.ok q) => v.named q.text stop
  | .string _ _ (.error f) => .error f
  | .object _ [] (.closed stop) => .error ⟨stop, .wantValue⟩
  | .object _ [] (.broken why _) => .error why.read
  | .object _ (m :: ms) tail =>
    match m.key.text with
    | .error f => .error f
    | .ok q =>
      match v.named q.text m.key.stop with
      | .error f => .error f
      | .ok a =>
        match Decoder.unit m.value with
        | .error f => .error f
        | .ok () =>
          match ms, tail with
          | [], .closed _ => .ok a
          | [], .broken why _ =>
            .error (if why.read.cause = .endInObject then why.read else ⟨m.next, .wantValue⟩)
          | _ :: _, _ => .error ⟨m.next, .wantValue⟩
  | .broken start first why =>
    if first = none ∨ first = some 0x22 then .error why.read
    else .error ⟨start + 1, .wantValue⟩
  | n => .error ⟨n.start + 1, .wantValue⟩

end Vocabulary

/-! ### Whole texts -/

/-- Applies a decoder to a whole text: only blanks may follow the value. -/
def read {α : Type} (d : Decoder α) (text : List UInt8) : Except Fault α :=
  let o := Outline.of text
  match d o.root with
  | .error f => .error f
  | .ok a =>
    let c := o.after.skipBlank
    if c.rest.isEmpty then .ok a else .error (Outline.peeked c .trailingCharacters)

/-- Applies a decoder to a whole text, with the place of a fault as a line and a column. -/
def decode {α : Type} (d : Decoder α) (text : List UInt8) : Except Problem α :=
  match read d text with
  | .ok a => .ok a
  | .error f => .error (f.locate text)

end FeatureFlags.Json
