/-
**Records: fixed members with values of their own kinds.**

A record is written as an object, or as a list of its members' values in their declared order.  Members
are read in the order of the text; a member that the record does not know is skipped, and one that is
repeated is a fault before its value is looked at.  In a list, members at the end may be left out.

A reader of records is built from readers of single members.  While members are read it keeps, for each
of them, the value read so far.

Main definitions:

* `Json.Member` — the name of a member, its decoder, and what stands for it when it is missing;
* `Json.Record` — **a reader of several members**, with `Record.one` and `Record.and` to build it;
* `Json.Record.decoder` — the record as a decoder.
-/
import FeatureFlags.Json.Decoder

set_option autoImplicit false

namespace FeatureFlags.Json

/-- A member of a record.  Without a value for a missing one, it has to be there. -/
structure Member (α : Type) where
  name : String
  decoder : Decoder α
  missing : Option α

namespace Member

variable {α : Type}

/-- A member that has to be there. -/
def required (name : String) (d : Decoder α) : Member α := ⟨name, d, none⟩

/-- A member with a value for when it is missing. -/
def withDefault (name : String) (d : Decoder α) (a : α) : Member α := ⟨name, d, some a⟩

/-- A member that may be missing or `null`. -/
def optional (name : String) (d : Decoder α) : Member (Option α) := ⟨name, d.optional, some none⟩

/-- A member for which a value stands when it is missing or `null`. -/
def orDefault (name : String) (d : Decoder α) (a : α) : Member α := ⟨name, d.orDefault a, some a⟩

end Member

/-- What a reader of records does with a named member. -/
inductive Claim (σ : Type) where
  /-- The record has no such member. -/
  | unknown
  /-- The member was read before. -/
  | again
  /-- The member is to be read by this function. -/
  | take (read : Node → Except Fault σ)

/-- Why a list gives no record: an item is at fault, or there are only so many. -/
inductive Shortage where
  | item (fault : Fault)
  | tooFew (count : Nat)
  deriving DecidableEq, Repr

/-- A reader of several members: the values read so far, what to do with a named member, and the values
of all members when there are no more.  `ofItems` reads the members in order off a list of items, of
which the given number was read before, and returns the items it left. -/
structure Record (α : Type) where
  State : Type
  start : State
  names : List String
  claim : State → String → Claim State
  finish : State → Except Cause α
  ofItems : Nat → List Node → Except Shortage (α × List Node)

namespace Record

variable {α β : Type}

/-- A record of one member. -/
def one (m : Member α) : Record α where
  State := Option α
  start := none
  names := [m.name]
  claim s name :=
    if name = m.name then
      match s with
      | some _ => .again
      | none => .take fun n => (m.decoder n).map some
    else .unknown
  finish
    | some a => .ok a
    | none =>
      match m.missing with
      | some a => .ok a
      | none => .error (.missingMember m.name)
  ofItems i
    | n :: ns =>
      match m.decoder n with
      | .ok a => .ok (a, ns)
      | .error f => .error (.item f)
    | [] =>
      match m.missing with
      | some a => .ok (a, [])
      | none => .error (.tooFew i)

/-- The members of one record and then those of another. -/
def and (r : Record α) (t : Record β) : Record (α × β) where
  State := r.State × t.State
  start := (r.start, t.start)
  names := r.names ++ t.names
  claim s name :=
    match r.claim s.1 name with
    | .again => .again
    | .take read => .take fun n => (read n).map fun a => (a, s.2)
    | .unknown =>
      match t.claim s.2 name with
      | .again => .again
      | .take read => .take fun n => (read n).map fun b => (s.1, b)
      | .unknown => .unknown
  finish s :=
    match r.finish s.1 with
    | .error c => .error c
    | .ok a =>
      match t.finish s.2 with
      | .error c => .error c
      | .ok b => .ok (a, b)
  ofItems i ns :=
    match r.ofItems i ns with
    | .error e => .error e
    | .ok (a, left) =>
      match t.ofItems (i + r.names.length) left with
      | .error e => .error e
      | .ok (b, left) => .ok ((a, b), left)

/-- The same members, seen as another value. -/
def map (f : α → β) (r : Record α) : Record β where
  State := r.State
  start := r.start
  names := r.names
  claim := r.claim
  finish s := (r.finish s).map f
  ofItems i ns := (r.ofItems i ns).map fun p => (f p.1, p.2)

/-- Reads members in the order of the text. -/
def members (r : Record α) (s : r.State) : List (Field Node) → Except Fault r.State
  | [] => .ok s
  | m :: ms =>
    match m.key.text with
    | .error f => .error f
    | .ok q =>
      match r.claim s q.text with
      | .again => .error ⟨m.key.settled, .repeatedMember q.text⟩
      | .take read =>
        match read m.value with
        | .error f => .error f
        | .ok s => members r s ms
      | .unknown =>
        match m.value.skip with
        | .error f => .error f
        | .ok () => members r s ms

/-- What a record is called when its length is wrong. -/
def lengthWanted (r : Record α) (want : String) : String :=
  let n := r.names.length
  want ++ " with " ++ toString n ++ (if n = 1 then " element" else " elements")

/-- A record of the given name, from an object or from a list. -/
def decoder (name : String) (r : Record α) : Decoder α
  | .object _ ms tail =>
    match r.members r.start ms with
    | .error f => .error f
    | .ok s =>
      match tail.read with
      | .error f => .error f
      | .ok stop =>
        match r.finish s with
        | .error cause => .error ⟨stop, cause⟩
        | .ok a => .ok a
  | .array _ ns tail =>
    match r.ofItems 0 ns, tail with
    | .error (.item f), _ => .error f
    | .error (.tooFew _), .broken why _ => .error why.read
    | .error (.tooFew i), .closed stop =>
      .error ⟨stop, .wrongLength i (r.lengthWanted ("struct " ++ name))⟩
    | .ok (a, []), .closed _ => .ok a
    | .ok (_, []), .broken why finish =>
      .error (if ns.length < r.names.length then why.read else finish)
    | .ok (_, n :: _), _ => .error ⟨n.start + 1, .trailingCharacters⟩
  | n => .error (n.mismatch ("struct " ++ name))

end Record

end FeatureFlags.Json
