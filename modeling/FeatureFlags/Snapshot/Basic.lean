/-
**Snapshots: documents made ready.**

A snapshot is a document that was found fit to be served, and its flags in the form in which they are
evaluated: rules and rollouts carry their place in the flag, counted from one, and a rollout has the one
effect that it can have.  A rollout with a threshold goes by the threshold, whatever else it has.

A snapshot keeps the keys of its flags in the order of the document, and the flags apart from that by
their keys.  Both grow flag by flag, and the first flag with a key that is there already, or with a fault
of its own, ends the building.

A document that names no namespace is taken into the one it is served for.  One that names another is
kept as it is, and then nothing is found in it.

Main definitions:

* `Effect`, `CompiledFlag`, `FlagInfo` — flags made ready, and what is listed of them;
* `FlagTable`, `FlagTable.takeIn` — flags in order and by key, and **the building of such a table**;
* `Snapshot`, `Snapshot.build` — **a snapshot of a document**;
* `Snapshot.list?`, `Snapshot.get?` — what is found in a snapshot.
-/
import FeatureFlags.Document.Check

set_option autoImplicit false

namespace FeatureFlags

/-- What a rollout does. -/
inductive Effect where
  /-- Gives a value to a percentage of all entities. -/
  | threshold (percentage : Single) (value : Bool)
  /-- Gives a value to the entities that segments select. -/
  | selection (operator : SegmentOperator) (segments : List Segment) (value : Bool)
  /-- Does nothing. -/
  | nothing
  deriving DecidableEq, Repr

/-- The effect of a rollout. -/
def Rollout.effect (r : Rollout) : Effect :=
  match r.threshold, r.segment with
  | some t, _ => .threshold t.percentage t.value
  | none, some s => .selection s.operator s.segments s.value
  | none, none => .nothing

/-- A part of a flag in its place. -/
structure Ranked (α : Type) where
  rank : Nat
  item : α
  deriving DecidableEq, Repr

/-- The items of a list with their places, counted from the given one. -/
def rankFrom {α : Type} (rank : Nat) : List α → List (Ranked α)
  | [] => []
  | a :: as => ⟨rank, a⟩ :: rankFrom (rank + 1) as

/-- What is listed of a flag. -/
structure FlagInfo where
  key : String
  name : String
  enabled : Bool
  kind : FlagKind
  description : Option String
  defaultVariant : Option Variant
  deriving DecidableEq, Repr

/-- A flag as it is evaluated. -/
structure CompiledFlag where
  info : FlagInfo
  rules : List (Ranked Rule)
  rollouts : List (Ranked Effect)
  deriving DecidableEq, Repr

/-- What is listed of a flag of a document. -/
def Flag.info (f : Flag) : FlagInfo :=
  ⟨f.key, f.name, f.enabled, f.kind, f.description, f.defaultVariant⟩

/-- A flag made ready. -/
def Flag.compile (f : Flag) : CompiledFlag :=
  ⟨f.info, rankFrom 1 f.rules, rankFrom 1 (f.rollouts.map (·.effect))⟩

/-- Flags made ready: their keys in order, and the flags by their keys. -/
structure FlagTable where
  order : List String
  index : List (String × CompiledFlag)
  deriving DecidableEq, Repr

namespace FlagTable

/-- No flags. -/
def empty : FlagTable := ⟨[], []⟩

/-- The flag with a key. -/
def get? (t : FlagTable) (key : String) : Option CompiledFlag := t.index.lookup key

/-- The flags, in order. -/
def flags (t : FlagTable) : List CompiledFlag := t.order.filterMap t.get?

/-- Puts a flag behind the others, under its key. -/
def insert (t : FlagTable) (key : String) (c : CompiledFlag) : FlagTable :=
  ⟨t.order ++ [key], (key, c) :: t.index.filter fun e => e.1 != key⟩

/-- Takes in flags one after the other, up to the first fault. -/
def takeIn (t : FlagTable) : List Flag → Except DocumentFault FlagTable
  | [] => .ok t
  | f :: fs =>
    if (t.get? f.key).isSome then .error (.repeatedKey f.key)
    else
      match f.check with
      | .error e => .error e
      | .ok () => takeIn (t.insert f.key f.compile) fs

end FlagTable

/-- A document and its flags made ready. -/
structure Snapshot where
  document : Document
  table : FlagTable
  deriving DecidableEq, Repr

/-- The document with a namespace, unless it names one. -/
def Document.adopt (ns : String) (d : Document) : Document :=
  if d.space.key.isEmpty then { d with space := { d.space with key := ns } } else d

namespace Snapshot

/-- A snapshot without flags. -/
def empty (ns : String) : Snapshot := ⟨Document.empty ns, .empty⟩

/-- The snapshot of a document for a namespace. -/
def build (ns : String) (d : Document) : Except DocumentFault Snapshot :=
  let d := d.adopt ns
  match FlagTable.empty.takeIn d.flags with
  | .error f => .error f
  | .ok t => .ok ⟨d, t⟩

/-- The namespace that the document names. -/
def space (s : Snapshot) : String := s.document.space.key

/-- The flags, in the order of the document. -/
def flags (s : Snapshot) : List CompiledFlag := s.table.flags

/-- What is listed of the flags of a namespace: nothing if it is another one. -/
def list? (s : Snapshot) (ns : String) : Option (List FlagInfo) :=
  if s.space = ns then some (s.flags.map (·.info)) else none

/-- The flag of a namespace with a key. -/
def get? (s : Snapshot) (ns key : String) : Option CompiledFlag :=
  if s.space = ns then s.table.get? key else none

end Snapshot

end FeatureFlags
