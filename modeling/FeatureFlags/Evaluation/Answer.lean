/-
**The answers of an evaluation.**

A variant flag answers with a variant, a boolean flag with a truth value, and both with a reason.  A
batch answers with an entry for each request; a flag that does not exist makes an entry of its own.

The text of an answer has a place for the time that the evaluation took and for the moment of the
answer.  They are what a clock shows, which is given from outside, and nothing else depends on them.

Main definitions:

* `VariantAnswer`, `BooleanAnswer`, `Missing` — the three answers;
* `Entry` — an entry of a batch;
* `Stamp`, `Clock` — what a clock shows for an answer, and for the answers to a request;
* `VariantAnswer.toJson`, …, `batchToJson` — **their texts**.
-/
import FeatureFlags.Document.Encode
import FeatureFlags.Evaluation.Reason
import FeatureFlags.Snapshot.Basic

set_option autoImplicit false

namespace FeatureFlags

open Json (Value)
open Json.Value (member?)

/-- The answer of a variant flag. -/
structure VariantAnswer where
  matched : Bool
  segments : List String
  reason : Reason
  flag : String
  variant : String
  attachment : String
  deriving DecidableEq, Repr

/-- The answer of a boolean flag. -/
structure BooleanAnswer where
  enabled : Bool
  flag : String
  reason : Reason
  deriving DecidableEq, Repr

/-- The answer for a request that has none. -/
structure Missing where
  flag : String
  space : String
  reason : ErrorReason
  deriving DecidableEq, Repr

/-- An entry of a batch. -/
inductive Entry where
  | boolean (answer : BooleanAnswer)
  | variant (answer : VariantAnswer)
  | missing (answer : Missing)
  deriving DecidableEq, Repr

/-- What an entry holds. -/
def Entry.kind : Entry → ResponseKind
  | .boolean _ => .boolean
  | .variant _ => .variant
  | .missing _ => .error

/-! ### Writing -/

/-- What a clock shows for an answer: how many milliseconds it took, and the moment in milliseconds. -/
structure Stamp where
  took : Json.Number
  moment : Nat
  deriving DecidableEq, Repr

/-- What a clock shows for the answers to a request, by their number.  A batch comes after its entries. -/
abbrev Clock := Nat → Stamp

/-- A clock that only shows zeros. -/
def Clock.still : Clock := fun _ => ⟨.integer 0, 0⟩

/-- The time that an evaluation took. -/
def durationMember (s : Stamp) : String × Value :=
  ("request_duration_millis", .number s.took)

/-- The moment of an answer. -/
def momentMember (s : Stamp) : String × Value := ("timestamp", .number (.integer s.moment))

def VariantAnswer.toJson (a : VariantAnswer) (s : Stamp) : Value :=
  .object [("match", .bool a.matched), ("segment_keys", jsonList .string a.segments),
    ("reason", .string a.reason.name), ("flag_key", .string a.flag),
    ("variant_key", .string a.variant), ("variant_attachment", .string a.attachment),
    durationMember s, momentMember s]

def BooleanAnswer.toJson (a : BooleanAnswer) (s : Stamp) : Value :=
  .object [("enabled", .bool a.enabled), ("flag_key", .string a.flag),
    ("reason", .string a.reason.name), durationMember s, momentMember s]

def Missing.toJson (a : Missing) : Value :=
  .object [("flag_key", .string a.flag), ("namespace_key", .string a.space),
    ("reason", .string a.reason.name)]

/-- The member of an entry that holds its answer. -/
def Entry.answerMember (s : Stamp) : Entry → String × Value
  | .boolean a => ("boolean_evaluation_response", a.toJson s)
  | .variant a => ("variant_evaluation_response", a.toJson s)
  | .missing a => ("error_evaluation_response", a.toJson)

def Entry.toJson (e : Entry) (s : Stamp) : Value :=
  .object [("type", .string e.kind.name), e.answerMember s]

/-- The answer of a batch. -/
def batchToJson (clock : Clock) (es : List Entry) : Value :=
  .object [("responses", .array (es.mapIdx fun i e => e.toJson (clock i))),
    durationMember (clock es.length)]

def FlagInfo.toJson (i : FlagInfo) : Value :=
  .object ([("key", .string i.key), ("name", .string i.name), ("enabled", .bool i.enabled),
    ("type", .string i.kind.name)] ++
    member? "description" (i.description.map .string) ++
    member? "default_variant" (i.defaultVariant.map Variant.toJson))

end FeatureFlags
