/-
**Writing a document.**

Members are written in the order in which the parts declare them.  An optional member without a value
is left out, and so are the rules and the rollouts of a flag that has none.

Main definitions:

* `Constraint.toJson`, `Segment.toJson`, …, `Document.toJson` — one JSON value for each part.
-/
import FeatureFlags.Document.Basic
import FeatureFlags.Json.Value

set_option autoImplicit false

namespace FeatureFlags

open Json (Value)
open Json.Value (member?)

/-- The list of the values of some parts. -/
def jsonList {α : Type} (f : α → Value) (as : List α) : Value := .array (as.map f)

def Constraint.toJson (c : Constraint) : Value :=
  .object [("type", .string c.kind.name), ("property", .string c.property),
    ("operator", .string c.operator), ("value", .string c.value)]

def Segment.toJson (s : Segment) : Value :=
  .object [("key", .string s.key), ("matchType", .string s.matchType.name),
    ("constraints", jsonList Constraint.toJson s.constraints)]

def Distribution.toJson (d : Distribution) : Value :=
  .object ([("variantKey", .string d.variant), ("rollout", .number (.single d.percentage))] ++
    member? "variantAttachment" (d.attachment.map .string))

def Rule.toJson (r : Rule) : Value :=
  .object [("segments", jsonList Segment.toJson r.segments),
    ("segmentOperator", .string r.operator.name),
    ("distributions", jsonList Distribution.toJson r.distributions)]

def SegmentRollout.toJson (r : SegmentRollout) : Value :=
  .object [("segmentOperator", .string r.operator.name), ("value", .bool r.value),
    ("segments", jsonList Segment.toJson r.segments)]

def Threshold.toJson (t : Threshold) : Value :=
  .object [("percentage", .number (.single t.percentage)), ("value", .bool t.value)]

def Rollout.toJson (r : Rollout) : Value :=
  .object (member? "description" (r.description.map .string) ++
    member? "segment" (r.segment.map SegmentRollout.toJson) ++
    member? "threshold" (r.threshold.map Threshold.toJson))

def Variant.toJson (v : Variant) : Value :=
  .object (("key", .string v.key) :: member? "attachment" (v.attachment.map .string))

/-- A list of parts that is left out when it is empty. -/
def jsonList? {α : Type} (f : α → Value) : List α → Option Value
  | [] => none
  | a :: as => some (jsonList f (a :: as))

def Flag.toJson (f : Flag) : Value :=
  .object ([("key", .string f.key), ("name", .string f.name), ("type", .string f.kind.name)] ++
    member? "description" (f.description.map .string) ++ [("enabled", .bool f.enabled)] ++
    member? "rules" (jsonList? Rule.toJson f.rules) ++
    member? "rollouts" (jsonList? Rollout.toJson f.rollouts) ++
    member? "defaultVariant" (f.defaultVariant.map Variant.toJson))

def Namespace.toJson (n : Namespace) : Value :=
  .object (("key", .string n.key) :: member? "name" (n.name.map .string))

def Document.toJson (d : Document) : Value :=
  .object [("namespace", d.space.toJson), ("flags", jsonList Flag.toJson d.flags)]

end FeatureFlags
