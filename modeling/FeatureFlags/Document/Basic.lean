/-
**Flag documents.**

A document holds the flags of one namespace.  A variant flag chooses one of several variants by rules: a
rule applies to the entities that its segments select and distributes them over variants by
percentages.  A boolean flag is on or off by rollouts: a percentage of all entities, or the entities
that segments select.  A segment selects entities by constraints on their properties.

Main definitions:

* `FlagKind`, `SegmentOperator`, `MatchType`, `ConstraintKind` — the choices that a document makes by
  name, each with its vocabulary;
* `Document`, `Flag`, `Rule`, `Distribution`, `Rollout`, `Segment`, `Constraint` — **the parts of a
  document**.
-/
import FeatureFlags.Json.Decoder

set_option autoImplicit false

namespace FeatureFlags

open Json (Vocabulary)

/-! ### Choices made by name -/

/-- What a flag answers: on or off, or one of several variants. -/
inductive FlagKind where
  | boolean
  | variant
  deriving DecidableEq, Repr

namespace FlagKind

def name : FlagKind → String
  | .boolean => "BOOLEAN_FLAG_TYPE"
  | .variant => "VARIANT_FLAG_TYPE"

/-- A flag of an unknown kind counts as a variant flag. -/
def vocabulary : Vocabulary FlagKind where
  names := [boolean, variant].map fun k => (k.name, k)
  other := some variant

end FlagKind

/-- How the segments of a rule or a rollout are combined. -/
inductive SegmentOperator where
  | and
  | or
  deriving DecidableEq, Repr

namespace SegmentOperator

def name : SegmentOperator → String
  | .and => "AND_SEGMENT_OPERATOR"
  | .or => "OR_SEGMENT_OPERATOR"

/-- An unknown operator counts as the disjunction. -/
def vocabulary : Vocabulary SegmentOperator where
  names := [and, or].map fun o => (o.name, o)
  other := some or

end SegmentOperator

/-- Whether a segment asks for all of its constraints or for one of them. -/
inductive MatchType where
  | all
  | any
  deriving DecidableEq, Repr

namespace MatchType

def name : MatchType → String
  | .all => "ALL_SEGMENT_MATCH_TYPE"
  | .any => "ANY_SEGMENT_MATCH_TYPE"

/-- An unknown match type asks for one constraint. -/
def vocabulary : Vocabulary MatchType where
  names := [all, any].map fun t => (t.name, t)
  other := some any

end MatchType

/-- What a constraint compares. -/
inductive ConstraintKind where
  | string
  | number
  | boolean
  | datetime
  | entity
  | unknown
  deriving DecidableEq, Repr

namespace ConstraintKind

def name : ConstraintKind → String
  | .string => "STRING_CONSTRAINT_COMPARISON_TYPE"
  | .number => "NUMBER_CONSTRAINT_COMPARISON_TYPE"
  | .boolean => "BOOLEAN_CONSTRAINT_COMPARISON_TYPE"
  | .datetime => "DATETIME_CONSTRAINT_COMPARISON_TYPE"
  | .entity => "ENTITY_ID_CONSTRAINT_COMPARISON_TYPE"
  | .unknown => "UNKNOWN_CONSTRAINT_COMPARISON_TYPE"

/-- A comparison of another name is kept as unknown. -/
def vocabulary : Vocabulary ConstraintKind where
  names := [string, number, boolean, datetime, entity, unknown].map fun k => (k.name, k)
  other := some unknown

end ConstraintKind

/-! ### Parts of a document -/

/-- A condition on a property of an entity. -/
structure Constraint where
  kind : ConstraintKind
  property : String
  operator : String
  value : String
  deriving DecidableEq, Repr

/-- A set of entities, described by constraints. -/
structure Segment where
  key : String
  matchType : MatchType
  constraints : List Constraint
  deriving DecidableEq, Repr

/-- The percentage of entities that a rule gives to a variant. -/
structure Distribution where
  variant : String
  percentage : Single
  attachment : Option String
  deriving DecidableEq, Repr

/-- A rule of a variant flag: its segments select the entities that it distributes. -/
structure Rule where
  segments : List Segment
  operator : SegmentOperator
  distributions : List Distribution
  deriving DecidableEq, Repr

/-- A rollout to the entities that segments select. -/
structure SegmentRollout where
  operator : SegmentOperator
  value : Bool
  segments : List Segment
  deriving DecidableEq, Repr

/-- A rollout to a percentage of all entities. -/
structure Threshold where
  percentage : Single
  value : Bool
  deriving DecidableEq, Repr

/-- A rollout of a boolean flag. -/
structure Rollout where
  description : Option String
  segment : Option SegmentRollout
  threshold : Option Threshold
  deriving DecidableEq, Repr

/-- A variant with what is attached to it. -/
structure Variant where
  key : String
  attachment : Option String
  deriving DecidableEq, Repr

structure Flag where
  key : String
  name : String
  kind : FlagKind
  description : Option String
  enabled : Bool
  rules : List Rule
  rollouts : List Rollout
  defaultVariant : Option Variant
  deriving DecidableEq, Repr

structure Namespace where
  key : String
  name : Option String
  deriving DecidableEq, Repr

/-- The flags of one namespace. -/
structure Document where
  space : Namespace
  flags : List Flag
  deriving DecidableEq, Repr

namespace Document

/-- A document without flags. -/
def empty (ns : String) : Document := ⟨⟨ns, none⟩, []⟩

end Document

end FeatureFlags
