/-
**The relations that order two values.**

Numbers and points in time are compared by the same six relations.  Values that have no order, as when
one of them is not a number, are different and neither less nor greater.

Main definitions:

* `Relation`, `Relation.ofName?` — the six relations and their names;
* `Relation.holds` — **when a relation holds**, given how two values compare.
-/

set_option autoImplicit false

namespace FeatureFlags

/-- A relation between two values. -/
inductive Relation where
  | equal
  | different
  | less
  | atMost
  | greater
  | atLeast
  deriving DecidableEq, Repr

namespace Relation

/-- The relation of a name. -/
def ofName? : String → Option Relation
  | "eq" => some equal
  | "neq" => some different
  | "lt" => some less
  | "lte" => some atMost
  | "gt" => some greater
  | "gte" => some atLeast
  | _ => none

/-- Does the relation hold between two values that compare like this? -/
def holds : Relation → Option Ordering → Bool
  | equal, o => o == some .eq
  | different, o => o != some .eq
  | less, o => o == some .lt
  | atMost, o => o == some .lt || o == some .eq
  | greater, o => o == some .gt
  | atLeast, o => o == some .gt || o == some .eq

/-- Does the relation of a name hold?  One of an unknown name never does. -/
def namedHolds (name : String) (o : Option Ordering) : Bool :=
  match ofName? name with
  | some r => r.holds o
  | none => false

end Relation

end FeatureFlags
