/-
**When an entity satisfies a constraint.**

A constraint tests the value of a property, or the identifier of the entity, by its operator against the
value it was given.  Whether a value is there at all can always be told.  Apart from that, an empty
value satisfies nothing; and a value that has to be read as a number, a truth value or a point in time
is a fault if it cannot be, even under an operator that is not known.

Lists of texts are read without escapes: a list in which an item has one holds nothing.

Main definitions:

* `ValueFault` — a value that cannot be read;
* `Constraint.textHolds`, `.numberHolds`, `.flagHolds`, `.timeHolds` — the tests of the four kinds of
  values;
* `Constraint.holds` — **whether an entity satisfies a constraint**.
-/
import FeatureFlags.Constraint.Relation
import FeatureFlags.Document.Basic
import FeatureFlags.Entity
import FeatureFlags.Number.Literal
import FeatureFlags.Text.Blank
import FeatureFlags.Timestamp

set_option autoImplicit false

namespace FeatureFlags

/-- A value that cannot be read, and why. -/
inductive ValueFault where
  | number (text : String) (why : Literal.Fault)
  | numbers (text : String) (why : Json.Problem)
  | flag (text : String)
  | time (text : String) (why : Timestamp.Fault)
  deriving DecidableEq, Repr

def ValueFault.message : ValueFault → String
  | .number text why => "error parsing number " ++ text ++ ": " ++ why.message
  | .numbers text why => "error parsing numbers " ++ text ++ ": " ++ why.message
  | .flag text =>
    "error parsing boolean " ++ text ++ ": provided string was not `true` or `false`"
  | .time text why => "error parsing time " ++ text ++ ": " ++ why.message

namespace Constraint

/-! ### Texts -/

/-- Is a text in a list that is written as JSON? -/
def textInList (list v : String) : Bool :=
  match Json.decode (Json.Decoder.list .plainText) (Utf8.encode list) with
  | .ok vs => vs.contains v
  | .error _ => false

/-- The test of a text. -/
def textHolds (operator value v : String) : Bool :=
  if operator = "empty" then v.isEmpty
  else if operator = "notempty" then !v.isEmpty
  else if v.isEmpty then false
  else if operator = "eq" then v == value
  else if operator = "neq" then v != value
  else if operator = "prefix" then value.toList.isPrefixOf v.toList
  else if operator = "suffix" then value.toList.isSuffixOf v.toList
  else if operator = "isoneof" then textInList value v
  else if operator = "isnotoneof" then !textInList value v
  else false

/-! ### Values to be read -/

/-- Whether a value is there, for the operators that ask for no more. -/
def presence? (operator v : String) : Option Bool :=
  if operator = "notpresent" then some v.isEmpty
  else if operator = "present" then some (!v.isEmpty)
  else none

/-- The test of a value that has to be read: whether it is there, and if it is, the given test. -/
def readHolds (operator v : String) (test : Except ValueFault Bool) : Except ValueFault Bool :=
  match presence? operator v with
  | some b => .ok b
  | none => if v.isEmpty then .ok false else test

/-- The number that a text denotes; white space around it does not count. -/
def number (v : String) : Except ValueFault Double :=
  match Floating.parse (Text.trim v.toList) with
  | .ok x => .ok x
  | .error why => .error (.number v why)

/-- Is a number in a list that is written as JSON? -/
def numberInList (list : String) (x : Double) : Except ValueFault Bool :=
  match Json.decode (Json.Decoder.list .double) (Utf8.encode list) with
  | .ok xs => .ok (xs.any fun y => y.eqv x)
  | .error why => .error (.numbers list why)

/-- The test of a number. -/
def numberHolds (operator value v : String) : Except ValueFault Bool :=
  readHolds operator v do
    let x ← number v
    if operator = "isoneof" then numberInList value x
    else if operator = "isnotoneof" then return !(← numberInList value x)
    else
      let y ← number value
      return Relation.namedHolds operator (x.compare? y)

/-- The truth value that a text names. -/
def flag (v : String) : Except ValueFault Bool :=
  if v = "true" then .ok true else if v = "false" then .ok false else .error (.flag v)

/-- The test of a truth value. -/
def flagHolds (operator v : String) : Except ValueFault Bool :=
  readHolds operator v do
    let b ← flag v
    if operator = "true" then return b
    else if operator = "false" then return !b
    else return false

/-- The point in time that a text denotes, in seconds. -/
def time (v : String) : Except ValueFault Int :=
  match Timestamp.parse (Utf8.encode v) with
  | .ok t => .ok t
  | .error why => .error (.time v why)

/-- The test of a point in time. -/
def timeHolds (operator value v : String) : Except ValueFault Bool :=
  readHolds operator v do
    let t ← time v
    let u ← time value
    return Relation.namedHolds operator (some (compare t u))

/-! ### Constraints -/

/-- The value that a constraint tests. -/
def subject (c : Constraint) (e : Entity) : String :=
  match c.kind with
  | .entity => e.id
  | _ => e.context.value c.property

/-- Does the entity satisfy the constraint?  Nobody satisfies one of unknown kind. -/
def holds (c : Constraint) (e : Entity) : Except ValueFault Bool :=
  match c.kind with
  | .string => .ok (textHolds c.operator c.value (c.subject e))
  | .number => numberHolds c.operator c.value (c.subject e)
  | .boolean => flagHolds c.operator (c.subject e)
  | .datetime => timeHolds c.operator c.value (c.subject e)
  | .entity => .ok (textHolds c.operator c.value (c.subject e))
  | .unknown => .ok false

end Constraint

end FeatureFlags
