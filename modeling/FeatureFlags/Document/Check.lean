/-
**The check of a flag.**

A document can be served if its flags have different keys, each percentage in use lies between 0 and 100,
and no rule gives away more than all: the percentages of a rule are summed in single precision, and a
sum that exceeds 100 by no more than a rounding error is let pass.  Of a rollout with a threshold the
threshold is in use, and only its percentage is looked at.

This is the check of one flag.  Keys are compared where flags are put together.  Faults are reported in
the order of the flag: the rules come before the rollouts, and the percentages of a rule before their sum.

Main definitions:

* `DocumentFault`, `DocumentFault.message` — why a document cannot be served;
* `Rule.check`, `Flag.check` — **the first fault of a flag**.
-/
import FeatureFlags.Document.Basic
import FeatureFlags.Number.Shortest

set_option autoImplicit false

namespace FeatureFlags

/-- Why a document cannot be served. -/
inductive DocumentFault where
  /-- A second flag has this key. -/
  | repeatedKey (flag : String)
  /-- A percentage that is none. -/
  | percentage (flag : String) (value : Single)
  /-- A rule that gives away more than all. -/
  | excess (flag : String) (rank : Nat) (total : Single)
  deriving DecidableEq, Repr

def DocumentFault.message : DocumentFault → String
  | .repeatedKey flag => "duplicate flag key " ++ flag
  | .percentage flag value =>
    "flag " ++ flag ++ " has percentage " ++ value.plain ++ " outside 0..=100"
  | .excess flag rank total =>
    "flag " ++ flag ++ " rule " ++ toString rank ++ " distributes " ++ total.plain ++
      "% (more than 100%)"

namespace Single

/-- Does a number lie between 0 and 100? -/
def isPercentage (x : Single) : Bool :=
  (Floating.ofNat 0 : Single).le x && x.le (Floating.ofNat 100)

/-- The largest sum of percentages that passes for 100. -/
def mostTotal : Single := Floating.ofDecimal false 10001 (-2)

/-- The sum of some numbers, added one after the other. -/
def total (xs : List Single) : Single := xs.foldl Floating.add (Floating.ofNat 0)

end Single

/-- The first number of a list that is no percentage. -/
def checkPercentages (flag : String) : List Single → Except DocumentFault Unit
  | [] => .ok ()
  | x :: xs =>
    if Single.isPercentage x then checkPercentages flag xs else .error (.percentage flag x)

/-- The percentages that a rule distributes, in order. -/
def Rule.percentages (r : Rule) : List Single := r.distributions.map (·.percentage)

/-- The first fault of a rule in its place. -/
def Rule.check (flag : String) (rank : Nat) (r : Rule) : Except DocumentFault Unit :=
  match checkPercentages flag r.percentages with
  | .error f => .error f
  | .ok () =>
    let total := Single.total r.percentages
    if Single.mostTotal.lt total then .error (.excess flag rank total) else .ok ()

/-- The percentages that rollouts use, in order. -/
def thresholdPercentages (rollouts : List Rollout) : List Single :=
  rollouts.filterMap fun r => r.threshold.map (·.percentage)

/-- The first fault of rules, of which the first has the given place. -/
def checkRules (flag : String) (rank : Nat) : List Rule → Except DocumentFault Unit
  | [] => .ok ()
  | r :: rs =>
    match r.check flag rank with
    | .error f => .error f
    | .ok () => checkRules flag (rank + 1) rs

/-- The first fault of a flag. -/
def Flag.check (f : Flag) : Except DocumentFault Unit :=
  match checkRules f.key 1 f.rules with
  | .error e => .error e
  | .ok () => checkPercentages f.key (thresholdPercentages f.rollouts)

end FeatureFlags
