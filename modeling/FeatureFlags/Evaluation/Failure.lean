/-
**Why there is no answer.**

A failure is of one of five kinds and says in words what is wrong.  It comes from a cause, such as a
fault in a JSON text or a value that cannot be read, and is shown with its kind in front.

Main definitions:

* `FailureKind` — the five kinds;
* `Failure`, `Failure.message` — a failure and its text;
* `Json.Problem.failure`, `ValueFault.failure` — the failures of these causes.
-/
import FeatureFlags.Constraint.Holds

set_option autoImplicit false

namespace FeatureFlags

/-- What a failure is about. -/
inductive FailureKind where
  | json
  | request
  | document
  | source
  | unknown
  deriving DecidableEq, Repr

/-- What a text about a failure begins with. -/
def FailureKind.label : FailureKind → String
  | .json => "error parsing json"
  | .request => "invalid request"
  | .document => "invalid document"
  | .source => "source error"
  | .unknown => "unknown error"

/-- A failure: its kind, and what is wrong in words. -/
structure Failure where
  kind : FailureKind
  detail : String
  deriving DecidableEq, Repr

/-- The text of a failure. -/
def Failure.message (f : Failure) : String := f.kind.label ++ ": " ++ f.detail

/-- A text that is no JSON, or not the JSON that was wanted. -/
def Json.Problem.failure (p : Json.Problem) : Failure := ⟨.json, p.message⟩

/-- A value in a request, or in a constraint met by the request, that cannot be read. -/
def ValueFault.failure (f : ValueFault) : Failure := ⟨.request, f.message⟩

end FeatureFlags
