/-
**Why an evaluation answered as it did.**

Main definitions:

* `Reason` — why a flag has the answer it has;
* `ErrorReason` — why a request of a batch has no answer;
* `ResponseKind` — what an entry of a batch holds.
-/
import FeatureFlags.Json.Decoder

set_option autoImplicit false

namespace FeatureFlags

open Json (Vocabulary)

/-- Why a flag has the answer it has. -/
inductive Reason where
  | flagDisabled
  | matched
  | fallback
  | unknown
  deriving DecidableEq, Repr

namespace Reason

def name : Reason → String
  | .flagDisabled => "FLAG_DISABLED_EVALUATION_REASON"
  | .matched => "MATCH_EVALUATION_REASON"
  | .fallback => "DEFAULT_EVALUATION_REASON"
  | .unknown => "UNKNOWN_EVALUATION_REASON"

/-- A reason of another name is kept as unknown. -/
def vocabulary : Vocabulary Reason where
  names := [flagDisabled, matched, fallback, unknown].map fun r => (r.name, r)
  other := some unknown

end Reason

/-- Why a request of a batch has no answer. -/
inductive ErrorReason where
  | unknown
  | notFound
  deriving DecidableEq, Repr

namespace ErrorReason

def name : ErrorReason → String
  | .unknown => "UNKNOWN_ERROR_EVALUATION_REASON"
  | .notFound => "NOT_FOUND_ERROR_EVALUATION_REASON"

def vocabulary : Vocabulary ErrorReason where
  names := [unknown, notFound].map fun r => (r.name, r)
  other := none

end ErrorReason

/-- What an entry of a batch holds. -/
inductive ResponseKind where
  | variant
  | boolean
  | error
  deriving DecidableEq, Repr

namespace ResponseKind

def name : ResponseKind → String
  | .variant => "VARIANT_EVALUATION_RESPONSE_TYPE"
  | .boolean => "BOOLEAN_EVALUATION_RESPONSE_TYPE"
  | .error => "ERROR_EVALUATION_RESPONSE_TYPE"

def vocabulary : Vocabulary ResponseKind where
  names := [variant, boolean, error].map fun k => (k.name, k)
  other := none

end ResponseKind

end FeatureFlags
