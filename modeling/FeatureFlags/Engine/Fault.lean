/-
**Why an engine cannot be built or refreshed.**

Main definitions:

* `EngineFault`, `EngineFault.message` — the faults and their texts;
* `EngineFault.failure` — **the failure that an evaluator holds** after such a fault.
-/
import FeatureFlags.Evaluation.Failure

set_option autoImplicit false

namespace FeatureFlags

/-- Why an engine cannot be built or refreshed. -/
inductive EngineFault where
  /-- The options are no options. -/
  | options (detail : String)
  /-- The file of the document cannot be read. -/
  | unreadable (path reason : String)
  /-- The document is no document, or cannot be served. -/
  | evaluation (failure : Failure)
  /-- Refreshing cannot be started. -/
  | spawn (detail : String)
  deriving DecidableEq, Repr

namespace EngineFault

def message : EngineFault → String
  | .options detail => "invalid engine options: " ++ detail
  | .unreadable path reason => "failed to read snapshot " ++ path ++ ": " ++ reason
  | .evaluation failure => failure.message
  | .spawn detail => "failed to start snapshot refresh: " ++ detail

/-- The failure that the fault comes to: what is no failure of its own is one of the source. -/
def failure (f : EngineFault) : Failure :=
  match f with
  | .evaluation failure => failure
  | .options _ => ⟨.source, f.message⟩
  | .unreadable _ _ => ⟨.source, f.message⟩
  | .spawn _ => ⟨.source, f.message⟩

end EngineFault

end FeatureFlags
