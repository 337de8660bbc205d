/-
**Refreshing an evaluator.**

A refresh fetches once.  A document that can be served replaces the snapshot and clears the error;
nothing new changes nothing; and after a fault the fetcher is reset, so that the next refresh reads
its source in full, and the fault becomes the error of the evaluator if the strategy says so.

Main definitions:

* `Fetched.snapshot` — what was fetched, made ready for a namespace;
* `refresh` — **one refresh**;
* `refreshes` — several.
-/
import FeatureFlags.Engine.Source
import FeatureFlags.Evaluation.Evaluator

set_option autoImplicit false

namespace FeatureFlags

/-- The snapshot of what was fetched for a namespace, if there is something new. -/
def Fetched.snapshot (ns : String) : Fetched → Except EngineFault (Option Snapshot)
  | .error f => .error f
  | .ok none => .ok none
  | .ok (some d) =>
    match Snapshot.build ns d with
    | .error f => .error (.evaluation f.failure)
    | .ok s => .ok (some s)

/-- One refresh of an evaluator, and what the fetcher remembers afterwards. -/
def refresh {σ : Type} (f : Fetcher σ) (strategy : ErrorStrategy) (state : σ × Evaluator) :
    σ × Evaluator :=
  let (memory, e) := state
  let (outcome, memory) := f.fetch memory
  match Fetched.snapshot e.space outcome with
  | .ok none => (memory, e)
  | .ok (some s) => (memory, e.replace s)
  | .error fault =>
    (f.reset memory,
      match strategy with
      | .fail => e.fail fault.failure
      | .fallback => e)

/-- So many refreshes, one after the other. -/
def refreshes {σ : Type} (f : Fetcher σ) (strategy : ErrorStrategy) :
    Nat → σ × Evaluator → σ × Evaluator
  | 0, state => state
  | n + 1, state => refreshes f strategy n (refresh f strategy state)

end FeatureFlags
