/-
**What a refresh does to an evaluator.**

A refresh asks a fetcher for the next document and lets the evaluator take in the outcome.  What the
evaluator becomes depends on the outcome and the strategy alone, and what the fetcher remembers is what
it made of the fetch, forgotten after a fault.  Everything about refreshes is derived from these two
facts.

Main definitions:

* `EngineFault.Leaves` — the failure that is held after a fault;
* `ErrorStrategy.kept` — the error that a strategy lets an evaluator keep after a fault;
* `Evaluator.takeIn` — the evaluator after the outcome of one fetch;
* `Evaluator.takeInAll` — the evaluator after several outcomes that each were a snapshot or a fault;
* `lastServed` — the last snapshot among such outcomes.

Main results:

* `refresh_eq` — **a refresh is a fetch whose outcome is taken in**;
* `takeInAll_snapshot`, `takeInAll_append_ok`, `takeInAll_append_error` — what is served after several
  outcomes, and which error is held.
-/
import FeatureFlags.Engine.Refresh

set_option autoImplicit false

namespace FeatureFlags

/-! ### What a fault leaves behind -/

/-- What is held as the error after a fault: a failure of the evaluation as it is, and for every other
fault a failure of the source in its words. -/
structure EngineFault.Leaves (fault : EngineFault) (failure : Failure) : Prop where
  evaluation : ∀ own, fault = .evaluation own → failure = own
  other : (∀ own, fault ≠ .evaluation own) → failure = ⟨.source, fault.message⟩

theorem EngineFault.leaves_failure (fault : EngineFault) : fault.Leaves fault.failure := by
  cases fault with
  | evaluation own => exact ⟨fun _ h => EngineFault.evaluation.inj h, fun h => absurd rfl (h own)⟩
  | options _ | unreadable _ _ | spawn _ => exact ⟨fun _ h => (nomatch h), fun _ => rfl⟩

/-! ### One outcome -/

/-- The error that an evaluator without one keeps after a fault. -/
def ErrorStrategy.kept (strategy : ErrorStrategy) (fault : EngineFault) : Option Failure :=
  match strategy with
  | .fail => some fault.failure
  | .fallback => none

/-- The evaluator after the outcome of a fetch: nothing new, a snapshot, or a fault. -/
def Evaluator.takeIn (strategy : ErrorStrategy) (e : Evaluator) :
    Except EngineFault (Option Snapshot) → Evaluator
  | .ok none => e
  | .ok (some s) => e.replace s
  | .error fault =>
    match strategy with
    | .fail => e.fail fault.failure
    | .fallback => e

@[simp] theorem Evaluator.takeIn_some (strategy : ErrorStrategy) (e : Evaluator) (s : Snapshot) :
    e.takeIn strategy (.ok (some s)) = e.replace s := rfl

@[simp] theorem Evaluator.takeIn_error_fail (e : Evaluator) (fault : EngineFault) :
    e.takeIn .fail (.error fault) = e.fail fault.failure := rfl

@[simp] theorem Evaluator.takeIn_error_fallback (e : Evaluator) (fault : EngineFault) :
    e.takeIn .fallback (.error fault) = e := rfl

/-- Whatever a fetch brings, the namespace stays. -/
@[simp] theorem Evaluator.takeIn_space (strategy : ErrorStrategy) (e : Evaluator)
    (outcome : Except EngineFault (Option Snapshot)) :
    (e.takeIn strategy outcome).space = e.space := by
  rcases outcome with fault | _ | s
  · cases strategy <;> rfl
  · rfl
  · rfl

/-- **A refresh is a fetch whose outcome is taken in.**  Only after a fault does the fetcher forget. -/
theorem refresh_eq {σ : Type} (f : Fetcher σ) (strategy : ErrorStrategy) (memory : σ)
    (e : Evaluator) :
    refresh f strategy (memory, e) =
      (match Fetched.snapshot e.space (f.fetch memory).1 with
        | .ok _ => (f.fetch memory).2
        | .error _ => f.reset (f.fetch memory).2,
       e.takeIn strategy (Fetched.snapshot e.space (f.fetch memory).1)) := by
  simp only [refresh]
  rcases Fetched.snapshot e.space (f.fetch memory).1 with fault | _ | s
  · cases strategy <;> rfl
  · rfl
  · rfl

/-! ### Several outcomes -/

/-- The evaluator after several outcomes that each were a snapshot or a fault. -/
def Evaluator.takeInAll (strategy : ErrorStrategy) (e : Evaluator)
    (outcomes : List (Except EngineFault Snapshot)) : Evaluator :=
  outcomes.foldl (fun e outcome => e.takeIn strategy (outcome.map some)) e

/-- The last snapshot among several outcomes; the given one if there is none. -/
def lastServed (start : Snapshot) : List (Except EngineFault Snapshot) → Snapshot
  | [] => start
  | .ok s :: outcomes => lastServed s outcomes
  | .error _ :: outcomes => lastServed start outcomes

@[simp] theorem Evaluator.takeInAll_append (strategy : ErrorStrategy) (e : Evaluator)
    (before : List (Except EngineFault Snapshot)) (outcome : Except EngineFault Snapshot) :
    e.takeInAll strategy (before ++ [outcome]) =
      (e.takeInAll strategy before).takeIn strategy (outcome.map some) := by
  simp [takeInAll]

@[simp] theorem Evaluator.takeInAll_space (strategy : ErrorStrategy) (e : Evaluator)
    (outcomes : List (Except EngineFault Snapshot)) :
    (e.takeInAll strategy outcomes).space = e.space := by
  induction outcomes generalizing e with
  | nil => rfl
  | cons outcome outcomes ih =>
      rw [takeInAll, List.foldl_cons, ← takeInAll, ih, takeIn_space]

/-- What is served in the end is the last snapshot of all. -/
theorem Evaluator.takeInAll_snapshot (strategy : ErrorStrategy) (e : Evaluator)
    (outcomes : List (Except EngineFault Snapshot)) :
    (e.takeInAll strategy outcomes).snapshot = lastServed e.snapshot outcomes := by
  induction outcomes generalizing e with
  | nil => rfl
  | cons outcome outcomes ih =>
      rw [takeInAll, List.foldl_cons, ← takeInAll, ih]
      cases outcome with
      | ok s => rfl
      | error fault => cases strategy <;> rfl

/-- Under the strategy that serves on, an evaluator never comes to hold an error. -/
theorem Evaluator.takeInAll_error_fallback (e : Evaluator) (he : e.error = none)
    (outcomes : List (Except EngineFault Snapshot)) :
    (e.takeInAll .fallback outcomes).error = none := by
  induction outcomes generalizing e with
  | nil => exact he
  | cons outcome outcomes ih =>
      rw [takeInAll, List.foldl_cons, ← takeInAll]
      apply ih
      cases outcome with
      | ok s => rfl
      | error fault => exact he

/-- After a snapshot it is served, and no error is held. -/
theorem Evaluator.takeInAll_append_ok (strategy : ErrorStrategy) (e : Evaluator)
    (before : List (Except EngineFault Snapshot)) (s : Snapshot) :
    e.takeInAll strategy (before ++ [.ok s]) = Evaluator.new e.space s := by
  rw [takeInAll_append, Except.map, takeIn_some, replace, new, takeInAll_space]

/-- After a fault the last snapshot before it is served, and the error held is the one that the strategy
lets the evaluator keep. -/
theorem Evaluator.takeInAll_append_error (strategy : ErrorStrategy) (e : Evaluator)
    (he : e.error = none) (before : List (Except EngineFault Snapshot)) (fault : EngineFault) :
    e.takeInAll strategy (before ++ [.error fault]) =
      ⟨e.space, lastServed e.snapshot before, strategy.kept fault⟩ := by
  rw [takeInAll_append]
  have hspace := e.takeInAll_space strategy before
  have hsnapshot := e.takeInAll_snapshot strategy before
  cases strategy with
  | fail => rw [Except.map, takeIn_error_fail, fail, hspace, hsnapshot, ErrorStrategy.kept]
  | fallback =>
      have herror := e.takeInAll_error_fallback he before
      rw [Except.map, takeIn_error_fallback, ErrorStrategy.kept, ← hspace, ← hsnapshot, ← herror]

end FeatureFlags
