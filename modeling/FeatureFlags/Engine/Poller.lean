/-
**Refreshing in the background.**

A poller has a thread that shares an evaluator with the owner of the poller.  The thread waits for a
message.  Whenever the interval passes without one it refreshes the evaluator and waits again; when a
message comes, or when nobody is left who could send one, it ends and lets go of the evaluator.  No
message is ever sent: dropping the poller closes the channel and then waits for the thread to end.

How long a wait lasts does not matter here.  A turn of the thread is one wait and what follows it.

Main definitions:

* `Wake` — how a wait ends;
* `Poller`, `Poller.spawn` — a poller, and starting one;
* `Poller.turn`, `Poller.turns`, `Poller.drop` — the turns of the thread, and **the end of a poller**;
* `Poller.references` — by how many the evaluator is held.
-/
import FeatureFlags.Engine.Refresh

set_option autoImplicit false

namespace FeatureFlags

/-- How a wait for a message ends. -/
inductive Wake where
  /-- The interval has passed. -/
  | timeout
  | message
  /-- Nobody is left who could send a message. -/
  | disconnected
  deriving DecidableEq, Repr

/-- An evaluator that is refreshed in the background. -/
structure Poller (σ : Type) where
  fetcher : Fetcher σ
  strategy : ErrorStrategy
  /-- The owner can still send a message. -/
  connected : Bool
  /-- What the fetcher in the thread remembers; none once the thread has ended. -/
  thread : Option σ
  evaluator : Evaluator

namespace Poller

variable {σ : Type}

/-- A poller for an evaluator, if the system lets its thread start. -/
def spawn (launch : Except String Unit) (f : Fetcher σ) (strategy : ErrorStrategy) (memory : σ)
    (e : Evaluator) : Except EngineFault (Poller σ) :=
  match launch with
  | .error detail => .error (.spawn detail)
  | .ok () => .ok ⟨f, strategy, true, some memory, e⟩

/-- How the next wait of the thread ends. -/
def wake (p : Poller σ) : Wake := if p.connected then .timeout else .disconnected

/-- One turn of the thread: a refresh when the interval has passed, else its end. -/
def turn (p : Poller σ) : Poller σ :=
  match p.thread with
  | none => p
  | some memory =>
    match p.wake with
    | .timeout =>
      let (memory, e) := refresh p.fetcher p.strategy (memory, p.evaluator)
      { p with thread := some memory, evaluator := e }
    | .message => { p with thread := none }
    | .disconnected => { p with thread := none }

/-- So many turns of the thread. -/
def turns : Nat → Poller σ → Poller σ
  | 0, p => p
  | n + 1, p => turns n p.turn

/-- Closes the channel and waits for the end of the thread. -/
def drop (p : Poller σ) : Poller σ := turn { p with connected := false }

/-- By how many the evaluator is held: by the owner, and by the thread as long as it runs. -/
def references (p : Poller σ) : Nat := if p.thread.isSome then 2 else 1

end Poller

end FeatureFlags
