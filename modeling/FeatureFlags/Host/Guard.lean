/-
**Engines behind a guard.**

A host never sees an engine break down: whatever happens inside of an operation, the host gets an
answer, and a broken operation is answered by a failure that names it.  An engine is only looked at when
the host has one, and only then at the request.

The guard asks of an engine no more than to answer texts, so it serves engines of any kind.

Main definitions:

* `Attempt` — the outcome of something that may break down;
* `Service` — what an engine of some kind does when it is asked;
* `Guard.evaluateBy`, `Guard.queryBy` — what a host gets, however an engine is asked;
* `Guard.evaluate`, `Guard.query` — **the answers that a host gets**;
* `Guard.throughHandle`, `Guard.destroy` — a call with an address, and the release of an engine;
* `Tenancy` — one engine in the hands of a host, from its construction to its release.
-/
import FeatureFlags.Engine.Basic
import FeatureFlags.Host.Memory
import FeatureFlags.Host.Text

set_option autoImplicit false

namespace FeatureFlags

/-- The name of an operation towards a host. -/
def Evaluation.exported : Evaluation → String
  | .boolean => "evaluate_boolean"
  | .variant => "evaluate_variant"
  | .batch => "evaluate_batch"

/-- The name of an operation towards a host. -/
def Query.exported : Query → String
  | .list => "list_flags"
  | .snapshot => "get_snapshot"

namespace Host

/-- The outcome of something that may break down. -/
inductive Attempt (α : Type) where
  | returned (value : α)
  | broken
  deriving DecidableEq, Repr

namespace Attempt

def map {α β : Type} (f : α → β) : Attempt α → Attempt β
  | .returned a => .returned (f a)
  | .broken => .broken

end Attempt

/-- What an engine of some kind does when it is asked, and when it is released. -/
structure Service (E : Type) where
  evaluate : E → Evaluation → String → Attempt String
  query : E → Query → Attempt String
  release : E → Attempt Unit

namespace Guard

variable {E : Type}

/-- The answer to a host for the outcome of an operation. -/
def respond (operation : String) : Attempt (Except Fault String) → List UInt8
  | .returned (.ok s) => Text.give s
  | .returned (.error f) => Text.give (Envelope.failure f.message).text
  | .broken => Text.give (Envelope.failure (Fault.panicked operation).message).text

section

variable {m : Type → Type} [Monad m]

/-- The answer to a host for a request, under the name of an operation, if the engine is asked in some way
of its own. -/
def evaluateBy (operation : String) (ask : E → String → m (Attempt String)) (engine : Option E)
    (request : Option (List UInt8)) : m (List UInt8) :=
  respond operation <$>
    match engine with
    | none => pure (.returned (.error .nullHandle))
    | some e =>
      match Text.take "request" request with
      | .error f => pure (.returned (.error f))
      | .ok r => Attempt.map .ok <$> ask e r

/-- The answer to a host for an operation without a request. -/
def queryBy (operation : String) (ask : E → m (Attempt String)) (engine : Option E) : m (List UInt8) :=
  respond operation <$>
    match engine with
    | none => pure (.returned (.error .nullHandle))
    | some e => Attempt.map .ok <$> ask e

variable [LawfulMonad m] (operation : String) (ask : E → String → m (Attempt String)) (e : E)
  {request : Option (List UInt8)}

theorem evaluateBy_none (request : Option (List UInt8)) : evaluateBy operation ask none request =
    pure (Text.give (Envelope.failure Fault.nullHandle.message).text) := by
  simp only [evaluateBy, map_pure, respond]

theorem evaluateBy_of_error {f : Fault} (h : Text.take "request" request = .error f) :
    evaluateBy operation ask (some e) request =
      pure (Text.give (Envelope.failure f.message).text) := by
  simp only [evaluateBy, h, map_pure, respond]

theorem evaluateBy_of_ok {r : String} (h : Text.take "request" request = .ok r) :
    evaluateBy operation ask (some e) request = (fun a => respond operation (a.map .ok)) <$> ask e r := by
  simp only [evaluateBy, h, Functor.map_map]

theorem queryBy_none (ask : E → m (Attempt String)) : queryBy operation ask none =
    pure (Text.give (Envelope.failure Fault.nullHandle.message).text) := by
  simp only [queryBy, map_pure, respond]

theorem queryBy_some (ask : E → m (Attempt String)) :
    queryBy operation ask (some e) = (fun a => respond operation (a.map .ok)) <$> ask e := by
  simp only [queryBy, Functor.map_map]

end

/-- The answer to a host for a request. -/
def evaluate (s : Service E) (engine : Option E) (kind : Evaluation)
    (request : Option (List UInt8)) : List UInt8 :=
  Id.run (evaluateBy kind.exported (fun e r => pure (s.evaluate e kind r)) engine request)

/-- The answer to a host for an operation without a request. -/
def query (s : Service E) (engine : Option E) (kind : Query) : List UInt8 :=
  Id.run (queryBy kind.exported (fun e => pure (s.query e kind)) engine)

/-- The engine that a construction gives, or why it gives none. -/
def create : Attempt (Except Fault E) → Except Fault E
  | .returned r => r
  | .broken => .error (.panicked "initialization")

/-- The engine behind an address that a host passes. -/
def engineAt (m : Memory E) (a : Address) : Option E :=
  match EngineHandle.ofRaw? a with
  | none => none
  | some h => h.engine? m

/-- A call with an address: a handle is made of it, the engine is looked at through the handle, and then the
handle is let go of. -/
def throughHandle {α : Type} (a : Address) (call : Option E → α) (m : Memory E) : α × Memory E :=
  match EngineHandle.ofRaw? a with
  | none => (call none, m)
  | some h => (call (h.engine? m), h.discard m)

/-- Releases the engine behind an address, if it is one.  A release that breaks down is one all the
same. -/
def destroy (s : Service E) (a : Address) (m : Memory E) : Memory E :=
  match EngineHandle.ofRaw? a with
  | none => m
  | some h =>
    match (h.engine? m).map s.release with
    | some (.returned ()) | some .broken | none => h.destroy m

end Guard

/-- One engine in the hands of a host: the memory, the address that the host holds, and the message of a
construction that failed. -/
structure Tenancy (E : Type) where
  memory : Memory E
  handle : Address
  lastError : Option String
  deriving DecidableEq, Repr

namespace Tenancy

variable {E : Type}

/-- Builds an engine for a host. -/
def build (construction : Attempt (Except Fault E)) : Tenancy E :=
  match Guard.create construction with
  | .ok e =>
    let (h, memory) := EngineHandle.new e .empty
    ⟨memory, h.intoRaw, none⟩
  | .error f => ⟨.empty, 0, some f.message⟩

/-- The engine that the host holds. -/
def engine (t : Tenancy E) : Option E := Guard.engineAt t.memory t.handle

/-- How often an engine was released. -/
def releases (t : Tenancy E) : Nat := t.memory.released.length

/-- Releases the engine that the host holds.  The host forgets its address. -/
def destroy (s : Service E) (t : Tenancy E) : Tenancy E :=
  { t with memory := Guard.destroy s t.handle t.memory, handle := 0 }

end Tenancy

end Host

end FeatureFlags
