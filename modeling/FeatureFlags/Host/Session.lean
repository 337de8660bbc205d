/-
**The engines of a host.**

A host knows its engines by handles, of which zero stands for no engine.  The message of a construction
that failed is kept for the thread that asked for it, until it is taken or until that thread asks for
another engine.

Main definitions:

* `Session` — the live engines, and the messages that wait;
* `Session.create`, `Session.open?`, `Session.evaluate`, `Session.query`, `Session.destroy`,
  `Session.takeError` — **the functions that a host calls**.
-/
import FeatureFlags.Host.Guard

set_option autoImplicit false

namespace FeatureFlags.Host

/-- The name of an engine; zero is that of none. -/
abbrev Handle := Nat

/-- A thread of a host. -/
abbrev Thread := Nat

/-- An engine as it is guarded: it never breaks down, and answers by a clock. -/
def engineService (clock : Clock) : Service Engine where
  evaluate e kind request := .returned (e.evaluate kind request clock)
  query e kind := .returned (e.query kind)
  release _ := .returned ()

/-- The live engines of a host, the next handle, and the messages that wait for threads. -/
structure Session where
  engines : List (Handle × Engine)
  next : Handle
  errors : List (Thread × String)
  deriving DecidableEq, Repr

namespace Session

/-- A host without engines. -/
def start : Session := ⟨[], 1, []⟩

/-- The engine of a handle. -/
def engine? (s : Session) (h : Handle) : Option Engine := s.engines.lookup h

/-- The messages without that of a thread. -/
def withoutError (s : Session) (t : Thread) : List (Thread × String) :=
  s.errors.filter fun e => e.1 != t

/-- The engine for the namespace and the options that a host passes. -/
def construct (read : Reader) (ns options : Option (List UInt8)) : Except Fault Engine := do
  let ns ← match ns with
    | none => pure none
    | some bytes => some <$> Text.take "namespace" (some bytes)
  let options ← Text.take "options" options
  (Engine.parse read ns (Utf8.encode options)).mapError fun f => .construction f.message

/-- Takes in what came of building an engine; the handle is zero if that failed. -/
def create (t : Thread) (construction : Attempt (Except Fault Engine)) (s : Session) :
    Handle × Session :=
  match Guard.create construction with
  | .ok e => (s.next, ⟨(s.next, e) :: s.engines, s.next + 1, s.withoutError t⟩)
  | .error f => (0, { s with errors := (t, f.message) :: s.withoutError t })

/-- Builds an engine; the handle is zero if that fails. -/
def open? (read : Reader) (t : Thread) (ns options : Option (List UInt8)) (s : Session) :
    Handle × Session :=
  s.create t (.returned (construct read ns options))

/-- Answers a request. -/
def evaluate (s : Session) (h : Handle) (kind : Evaluation) (request : Option (List UInt8))
    (clock : Clock := .still) : List UInt8 :=
  Guard.evaluate (engineService clock) (s.engine? h) kind request

/-- Answers an operation without a request; such an answer shows no time. -/
def query (s : Session) (h : Handle) (kind : Query) : List UInt8 :=
  Guard.query (engineService .still) (s.engine? h) kind

/-- Releases an engine. -/
def destroy (s : Session) (h : Handle) : Session :=
  { s with engines := s.engines.filter fun e => e.1 != h }

/-- Takes the message that waits for a thread. -/
def takeError (t : Thread) (s : Session) : Option (List UInt8) × Session :=
  ((s.errors.lookup t).map Text.give, { s with errors := s.withoutError t })

end Session

end FeatureFlags.Host
