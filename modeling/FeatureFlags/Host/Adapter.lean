/-
**Engines for a foreign runtime.**

A foreign runtime has texts of its own.  An adapter makes the functions of a host callable for it: it
views a text of the runtime for exactly as long as a call lasts, copies the answer into a text of the
runtime, and gives the answer back to be freed, whether the copy succeeded or not.  What it does is
recorded step by step.

Main definitions:

* `Native` — the functions that are called;
* `Runtime` — how the foreign runtime views and copies texts;
* `Adapter.Event` — the steps that are recorded;
* `Adapter.create`, `Adapter.evaluate`, `Adapter.query`, `Adapter.destroy` — **the operations**.
-/
import FeatureFlags.Host.Session

set_option autoImplicit false

namespace FeatureFlags.Host

/-- The functions of a host with a state of their own.  A text that is returned has to be given to
`free`. -/
structure Native (σ : Type) where
  create : Option (List UInt8) → Option (List UInt8) → σ → Handle × σ
  evaluate : Evaluation → Handle → Option (List UInt8) → σ → Option (List UInt8) × σ
  query : Query → Handle → σ → Option (List UInt8) × σ
  destroy : Handle → σ → σ
  lastError : σ → Option (List UInt8) × σ
  free : List UInt8 → σ → σ

/-- The functions of a session, called from one thread. -/
def Native.ofSession (read : Reader) (t : Thread) (clock : Clock := .still) : Native Session where
  create ns options s := s.open? read t ns options
  evaluate kind h request s := (some (s.evaluate h kind request clock), s)
  query kind h s := (some (s.query h kind), s)
  destroy h s := s.destroy h
  lastError s := s.takeError t
  free _ s := s

/-- How a foreign runtime views one of its texts as bytes, and copies bytes into one; both may fail. -/
structure Runtime where
  view : String → Except String (List UInt8)
  copy : List UInt8 → Except String String

namespace Adapter

/-- Why an operation has no answer. -/
inductive Fault where
  | nullArgument (what : String)
  | construction (reason : String)
  | nullResponse
  | runtime (reason : String)
  | broken
  deriving DecidableEq, Repr

def Fault.message : Fault → String
  | .nullArgument what => what ++ " must not be null"
  | .construction reason => reason
  | .nullResponse => "engine returned no response"
  | .runtime reason => "foreign runtime error: " ++ reason
  | .broken => "native binding panicked"

/-- The steps that are recorded. -/
inductive Event where
  /-- A text of the runtime is viewed. -/
  | acquire
  /-- A function of the host is called. -/
  | call
  /-- The function returned a text. -/
  | issue
  /-- A view is given back. -/
  | release
  /-- A text is copied into one of the runtime, with success or without. -/
  | copy
  /-- A returned text is freed. -/
  | free
  /-- An engine is released. -/
  | destroy
  deriving DecidableEq, Repr

/-- The state of the host, and the steps so far. -/
structure Trace (σ : Type) where
  state : σ
  events : List Event

/-- What is done on the host, step by step. -/
abbrev Action (σ α : Type) := StateM (Trace σ) α

variable {σ α : Type}

/-- Records a step. -/
def record (e : Event) : Action σ Unit := modify fun t => { t with events := t.events ++ [e] }

/-- Calls a function of the host. -/
def call (f : σ → α × σ) : Action σ α := do
  record .call
  let t ← get
  let (a, state) := f t.state
  set { t with state }
  return a

/-- Calls a function of the host that returns a text. -/
def callForText (f : σ → Option (List UInt8) × σ) : Action σ (Option (List UInt8)) := do
  let text ← call f
  if text.isSome then record .issue
  return text

/-- Does something with a view of a text of the runtime; one that is not there is passed on as such. -/
def withView (rt : Runtime) (s : Option String) (action : Option (List UInt8) → Action σ α) :
    Action σ (Except Fault α) := do
  match s with
  | none => return .ok (← action none)
  | some s =>
    match rt.view s with
    | .error reason => return .error (.runtime reason)
    | .ok bytes =>
      record .acquire
      let a ← action (some bytes)
      record .release
      return .ok a

/-- Frees a returned text. -/
def freeText (n : Native σ) (bytes : List UInt8) : Action σ Unit := do
  record .free
  modify fun t => { t with state := n.free bytes t.state }

/-- Copies a returned text into one of the runtime and frees it. -/
def copyResponse (n : Native σ) (rt : Runtime) :
    Option (List UInt8) → Action σ (Except Fault String)
  | none => return .error .nullResponse
  | some bytes => do
    record .copy
    freeText n bytes
    return (rt.copy bytes).mapError .runtime

/-- The message for a construction that failed. -/
def lastError (n : Native σ) : Action σ String := do
  match ← callForText n.lastError with
  | none => return "engine construction failed"
  | some bytes =>
    freeText n bytes
    return Utf8.decodeLossy bytes

/-- Builds an engine. -/
def create (n : Native σ) (rt : Runtime) (ns options : Option String) :
    Action σ (Except Fault Handle) := do
  if options.isNone then return .error (.nullArgument "options")
  let outcome ← withView rt ns fun ns =>
    withView rt options fun options => call (n.create ns options)
  match outcome with
  | .error f => return .error f
  | .ok (.error f) => return .error f
  | .ok (.ok 0) => return .error (.construction (← lastError n))
  | .ok (.ok h) => return .ok h

/-- Answers a request. -/
def evaluate (n : Native σ) (rt : Runtime) (h : Handle) (kind : Evaluation)
    (request : Option String) : Action σ (Except Fault String) := do
  match ← withView rt request fun request => callForText (n.evaluate kind h request) with
  | .error f => return .error f
  | .ok response => copyResponse n rt response

/-- Answers an operation without a request. -/
def query (n : Native σ) (rt : Runtime) (h : Handle) (kind : Query) :
    Action σ (Except Fault String) := do
  copyResponse n rt (← callForText (n.query kind h))

/-- Releases an engine; zero is none. -/
def destroy (n : Native σ) (h : Handle) : Action σ Unit := do
  if h ≠ 0 then
    call fun s => ((), n.destroy h s)
    record .destroy

end Adapter

end FeatureFlags.Host
