/-
**Engines.**

An engine serves one namespace.  It is built from options: its first document is fetched at once, and
has to be one that can be served.  Requests reach it as texts and are answered by envelopes.

What a clock shows is a parameter of the answers; where none is given the clock stands still.

Main definitions:

* `Engine`, `Engine.new`, `Engine.parse` — an engine, and building one;
* `Evaluation`, `Query` — the operations with a request and those without;
* `Engine.evaluate`, `Engine.query` — **the answers of an engine**;
* `Engine.refresh` — one refresh from its source.
-/
import FeatureFlags.Engine.Refresh
import FeatureFlags.Envelope
import FeatureFlags.Evaluation.RequestDecode

set_option autoImplicit false

namespace FeatureFlags

open Json (Value)

/-- The operations with a request. -/
inductive Evaluation where
  | boolean
  | variant
  | batch
  deriving DecidableEq, Repr

/-- The operations without a request. -/
inductive Query where
  | list
  | snapshot
  deriving DecidableEq, Repr

/-! ### Answers of an evaluator -/

namespace Evaluator

/-- The envelope of a result. -/
def envelope {α : Type} (result : α → Value) (outcome : Except Failure α) : Envelope :=
  Envelope.ofExcept result Failure.message outcome

/-- The envelope for the variant of a flag. -/
def variantEnvelope (e : Evaluator) (request : Request) (clock : Clock := .still) : Envelope :=
  envelope (·.toJson (clock 0)) (e.variant request)

/-- The envelope for the value of a flag. -/
def booleanEnvelope (e : Evaluator) (request : Request) (clock : Clock := .still) : Envelope :=
  envelope (·.toJson (clock 0)) (e.boolean request)

/-- The envelope of a batch. -/
def batchEnvelope (e : Evaluator) (requests : List Request) (clock : Clock := .still) : Envelope :=
  envelope (batchToJson clock) (e.batch requests)

/-- The envelope for the list of flags. -/
def listEnvelope (e : Evaluator) : Envelope := envelope (jsonList FlagInfo.toJson) e.list

/-- The envelope of the document. -/
def documentEnvelope (e : Evaluator) : Envelope := envelope Document.toJson e.document

/-- The envelope for a request that comes as a text. -/
def evaluate (e : Evaluator) (kind : Evaluation) (request : List UInt8) (clock : Clock) :
    Envelope :=
  match kind with
  | .boolean =>
    match Request.decode request with
    | .ok r => e.booleanEnvelope r clock
    | .error p => .failure p.failure.message
  | .variant =>
    match Request.decode request with
    | .ok r => e.variantEnvelope r clock
    | .error p => .failure p.failure.message
  | .batch =>
    match Request.decodeBatch request with
    | .ok rs => e.batchEnvelope rs clock
    | .error p => .failure p.failure.message

/-- The envelope for an operation without a request. -/
def query (e : Evaluator) : Query → Envelope
  | .list => e.listEnvelope
  | .snapshot => e.documentEnvelope

end Evaluator

/-! ### Engines -/

/-- An evaluator with the source of its documents. -/
structure Engine where
  evaluator : Evaluator
  source : Source
  strategy : ErrorStrategy
  /-- The seconds between two refreshes, if there are any. -/
  interval : Option Nat
  deriving DecidableEq, Repr

namespace Engine

/-- The version of the engine. -/
def version : String := "0.1.0"

/-- The namespace that is served when none is named. -/
def defaultSpace : String := "default"

/-- The namespace that is served; an empty name counts as none. -/
def spaceOf (ns : Option String) : String :=
  match ns with
  | some name => if name.isEmpty then defaultSpace else name
  | none => defaultSpace

/-- The source that options ask for. -/
def sourceOf (o : Options) : Except EngineFault Source :=
  match o.source, o.path with
  | .inline, _ => .ok (.ofDocument o.document)
  | .file, some path => .ok (.ofPath path)
  | .file, none => .error Options.noPath

/-- An engine for a namespace. -/
def new (read : Reader) (ns : Option String) (o : Options) : Except EngineFault Engine := do
  let source ← sourceOf o
  let space := spaceOf ns
  let (outcome, source) := (Source.fetcher read).fetch source
  let document := (← outcome).getD (Document.empty space)
  match Snapshot.build space document with
  | .error f => throw (.evaluation f.failure)
  | .ok s => return ⟨Evaluator.new space s, source, o.strategy, o.refreshInterval?⟩

/-- An engine from the text of its options. -/
def parse (read : Reader) (ns : Option String) (options : List UInt8) :
    Except EngineFault Engine := do
  new read ns (← Options.parse options)

/-- The namespace that is served. -/
def space (e : Engine) : String := e.evaluator.space

/-- The text that answers a request. -/
def evaluate (e : Engine) (kind : Evaluation) (request : String) (clock : Clock := .still) :
    String :=
  (e.evaluator.evaluate kind (Utf8.encode request) clock).text

/-- The text that answers an operation without a request. -/
def query (e : Engine) (kind : Query) : String := (e.evaluator.query kind).text

/-- One refresh from the source. -/
def refresh (read : Reader) (e : Engine) : Engine :=
  let (source, evaluator) :=
    FeatureFlags.refresh (Source.fetcher read) e.strategy (e.source, e.evaluator)
  { e with source, evaluator }

end Engine

end FeatureFlags
