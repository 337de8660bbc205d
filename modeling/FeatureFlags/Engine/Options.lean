/-
**The options of an engine.**

The options say where the document comes from, how often it is read again, and what happens when that
fails.  They are a record of which every member may be left out; a document in a file needs a path.

Main definitions:

* `SourceKind`, `ErrorStrategy` — the choices made by name;
* `Options`, `Options.standard` — the options, and those that stand for none;
* `Options.refreshInterval?` — how often the document is read again;
* `Options.parse` — **options from a text**.
-/
import FeatureFlags.Document.Decode
import FeatureFlags.Engine.Fault

set_option autoImplicit false

namespace FeatureFlags

open Json Json.Record

/-- Where the document comes from. -/
inductive SourceKind where
  /-- It is among the options. -/
  | inline
  /-- It is in a file. -/
  | file
  deriving DecidableEq, Repr

namespace SourceKind

def name : SourceKind → String
  | .inline => "local"
  | .file => "file"

def vocabulary : Vocabulary SourceKind where
  names := [inline, file].map fun k => (k.name, k)
  other := none

end SourceKind

/-- What happens when a refresh fails. -/
inductive ErrorStrategy where
  /-- The failure is the answer to everything until a refresh succeeds. -/
  | fail
  /-- The last snapshot is served on. -/
  | fallback
  deriving DecidableEq, Repr

namespace ErrorStrategy

def name : ErrorStrategy → String
  | .fail => "fail"
  | .fallback => "fallback"

def vocabulary : Vocabulary ErrorStrategy where
  names := [fail, fallback].map fun s => (s.name, s)
  other := none

end ErrorStrategy

/-- The options of an engine. -/
structure Options where
  source : SourceKind
  document : Option Document
  path : Option String
  /-- How many seconds lie between two refreshes; none for zero. -/
  interval : Nat
  strategy : ErrorStrategy
  logLevel : Option String
  deriving DecidableEq, Repr

namespace Options

/-- The options that stand for none. -/
def standard : Options := ⟨.inline, none, none, 120, .fail, none⟩

def decoder : Decoder Options :=
  Record.decoder "EngineOpts" <|
    ((one (.withDefault "source" SourceKind.vocabulary.decoder standard.source)).and <|
      (one (.optional "snapshot" Document.decoder)).and <|
      (one (.optional "path" (.textAs "path string"))).and <|
      (one (.withDefault "update_interval" .natural standard.interval)).and <|
      (one (.withDefault "error_strategy" ErrorStrategy.vocabulary.decoder standard.strategy)).and <|
      one (.optional "log_level" .text)).map
    fun (source, document, path, interval, strategy, logLevel) =>
      ⟨source, document, path, interval, strategy, logLevel⟩

/-- The fault of options that ask for a file and name none. -/
def noPath : EngineFault := .options "file source requires a path"

/-- Options that can be followed. -/
def check (o : Options) : Except EngineFault Unit :=
  if o.source = .file ∧ o.path = none then .error noPath else .ok ()

/-- The seconds between two refreshes, if the document is ever read again. -/
def refreshInterval? (o : Options) : Option Nat :=
  if o.source = .file ∧ 0 < o.interval then some o.interval else none

/-- The options that a text holds. -/
def parse (text : List UInt8) : Except EngineFault Options :=
  match Json.decode decoder text with
  | .error p => .error (.options p.message)
  | .ok o =>
    match o.check with
    | .error f => .error f
    | .ok () => .ok o

end Options

end FeatureFlags
