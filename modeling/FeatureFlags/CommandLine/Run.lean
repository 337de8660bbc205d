/-
**What the program answers.**

A command builds an engine over the document at its path, which is read once.  If that fails, the
program reports the causes and ends with code 1; otherwise it prints one line and ends with code 0.
What a flag answers, be it a failure, is no failure of the program.  Arguments that make no sense are
code 2.

Main definitions:

* `Outcome` — what the program prints, and its code;
* `report` — the text for an error and its causes;
* `Command.run`, `run` — **the outcome of a command, and of a list of arguments**.
-/
import FeatureFlags.CommandLine.Invocation
import FeatureFlags.Engine.Basic

set_option autoImplicit false

namespace FeatureFlags.CommandLine

/-- What the program prints, and its code. -/
structure Outcome where
  code : Nat
  stdout : String
  stderr : String
  deriving DecidableEq, Repr

/-- The outcome of a success that prints a line. -/
def Outcome.line (s : String) : Outcome := ⟨0, s ++ "\n", ""⟩

/-! ### Errors and their causes -/

/-- A text with something before its first line and something before each of its other lines. -/
def indent (first other : String) (s : String) : String :=
  first ++ String.ofList (s.toList.flatMap fun c => if c = '\n' then '\n' :: other.toList else [c])

/-- The causes of an error, counted from zero; a single one is not counted. -/
def causeLines : List String → List String
  | [] => []
  | [c] => [indent "    " "    " c]
  | cs => cs.mapIdx fun i c => indent ("    " ++ toString i ++ ": ") "       " c

/-- The text for an error and its causes. -/
def report (error : String) (causes : List String) : String :=
  let head := "Error: " ++ error
  if causes.isEmpty then head ++ "\n"
  else head ++ "\n\nCaused by:\n" ++ "\n".intercalate (causeLines causes) ++ "\n"

/-- The causes of a fault, the fault itself first. -/
def causes (f : EngineFault) : List String :=
  match f with
  | .unreadable _ reason => [f.message, reason]
  | _ => [f.message]

/-- The outcome when no engine can be built over a document. -/
def loadFailed (path : String) (f : EngineFault) : Outcome :=
  ⟨1, "", report ("Failed to load " ++ path) (causes f)⟩

/-! ### Commands -/

/-- The options of an engine over the document at a path, which is not read again. -/
def optionsFor (path : String) : Options :=
  { Options.standard with source := .file, path := some path, interval := 0 }

/-- The path of the document of a command. -/
def Command.path : Command → String
  | .validate path => path
  | .list path _ => path
  | .eval path _ _ _ _ => path

/-- The namespace that a command names. -/
def Command.space : Command → Option String
  | .validate _ => none
  | .list _ space => space
  | .eval _ _ _ space _ => space

/-- The kind of the flag with a key, if it is listed. -/
def kindOf? (e : Evaluator) (flag : String) : Option FlagKind :=
  match e.list with
  | .ok infos => (infos.find? fun i => i.key = flag).map (·.kind)
  | .error _ => none

/-- The envelope for a request, by the kind of its flag. -/
def evalEnvelope (e : Evaluator) (r : Request) (clock : Clock) : Envelope :=
  match kindOf? e r.flag with
  | some .boolean => e.booleanEnvelope r clock
  | _ => e.variantEnvelope r clock

/-- The line that a command prints. -/
def Command.answer (e : Evaluator) (clock : Clock) : Command → String
  | .validate _ =>
    let d := e.snapshot.document
    "ok: namespace " ++ d.space.key ++ ", " ++ toString d.flags.length ++ " flags"
  | .list _ _ => e.listEnvelope.text
  | .eval _ flag entity _ properties =>
    (evalEnvelope e ⟨flag, entity, Context.ofList properties⟩ clock).text

/-- The outcome of a command. -/
def Command.run (read : Reader) (c : Command) (clock : Clock) : Outcome :=
  match Engine.new read c.space (optionsFor c.path) with
  | .error f => loadFailed c.path f
  | .ok e => .line (c.answer e.evaluator clock)

/-- The outcome of what the arguments ask for. -/
def Invocation.run (read : Reader) (clock : Clock) : Invocation → Outcome
  | .command c => c.run read clock
  | .version => .line ("pennant " ++ Engine.version)
  | .help => .line "Usage: pennant [-l LEVEL] (validate | list | eval) SNAPSHOT [OPTIONS]"
  | .misuse => ⟨2, "", "error: arguments not understood\n"⟩

/-- The outcome of a list of arguments. -/
def run (read : Reader) (args : List String) (clock : Clock := .still) : Outcome :=
  (Invocation.parse args).run read clock

end FeatureFlags.CommandLine
