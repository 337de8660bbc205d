/-
**What the program is asked to do.**

The program knows three commands, each with the path of a document: to say whether the document can be
served, to list the flags of a namespace, and to evaluate a flag for an entity.  The properties of the
entity are given one by one as `name=value`; the name may not be empty.

Main definitions:

* `Command`, `Invocation` — a command, and what a list of arguments asks for;
* `Invocation.parse` — **reading the arguments**.
-/
import FeatureFlags.CommandLine.Arguments

set_option autoImplicit false

namespace FeatureFlags.CommandLine

/-- What the program does. -/
inductive Command where
  | validate (path : String)
  | list (path : String) (space : Option String)
  | eval (path flag entity : String) (space : Option String) (properties : List (String × String))
  deriving DecidableEq, Repr

/-- What a list of arguments asks for. -/
inductive Invocation where
  | command (c : Command)
  | version
  | help
  | misuse
  deriving DecidableEq, Repr

/-- A property with its value: the text before the first `=`, which may not be empty, and the text
after it. -/
def readProperty? (s : String) : Option (String × String) :=
  match cut '=' s.toList with
  | (_, none) => none
  | ([], some _) => none
  | (name, some value) => some (String.ofList name, String.ofList value)

namespace Parameter

/-- A parameter that is given once at most and takes any value. -/
def once (name : String) (letter : Char) : Parameter := ⟨name, letter, false, fun _ => true⟩

def logLevel : Parameter := once "log-level" 'l'
def space : Parameter := once "namespace" 'n'
def flag : Parameter := once "flag" 'f'
def entity : Parameter := once "entity" 'e'
def property : Parameter := ⟨"context", 'c', true, fun s => (readProperty? s).isSome⟩

end Parameter

namespace Invocation

/-- What stands before the command. -/
def outer : Grammar := ⟨[.logLevel], true⟩

/-- The command of a name with what was given for it; what is given besides the parameters is the path
of the document. -/
def command? (name : String) (g : Given) : Option Command := do
  let path ← g.other
  if name = "validate" then return .validate path
  else if name = "list" then return .list path (g.value? "namespace")
  else
    let flag ← g.value? "flag"
    let entity ← g.value? "entity"
    let properties := (g.all "context").filterMap readProperty?
    return .eval path flag entity (g.value? "namespace") properties

/-- What stands after the name of a command. -/
def inner? (name : String) : Option Grammar :=
  if name = "validate" then some ⟨[.logLevel], false⟩
  else if name = "list" then some ⟨[.logLevel, .space], false⟩
  else if name = "eval" then some ⟨[.logLevel, .flag, .entity, .space, .property], false⟩
  else none

/-- What a stop comes to. -/
def ofStop : Stop → Invocation
  | .misuse => .misuse
  | .version => .version
  | .help => .help

/-- Help may be asked for by a command of its own, in general or on one command. -/
def asksForHelp (name : String) (args : List String) : Bool :=
  name == "help" &&
    match args with
    | [] => true
    | [other] => other == "help" || (inner? other).isSome
    | _ => false

/-- Reads what stands after the name of a command. -/
def parseCommand (name : String) (args : List String) : Invocation :=
  match inner? name with
  | none => if asksForHelp name args then .help else .misuse
  | some g =>
    match g.collect false .empty args with
    | .error why => ofStop why
    | .ok (given, _) =>
      match command? name given with
      | some c => .command c
      | none => .misuse

/-- What a list of arguments asks for. -/
def parse (args : List String) : Invocation :=
  match outer.collect true .empty args with
  | .error why => ofStop why
  | .ok (_, []) => .misuse
  | .ok (_, name :: args) => parseCommand name args

end Invocation

end FeatureFlags.CommandLine
