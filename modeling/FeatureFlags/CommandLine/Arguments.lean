/-
**Arguments of a program.**

An argument is a parameter with a value, in one of the forms `--name value`, `--name=value`,
`-n value`, `-nvalue` and `-n=value`; or one of the two questions, for help and for the version; or
else it stands for itself.  After a lone `--` every argument stands for itself, and so does a lone
dash.  A value that is an argument of its own may not look like a parameter.

Arguments are read from left to right up to the first that cannot be right, or to the first question.

Main definitions:

* `Parameter`, `Grammar` — a parameter, and what a program takes;
* `Grammar.piece` — what one argument is;
* `Grammar.collect` — **the parameters and the other argument**; if a command is wanted, up to where it
  stands.
-/

set_option autoImplicit false

namespace FeatureFlags.CommandLine

/-- Cuts characters at the first occurrence of a mark, which is dropped. -/
def cut (mark : Char) : List Char → List Char × Option (List Char)
  | [] => ([], none)
  | c :: cs =>
    if c = mark then ([], some cs)
    else
      let (before, after) := cut mark cs
      (c :: before, after)

/-- A parameter that takes a value. -/
structure Parameter where
  name : String
  letter : Char
  /-- May it be given more than once? -/
  repeatable : Bool
  /-- Is the value one that it takes? -/
  accepts : String → Bool

/-- What a program takes. -/
structure Grammar where
  parameters : List Parameter
  /-- Does it tell its version? -/
  tellsVersion : Bool

/-- Why reading stops before the last argument. -/
inductive Stop where
  | misuse
  | version
  | help
  deriving DecidableEq, Repr

/-- What one argument is. -/
inductive Piece where
  /-- Every later argument stands for itself. -/
  | ends
  | stop (why : Stop)
  | value (p : Parameter) (value : String)
  /-- The next argument is the value. -/
  | wants (p : Parameter)
  | plain

/-- What was read: values by the names of their parameters, and the one other argument there may be. -/
structure Given where
  values : List (String × String)
  other : Option String
  deriving DecidableEq, Repr

namespace Given

def empty : Given := ⟨[], none⟩

/-- The value of a parameter. -/
def value? (g : Given) (name : String) : Option String := g.values.lookup name

/-- All values of a parameter. -/
def all (g : Given) (name : String) : List String :=
  g.values.filterMap fun v => if v.1 = name then some v.2 else none

/-- Adds a value, if the parameter takes it. -/
def add (g : Given) (p : Parameter) (value : String) : Except Stop Given :=
  if !p.repeatable && (g.value? p.name).isSome then .error .misuse
  else if p.accepts value then .ok { g with values := g.values ++ [(p.name, value)] }
  else .error .misuse

/-- Adds an argument that stands for itself.  It may not be empty, and not the second. -/
def addOther (g : Given) (arg : String) : Except Stop Given :=
  if g.other.isSome || arg.isEmpty then .error .misuse else .ok { g with other := some arg }

end Given

namespace Grammar

/-- What an argument is that begins with two dashes; it is given without them. -/
def longPiece (g : Grammar) (cs : List Char) : Piece :=
  let (name, value) := cut '=' cs
  match g.parameters.find? fun p => p.name.toList = name with
  | some p =>
    match value with
    | some v => .value p (String.ofList v)
    | none => .wants p
  | none =>
    if value.isSome then .stop .misuse
    else if name = "help".toList then .stop .help
    else if g.tellsVersion ∧ name = "version".toList then .stop .version
    else .stop .misuse

/-- What an argument is that begins with a dash and a letter. -/
def shortPiece (g : Grammar) (letter : Char) (cs : List Char) : Piece :=
  match g.parameters.find? fun p => p.letter = letter with
  | some p =>
    match cs with
    | [] => .wants p
    | '=' :: v => .value p (String.ofList v)
    | v => .value p (String.ofList v)
  | none =>
    if letter = 'h' then .stop .help
    else if g.tellsVersion ∧ letter = 'V' then .stop .version
    else .stop .misuse

/-- What one argument is. -/
def piece (g : Grammar) (arg : String) : Piece :=
  match arg.toList with
  | ['-', '-'] => .ends
  | '-' :: '-' :: cs => g.longPiece cs
  | '-' :: c :: cs => g.shortPiece c cs
  | _ => .plain

/-- Reads arguments.  If a command is wanted, the first argument that stands for itself ends the
reading; it is returned with those after it. -/
def collect (g : Grammar) (wantsCommand : Bool) (given : Given) :
    List String → Except Stop (Given × List String)
  | [] => .ok (given, [])
  | arg :: args =>
    match g.piece arg with
    | .stop why => .error why
    | .ends =>
      if wantsCommand then .error .misuse
      else (args.foldlM Given.addOther given).map fun given => (given, [])
    | .plain =>
      if wantsCommand then .ok (given, arg :: args)
      else
        match given.addOther arg with
        | .error why => .error why
        | .ok given => collect g wantsCommand given args
    | .value p v =>
      match given.add p v with
      | .error why => .error why
      | .ok given => collect g wantsCommand given args
    | .wants p =>
      match args with
      | [] => .error .misuse
      | v :: args =>
        match g.piece v with
        | .plain =>
          match given.add p v with
          | .error why => .error why
          | .ok given => collect g wantsCommand given args
        | _ => .error .misuse

end Grammar

end FeatureFlags.CommandLine
