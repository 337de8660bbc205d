/-
**The program.**

Reads the document that the arguments name, and prints what the library answers by a clock that stands
still.

Main definitions:

* `FeatureFlags.readFile` — the content of a file, or why there is none;
* `main` — **the program**.
-/
import FeatureFlags.CommandLine.Run

set_option autoImplicit false

namespace FeatureFlags

/-- Why a file cannot be read, by the number that the system gives, perhaps as a negative one. -/
def readFault (number : UInt32) (details : String) : ReadFault :=
  match if number < 0x80000000 then number else 0 - number with
  | 2 => .notFound
  | 20 => .notDirectory
  | 21 => .isDirectory
  | 36 => .nameTooLong
  | n => .other (details ++ " (os error " ++ toString n ++ ")")

/-- Why a file cannot be read, by the error of the system. -/
def ofSystemError : IO.Error → ReadFault
  | .noFileOrDirectory _ number details => readFault number details
  | .inappropriateType _ number details => readFault number details
  | .permissionDenied _ number _ => readFault number "Permission denied"
  | .resourceExhausted _ number details => readFault number details
  | .invalidArgument _ number details => readFault number details
  | .otherError number details => readFault number details
  | e => .other (toString e)

/-- The content of a file, or why there is none. -/
def readFile (path : String) : IO (Except ReadFault (List UInt8)) := do
  if path.toList.contains '\x00' then return .error .zeroInPath
  try
    return .ok (← IO.FS.readBinFile path).toList
  catch e => return .error (ofSystemError e)

end FeatureFlags

open FeatureFlags CommandLine in
/-- The program. -/
def main (args : List String) : IO UInt32 := do
  let asked := Invocation.parse args
  let content ← match asked with
    | .command c => readFile c.path
    | _ => pure (.error .notFound)
  let outcome := asked.run (fun _ => content) .still
  (← IO.getStdout).putStr outcome.stdout
  (← IO.getStderr).putStr outcome.stderr
  return outcome.code.toUInt32
