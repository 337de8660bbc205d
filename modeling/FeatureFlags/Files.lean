/-
**Files, and reading them.**

Whoever reads a document from a file only needs to know what a path gives when it is read: bytes, or a
reason why there are none.  `Files` is a tree of files held in memory that answers this question in the
way of a file system.

Everything that is done with a path first asks which place it names.  A path is followed name by name,
from the root of the tree if it begins with a slash and else from the working directory; an empty name
and a single dot stay where they are, and two dots go up.  Every name but the last has to be that of a
directory.  Names are limited to 255 bytes and paths to 4095.

Main definitions:

* `ReadFault`, `Reader` — why a file cannot be read, and what reading a path gives;
* `Files`, `Files.placeOf` — a tree of files, and **the place that a path names**;
* `Files.write`, `Files.makeDirectory`, `Files.remove` — changes of a tree;
* `Files.read` — **what reading a path gives**.
-/
import FeatureFlags.Text.Utf8

set_option autoImplicit false

namespace FeatureFlags

/-- Why a file cannot be read. -/
inductive ReadFault where
  | notFound
  | notDirectory
  | isDirectory
  | nameTooLong
  /-- The path holds a zero character. -/
  | zeroInPath
  /-- Anything else, in words. -/
  | other (reason : String)
  deriving DecidableEq, Repr

def ReadFault.message : ReadFault → String
  | .notFound => "No such file or directory (os error 2)"
  | .notDirectory => "Not a directory (os error 20)"
  | .isDirectory => "Is a directory (os error 21)"
  | .nameTooLong => "File name too long (os error 36)"
  | .zeroInPath => "file name contained an unexpected NUL byte"
  | .other reason => reason

/-- What reading a path gives. -/
abbrev Reader := String → Except ReadFault (List UInt8)

/-- What stands at a path. -/
inductive FileNode where
  | file (content : List UInt8)
  | directory
  deriving DecidableEq, Repr

/-- The names of a path. -/
abbrev FilePath := List (List Char)

/-- Cuts a path at its slashes. -/
def splitPath : List Char → FilePath
  | [] => [[]]
  | c :: cs =>
    if c = '/' then [] :: splitPath cs
    else
      match splitPath cs with
      | [] => [[c]]
      | p :: ps => (c :: p) :: ps

/-- Does a name stay where it is? -/
def staysPut (name : List Char) : Bool := name = [] || name = ['.']

/-- A tree of files, in which one directory is the one where paths without a leading slash begin. -/
structure Files where
  working : FilePath
  entries : List (FilePath × FileNode)
  deriving DecidableEq, Repr

namespace Files

/-- No files. -/
def empty : Files := ⟨[['w', 'o', 'r', 'k']], []⟩

/-- What stands at a place.  The working directory and those above it are always there. -/
def node? (f : Files) (place : FilePath) : Option FileNode :=
  match f.entries.lookup place with
  | some n => some n
  | none => if place.isPrefixOf f.working then some .directory else none

/-- The most bytes in a name. -/
def longestName : Nat := 255

/-- The most bytes in a path. -/
def longestPath : Nat := 4095

/-- The place that some names lead to from a directory.  The last one need not be there. -/
def locate (f : Files) (place : FilePath) : FilePath → Except ReadFault FilePath
  | [] => .ok place
  | name :: names =>
    if staysPut name then locate f place names
    else if name = ['.', '.'] then locate f place.dropLast names
    else if longestName < (Utf8.encodeChars name).length then .error .nameTooLong
    else if names.isEmpty then .ok (place ++ [name])
    else
      match f.node? (place ++ [name]) with
      | none => .error .notFound
      | some .directory => locate f (place ++ [name]) names
      | some (.file _) => .error .notDirectory

/-- Where a path begins. -/
def origin (f : Files) (path : String) : FilePath :=
  if path.toList.head? = some '/' then [] else f.working

/-- The place that a path names. -/
def placeOf (f : Files) (path : String) : Except ReadFault FilePath :=
  let bytes := Utf8.encode path
  if bytes.contains 0 then .error .zeroInPath
  else if bytes.isEmpty then .error .notFound
  else if longestPath < bytes.length then .error .nameTooLong
  else f.locate (f.origin path) (splitPath path.toList)

/-! ### Changes -/

/-- Puts something at a place, instead of what stood there. -/
def put (f : Files) (place : FilePath) (n : FileNode) : Files :=
  { f with entries := (place, n) :: f.entries.filter fun e => e.1 != place }

/-- Makes a directory at a place, unless something stands there. -/
def settle (f : Files) (place : FilePath) : Files :=
  if (f.node? place).isSome then f else f.put place .directory

/-- Makes the directories on the way of a path. -/
def withWay (f : Files) (path : String) : Files :=
  let names := splitPath path.toList
  (List.range names.length).foldl
    (fun f n =>
      match f.locate (f.origin path) (names.take n) with
      | .ok place => f.settle place
      | .error _ => f) f

/-- Writes a file, unless the path is that of a directory. -/
def write (f : Files) (path : String) (content : List UInt8) : Files :=
  let f := f.withWay path
  match f.placeOf path with
  | .ok place => if f.node? place = some .directory then f else f.put place (.file content)
  | .error _ => f

/-- Makes a directory, unless something stands at the path. -/
def makeDirectory (f : Files) (path : String) : Files :=
  let f := f.withWay path
  match f.placeOf path with
  | .ok place => f.settle place
  | .error _ => f

/-- Removes what stands at a place and below it. -/
def clear (f : Files) (place : FilePath) : Files :=
  { f with entries := f.entries.filter fun e => !place.isPrefixOf e.1 }

/-- Removes what stands at a path and below it. -/
def remove (f : Files) (path : String) : Files :=
  match f.placeOf path with
  | .ok place => f.clear place
  | .error _ => f

/-! ### Reading -/

/-- What reading a path gives. -/
def read (f : Files) : Reader := fun path =>
  match f.placeOf path with
  | .error fault => .error fault
  | .ok place =>
    match f.node? place with
    | none => .error .notFound
    | some .directory => .error .isDirectory
    | some (.file content) => .ok content

end Files

end FeatureFlags
