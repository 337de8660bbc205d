/-
**Where documents come from.**

A fetcher is asked again and again and answers with the next document, with nothing if nothing changed
since it was last asked, or with a fault.  A document among the options is given once.  A file is read
each time; the digest of its bytes, kept from the last time that they were a document, tells whether
they changed.  After a reset the digest is forgotten.

Main definitions:

* `Fetched`, `Fetcher` — what is fetched, and a way to fetch;
* `Fetcher.file`, `Fetcher.script` — documents from a file, and from a list of outcomes;
* `Source`, `Source.fetcher` — **the sources of engines**.
-/
import FeatureFlags.Digest.Sha256
import FeatureFlags.Engine.Options
import FeatureFlags.Files

set_option autoImplicit false

namespace FeatureFlags

/-- The next document, or none if nothing changed; or a fault. -/
abbrev Fetched := Except EngineFault (Option Document)

/-- A way to fetch documents, with something to remember from one time to the next. -/
structure Fetcher (σ : Type) where
  fetch : σ → Fetched × σ
  /-- Forgets what would hide a document that is already known. -/
  reset : σ → σ

/-- The digest of bytes. -/
abbrev Digest := List UInt8

namespace Fetcher

/-- Fetches from a file, remembering the digest of the last document. -/
def file (read : Reader) (path : String) : Fetcher (Option Digest) where
  fetch known :=
    match read path with
    | .error f => (.error (.unreadable path f.message), known)
    | .ok bytes =>
      let digest := Sha256.digest bytes
      if known = some digest then (.ok none, known)
      else
        match Json.decode Document.decoder bytes with
        | .error p => (.error (.evaluation p.failure), known)
        | .ok d => (.ok (some d), some digest)
  reset _ := none

/-- Gives the outcomes of a list one after the other, and afterwards nothing new. -/
def script : Fetcher (List Fetched) where
  fetch
    | [] => (.ok none, [])
    | o :: os => (o, os)
  reset os := os

end Fetcher

/-- A source of documents, with what it remembers. -/
inductive Source where
  /-- A document that is given once. -/
  | inline (pending : Option Document)
  | file (path : String) (known : Option Digest)
  deriving DecidableEq, Repr

namespace Source

/-- A document without flags that names no namespace. -/
def nameless : Document := ⟨⟨"", none⟩, []⟩

/-- The source of a document among the options; without one, a document without flags is given. -/
def ofDocument (d : Option Document) : Source := .inline (some (d.getD nameless))

/-- The source of a file. -/
def ofPath (path : String) : Source := .file path none

/-- The way to fetch from a source. -/
def fetcher (read : Reader) : Fetcher Source where
  fetch
    | .inline pending => (.ok pending, .inline none)
    | .file path known =>
      let (outcome, known) := (Fetcher.file read path).fetch known
      (outcome, .file path known)
  reset
    | .inline pending => .inline pending
    | .file path _ => .file path none

end Source

end FeatureFlags
