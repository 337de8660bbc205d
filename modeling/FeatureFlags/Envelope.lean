/-
**The envelope of every answer.**

Whatever is asked, the answer is an object of the same three members: a status, a result and an error
message.  Of the last two exactly one is there and the other is null, save that a result may itself be
null.

Main definitions:

* `Envelope` — a success or a failure;
* `Envelope.text` — **the text of an envelope**;
* `Envelope.ofExcept` — the envelope of an outcome.
-/
import FeatureFlags.Json.Value

set_option autoImplicit false

namespace FeatureFlags

open Json (Value)

/-- What is answered: a result, or what went wrong. -/
inductive Envelope where
  | success (result : Value)
  | failure (message : String)

namespace Envelope

def toJson : Envelope → Value
  | .success result =>
    .object [("status", .string "success"), ("result", result), ("error_message", .null)]
  | .failure message =>
    .object [("status", .string "failure"), ("result", .null), ("error_message", .string message)]

/-- The text of an envelope. -/
def text (e : Envelope) : String := e.toJson.text

/-- The envelope of a result of some kind, or of an error. -/
def ofExcept {α ε : Type} (result : α → Value) (message : ε → String) : Except ε α → Envelope
  | .ok a => .success (result a)
  | .error e => .failure (message e)

/-- The envelope of a result for which there is no text. -/
def unwritten : Envelope := .failure "failed to encode response"

/-- The envelope of a result, if there is a text for it. -/
def ofResult? : Option Value → Envelope
  | some v => .success v
  | none => unwritten

end Envelope

end FeatureFlags
