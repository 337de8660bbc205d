/-
**Reading requests.**

A request names a flag and an entity and may hold an object with the properties of the entity.  Texts,
numbers and truth values are properties, written as texts; members of other kinds are none.

Main definitions:

* `property?`, `Context.ofMembers` — properties from the members of an object;
* `Request.decode`, `Request.decodeBatch` — **a request, and a list of requests**.
-/
import FeatureFlags.Entity
import FeatureFlags.Json.Record
import FeatureFlags.Json.Value

set_option autoImplicit false

namespace FeatureFlags

open Json Json.Record

/-- The text of a member that is a property. -/
def property? : Value → Option String
  | .string s => some s
  | .number n => some (String.ofList n.chars)
  | .bool true => some "true"
  | .bool false => some "false"
  | _ => none

/-- The properties among the members of an object, of which no two have the same name. -/
def Context.ofMembers (members : List (String × Value)) : Context :=
  ⟨members.filterMap fun m => (property? m.2).map fun text => (m.1, text)⟩

namespace Request

/-- A request that stands inside of so many lists. -/
def decoder (lists : Nat) : Decoder Request :=
  Record.decoder "RequestPayload" <|
    ((one (.required "flag_key" .text)).and <|
      (one (.required "entity_id" .text)).and <|
      one (.optional "context" (Value.entries (Value.depthLimit - 2 - lists)))).map
    fun (flag, id, context) => ⟨flag, id, Context.ofMembers (context.getD [])⟩

/-- The request that a text holds. -/
def decode (text : List UInt8) : Except Problem Request := Json.decode (decoder 0) text

/-- The requests that a text holds as a list. -/
def decodeBatch (text : List UInt8) : Except Problem (List Request) :=
  Json.decode (.list (decoder 1)) text

end Request

end FeatureFlags
