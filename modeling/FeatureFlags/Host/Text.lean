/-
**Texts that cross into a host.**

A host passes a text as bytes that end at the first zero, or passes nothing.  A text taken from it has
to be there and has to be well formed.  A text given to it may hold no zero, so its zero characters are
left out.

Main definitions:

* `Host.Fault`, `Host.Fault.message` — why a call of a host is turned down;
* `Host.Text.take` — the text that a host passes;
* `Host.Text.ended?` — bytes that a zero can be put behind as their end;
* `Host.Text.give` — **the bytes of a text for a host**.
-/
import FeatureFlags.Text.Utf8

set_option autoImplicit false

namespace FeatureFlags.Host

/-- Why a call of a host is turned down. -/
inductive Fault where
  /-- There is no engine. -/
  | nullHandle
  | nullArgument (what : String)
  | invalidUtf8 (what : String)
  /-- The engine cannot be built. -/
  | construction (reason : String)
  /-- The engine broke down in an operation. -/
  | panicked (operation : String)
  deriving DecidableEq, Repr

def Fault.message : Fault → String
  | .nullHandle => "error engine null pointer"
  | .nullArgument what => what ++ " must not be null"
  | .invalidUtf8 what => what ++ " is not valid UTF-8"
  | .construction reason => "engine construction failed: " ++ reason
  | .panicked operation => "engine panicked during " ++ operation

namespace Text

/-- The text that a host passes under a name. -/
def take (what : String) : Option (List UInt8) → Except Fault String
  | none => .error (.nullArgument what)
  | some bytes =>
    match Utf8.decode? (bytes.takeWhile (· != 0)) with
    | some s => .ok s
    | none => .error (.invalidUtf8 what)

/-- The bytes, if a zero behind them is the first one. -/
def ended? (bytes : List UInt8) : Option (List UInt8) := if 0 ∈ bytes then none else some bytes

/-- The bytes of a text for a host, without its zeros; if there were zeros still, there would be no text
left. -/
def give (s : String) : List UInt8 :=
  let bytes := Utf8.encode s
  match ended? bytes with
  | some bytes => bytes
  | none => (ended? (bytes.filter (· != 0))).getD []

theorem ended?_filter (bytes : List UInt8) :
    ended? (bytes.filter (· != 0)) = some (bytes.filter (· != 0)) := by
  rw [ended?, if_neg]
  simp

/-- **A text for a host loses its zeros, and nothing else.** -/
theorem give_eq_filter (s : String) : give s = (Utf8.encode s).filter (· != 0) := by
  by_cases hzero : 0 ∈ Utf8.encode s
  · have hended : ended? (Utf8.encode s) = none := if_pos hzero
    simp only [give, hended, ended?_filter, Option.getD_some]
  · have hended : ended? (Utf8.encode s) = some (Utf8.encode s) := if_neg hzero
    have hsame : (Utf8.encode s).filter (· != 0) = Utf8.encode s := by
      rw [List.filter_eq_self]
      intro b hb
      rw [bne_iff_ne]
      rintro rfl
      exact hzero hb
    simp only [give, hended, hsame]

end Text

end FeatureFlags.Host
