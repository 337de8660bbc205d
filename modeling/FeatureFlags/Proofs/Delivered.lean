/-
**Answers arrive as they were written.**

An engine answers with the text of an envelope.  On its way to a host the text becomes bytes, and its
zeros would be left out; on its way to a foreign runtime the bytes go through an adapter, between a view
of the request and a copy of the answer.  Nothing is lost on either way.  In an envelope there is no
zero: its text spells a tree, a spelling has no control character, and what a flag, a document or a
message holds of them is written as an escape.  And the adapter copies what it got from the host, before
it frees it.

The request is taken up to its first zero, and whatever comes behind it has no part in the answer.

Main definitions:

* `Host.Session.Delivers` — **what a host, and a runtime behind an adapter, get from an engine.**

Main results:

* `Envelope.give_text` — an envelope is given to a host byte for byte;
* `Host.Session.delivers` — **answers arrive as they were written.**
-/
import FeatureFlags.Proofs.Courses
import FeatureFlags.Proofs.HostAnswers

set_option autoImplicit false

namespace FeatureFlags

/-! ### Envelopes as bytes -/

/-- **An envelope is given to a host byte for byte**, because none of its bytes is a zero. -/
theorem Envelope.give_text (e : Envelope) :
    Host.Text.give e.text = Utf8.encode e.text ∧ 0 ∉ Utf8.encode e.text := by
  have hgive := Host.Text.give_of_tree e.toJson.spells
  have hencode : Utf8.encode e.text = Utf8.encodeChars e.toJson.chars := by
    rw [text, Json.Value.text, Utf8.encode, String.toList_ofList]
  rwa [hencode]

namespace Host

/-! ### From an engine to a host -/

namespace Session

variable {s : Session} {h : Handle} {e : Engine}

theorem evaluate_eq (hengine : s.engine? h = some e) (clock : Clock) (kind : Evaluation)
    {bytes : List UInt8} {text : String} (htext : Utf8.decode? (bytes.takeWhile (· != 0)) = some text) :
    s.evaluate h kind (some bytes) clock = Utf8.encode (e.evaluate kind text clock) := by
  have htake : Text.take "request" (some bytes) = .ok text := by rw [Text.take, htext]
  rw [Session.evaluate, hengine, Guard.evaluate_of_ok htake]
  exact (e.evaluator.evaluate kind (Utf8.encode text) clock).give_text.1

theorem query_eq (hengine : s.engine? h = some e) (kind : Query) :
    s.query h kind = Utf8.encode (e.query kind) := by
  rw [Session.query, hengine, Guard.query_some]
  exact (e.evaluator.query kind).give_text.1

/-! ### From a host to a foreign runtime -/

/-- What a host gets from one of its engines, and what a foreign runtime gets that reaches the host
through an adapter. -/
structure Delivers (s : Session) (h : Handle) (e : Engine) : Prop where
  /-- The host gets the bytes of the answer to the text before the first zero. -/
  evaluate : ∀ clock kind bytes text, Utf8.decode? (bytes.takeWhile (· != 0)) = some text →
    s.evaluate h kind (some bytes) clock = Utf8.encode (e.evaluate kind text clock)
  query : ∀ kind, s.query h kind = Utf8.encode (e.query kind)
  /-- There is no zero among these bytes, at which they would end for the host. -/
  unbroken : (∀ clock kind text, 0 ∉ Utf8.encode (e.evaluate kind text clock)) ∧
    ∀ kind, 0 ∉ Utf8.encode (e.query kind)
  /-- The runtime makes its text of the same bytes, and the host is left as it was. -/
  adapted : ∀ read thread clock (rt : Runtime) kind request bytes text events,
    rt.view request = .ok bytes → Utf8.decode? (bytes.takeWhile (· != 0)) = some text →
    (Adapter.evaluate (.ofSession read thread clock) rt h kind (some request)).run ⟨s, events⟩ =
      ((rt.copy (Utf8.encode (e.evaluate kind text clock))).mapError .runtime,
        ⟨s, events ++ [.acquire, .call, .issue, .release, .copy, .free]⟩)
  adaptedQuery : ∀ read thread clock (rt : Runtime) kind events,
    (Adapter.query (.ofSession read thread clock) rt h kind).run ⟨s, events⟩ =
      ((rt.copy (Utf8.encode (e.query kind))).mapError .runtime,
        ⟨s, events ++ [.call, .issue, .copy, .free]⟩)

/-- **Answers arrive as they were written**: no byte of an envelope is lost on its way to a host,
whatever the envelope holds, and what a host gets for a request or a query, a foreign runtime gets as
well. -/
theorem delivers (hengine : s.engine? h = some e) :
    (∀ a : Envelope, Text.give a.text = Utf8.encode a.text ∧ 0 ∉ Utf8.encode a.text) ∧
      s.Delivers h e := by
  refine ⟨Envelope.give_text, ?_⟩
  exact {
    evaluate := fun clock kind bytes text htext => evaluate_eq hengine clock kind htext
    query := query_eq hengine
    unbroken := by
      constructor
      · intro clock kind text
        exact (e.evaluator.evaluate kind (Utf8.encode text) clock).give_text.2
      · intro kind
        exact (e.evaluator.query kind).give_text.2
    adapted := by
      intro read thread clock rt kind request bytes text events hview htext
      have hcall : (Native.ofSession read thread clock).evaluate kind h (some bytes) s =
          (some (Utf8.encode (e.evaluate kind text clock)), s) := by
        rw [← evaluate_eq hengine clock kind htext]
        rfl
      have hview' : rt.view? (some request) = .ok (some bytes) :=
        Runtime.view?_some_eq_ok_iff.2 ⟨bytes, hview, rfl⟩
      exact Adapter.does_evaluate hview' hcall events
    adaptedQuery := by
      intro read thread clock rt kind events
      have hcall : (Native.ofSession read thread clock).query kind h s =
          (some (Utf8.encode (e.query kind)), s) := by
        rw [← query_eq hengine kind]
        rfl
      exact Adapter.does_query hcall events }

/-- A flag with a zero character in its key, and a request with more behind its first zero. -/
theorem delivers_zeros :
    let flag : CompiledFlag := ⟨⟨"a\x00b", "", true, .boolean, none, none⟩, [], []⟩
    let e : Engine := ⟨.new "ns" ⟨⟨⟨"ns", none⟩, []⟩, FlagTable.empty.insert "a\x00b" flag⟩, .inline none, .fail, none⟩
    let s : Session := ⟨[(1, e)], 2, []⟩
    let clock : Clock := fun _ => ⟨.double (Floating.ofDecimal false 25 (-1)), 1700000000000⟩
    let request := "\x7b\"flag_key\":\"a\\u0000b\",\"entity_id\":\"\"\x7d"
    s.engine? 1 = some e ∧
      s.evaluate 1 .boolean (some (Utf8.encode request ++ [0x00, 0xFF])) clock =
        Utf8.encode (e.evaluate .boolean request clock) ∧
      s.Delivers 1 e := by
  intro flag e s clock request
  have hengine : s.engine? 1 = some e := rfl
  have hdelivers := (delivers hengine).2
  exact ⟨hengine, hdelivers.evaluate clock .boolean _ request (by decide +kernel), hdelivers⟩

end Session

end Host

end FeatureFlags
