/-
**Every answer to a host is an envelope.**

Whatever a host asks of whatever it takes for an engine, it gets one object with a status, a result and an
error message, in this order.  A success has a list or an object for its result and no message; a failure
has no result, and its message is the text of what went wrong, character by character.  What may go wrong is
that there is no engine, that the request is not there or is not well formed, that it cannot be read, or
that the evaluator has a failure for it.

No character of an answer is lost on its way to the host: the host gets no zero characters, but there are
none in an answer, because a control character is only written as an escape.  Who reads the answer as JSON
finds the message in it that was written.

Main definitions:

* `Evaluator.Answers`, `Evaluator.AnswersQuery` — what an evaluator has for a request and for a query;
* `Host.Session.Outcome`, `Host.Session.QueryOutcome` — what a host is owed;
* `Envelope.tree`, `Envelope.Written` — what an envelope holds, and **the bytes of an envelope**.

Main results:

* `Host.Text.give_of_tree` — a text that holds something is given to a host as it is;
* `Host.Session.answers_written` — **every answer is an envelope of what the host is owed.**
-/
import FeatureFlags.Host.Session
import FeatureFlags.Proofs.Reading
import FeatureFlags.Proofs.Written

set_option autoImplicit false

namespace FeatureFlags

open Json (ReadsAs Tree Value)
open Json.Spelling (OfTree)

/-! ### What a host is owed -/

/-- What an evaluator has for the bytes of a request, by a clock. -/
inductive Evaluator.Answers (e : Evaluator) (clock : Clock) (bytes : List UInt8) :
    Evaluation → Except Failure Value → Prop
  | unread {kind : Evaluation} {p : Json.Problem} : kind ≠ .batch → Request.decode bytes = .error p →
      Answers e clock bytes kind (.error p.failure)
  | unreadBatch {p : Json.Problem} : Request.decodeBatch bytes = .error p →
      Answers e clock bytes .batch (.error p.failure)
  | boolean {r : Request} : Request.decode bytes = .ok r →
      Answers e clock bytes .boolean ((e.boolean r).map (·.toJson (clock 0)))
  | variant {r : Request} : Request.decode bytes = .ok r →
      Answers e clock bytes .variant ((e.variant r).map (·.toJson (clock 0)))
  | batch {rs : List Request} : Request.decodeBatch bytes = .ok rs →
      Answers e clock bytes .batch ((e.batch rs).map (batchToJson clock))

/-- What an evaluator has for a query. -/
inductive Evaluator.AnswersQuery (e : Evaluator) : Query → Except Failure Value → Prop
  | list : AnswersQuery e .list (e.list.map (jsonList FlagInfo.toJson))
  | snapshot : AnswersQuery e .snapshot (e.document.map Document.toJson)

namespace Host.Session

/-- What a host is owed for a request: a result, or the text of what is wrong.  The engine comes before the
request, and a request ends at its first zero. -/
inductive Outcome (s : Session) (clock : Clock) (h : Handle) (kind : Evaluation)
    (request : Option (List UInt8)) : Except String Value → Prop
  | noEngine : s.engine? h = none → Outcome s clock h kind request (.error Fault.nullHandle.message)
  | noRequest {e : Engine} : s.engine? h = some e → request = none →
      Outcome s clock h kind request (.error (Fault.nullArgument "request").message)
  | noText {e : Engine} {bytes : List UInt8} : s.engine? h = some e → request = some bytes →
      Utf8.decode? (bytes.takeWhile (· != 0)) = none →
      Outcome s clock h kind request (.error (Fault.invalidUtf8 "request").message)
  | answer {e : Engine} {bytes : List UInt8} {text : String} {result : Except Failure Value} :
      s.engine? h = some e → request = some bytes →
      Utf8.decode? (bytes.takeWhile (· != 0)) = some text →
      e.evaluator.Answers clock (Utf8.encode text) kind result →
      Outcome s clock h kind request (result.mapError Failure.message)

/-- What a host is owed for a query. -/
inductive QueryOutcome (s : Session) (h : Handle) (kind : Query) : Except String Value → Prop
  | noEngine : s.engine? h = none → QueryOutcome s h kind (.error Fault.nullHandle.message)
  | answer {e : Engine} {result : Except Failure Value} : s.engine? h = some e →
      e.evaluator.AnswersQuery kind result →
      QueryOutcome s h kind (result.mapError Failure.message)

end Host.Session

/-- A list or an object. -/
inductive Json.Tree.Container : Tree → Prop
  | array (ts : List Tree) : Container (.array ts)
  | object (ms : List (String × Tree)) : Container (.object ms)

/-- What an envelope holds for an outcome. -/
noncomputable def Envelope.tree : Except String Value → Tree
  | .ok v => .object [("status", .string "success"), ("result", v.tree), ("error_message", .null)]
  | .error message =>
    .object [("status", .string "failure"), ("result", .null), ("error_message", .string message)]

/-- The bytes of an envelope for an outcome.  They spell one object with three members, are read as this
object, and hold no zero that would end them for a host. -/
structure Envelope.Written (bytes : List UInt8) (outcome : Except String Value) : Prop where
  spelled : ∃ t, OfTree t (tree outcome) ∧ bytes = Utf8.encodeChars t
  read : ReadsAs bytes (tree outcome)
  container : ∀ v, outcome = .ok v → v.tree.Container
  zero_notMem : 0 ∉ bytes

/-! ### Answers that are given to a host -/

/-- A text that holds something is given to a host as it is. -/
theorem Host.Text.give_of_tree {cs : List Char} {t : Tree} (h : OfTree cs t) :
    give (String.ofList cs) = Utf8.encodeChars cs ∧ 0 ∉ Utf8.encodeChars cs := by
  have hzero : (0 : UInt8) ∉ Utf8.encodeChars cs := by
    intro hmem
    exact h.zero_notMem ((Utf8.mem_encodeChars_iff (a := '\x00') (by decide) cs).1 hmem)
  refine ⟨?_, hzero⟩
  rw [give_eq_filter, Utf8.encode, String.toList_ofList, List.filter_eq_self]
  intro b hb
  rw [bne_iff_ne]
  rintro rfl
  exact hzero hb

namespace Envelope

variable {α ε : Type}

/-- What a host gets of an envelope is its text. -/
theorem written_of_tree {e : Envelope} {outcome : Except String Value}
    (htree : e.toJson.tree = tree outcome) (hcontainer : ∀ v, outcome = .ok v → v.tree.Container) :
    Written (Host.Text.give e.text) outcome := by
  have hspells := e.toJson.spells
  obtain ⟨hgive, hzero⟩ := Host.Text.give_of_tree hspells
  rw [htree] at hspells
  rw [text, Value.text, hgive]
  exact ⟨⟨_, hspells, rfl⟩, Json.readsAs_of_tree hspells, hcontainer, hzero⟩

/-- **A failure is written with its message.** -/
theorem written_failure (message : String) :
    Written (Host.Text.give (failure message).text) (.error message) :=
  written_of_tree rfl fun _ h => nomatch h

/-- **A result that is a list or an object is written as it is.** -/
theorem written_success {v : Value} (hv : v.tree.Container) :
    Written (Host.Text.give (success v).text) (.ok v) := by
  refine written_of_tree rfl ?_
  rintro w ⟨⟩
  exact hv

/-- The envelope of an outcome is written, if its results are lists or objects. -/
theorem written_ofExcept {result : α → Value} (hresult : ∀ a, (result a).tree.Container)
    (message : ε → String) (outcome : Except ε α) :
    Written (Host.Text.give (ofExcept result message outcome).text)
      ((outcome.map result).mapError message) := by
  cases outcome with
  | error f => exact written_failure (message f)
  | ok a => exact written_success (hresult a)

end Envelope

/-! ### The answers of an evaluator -/

theorem BooleanAnswer.container (stamp : Stamp) (a : BooleanAnswer) :
    (a.toJson stamp).tree.Container := .object _

theorem VariantAnswer.container (stamp : Stamp) (a : VariantAnswer) :
    (a.toJson stamp).tree.Container := .object _

theorem container_batchToJson (clock : Clock) (es : List Entry) :
    (batchToJson clock es).tree.Container := .object _

theorem container_jsonList {α : Type} (f : α → Value) (as : List α) : (jsonList f as).tree.Container :=
  .array _

theorem Document.container (d : Document) : d.toJson.tree.Container := .object _

namespace Evaluator

variable (e : Evaluator)

/-- What the evaluator has for a request is written. -/
theorem evaluate_written (clock : Clock) (kind : Evaluation) (bytes : List UInt8) :
    ∃ result, e.Answers clock bytes kind result ∧
      Envelope.Written (Host.Text.give (e.evaluate kind bytes clock).text)
        (result.mapError Failure.message) := by
  cases kind with
  | boolean =>
      rw [evaluate]
      cases hdecode : Request.decode bytes with
      | error p => exact ⟨_, .unread (fun h => nomatch h) hdecode, Envelope.written_failure _⟩
      | ok r => exact ⟨_, .boolean hdecode, Envelope.written_ofExcept (BooleanAnswer.container _) _ _⟩
  | variant =>
      rw [evaluate]
      cases hdecode : Request.decode bytes with
      | error p => exact ⟨_, .unread (fun h => nomatch h) hdecode, Envelope.written_failure _⟩
      | ok r => exact ⟨_, .variant hdecode, Envelope.written_ofExcept (VariantAnswer.container _) _ _⟩
  | batch =>
      rw [evaluate]
      cases hdecode : Request.decodeBatch bytes with
      | error p => exact ⟨_, .unreadBatch hdecode, Envelope.written_failure _⟩
      | ok rs => exact ⟨_, .batch hdecode, Envelope.written_ofExcept (container_batchToJson _) _ _⟩

/-- What the evaluator has for a query is written. -/
theorem query_written (kind : Query) :
    ∃ result, e.AnswersQuery kind result ∧
      Envelope.Written (Host.Text.give (e.query kind).text) (result.mapError Failure.message) := by
  cases kind with
  | list => exact ⟨_, .list, Envelope.written_ofExcept (container_jsonList FlagInfo.toJson) _ _⟩
  | snapshot => exact ⟨_, .snapshot, Envelope.written_ofExcept Document.container _ _⟩

end Evaluator

/-! ### The answers of a host -/

namespace Host

namespace Guard

/-! What the guard answers, case by case. -/

theorem evaluate_none {E : Type} (service : Service E) (kind : Evaluation)
    (request : Option (List UInt8)) : evaluate service none kind request =
      Text.give (Envelope.failure Fault.nullHandle.message).text := by
  rw [evaluate, evaluateBy_none, Id.run_pure]

theorem evaluate_of_error {E : Type} {service : Service E} {engine : E} {kind : Evaluation}
    {request : Option (List UInt8)} {f : Fault} (h : Text.take "request" request = .error f) :
    evaluate service (some engine) kind request = Text.give (Envelope.failure f.message).text := by
  rw [evaluate, evaluateBy_of_error _ _ _ h, Id.run_pure]

theorem evaluate_of_ok {engine : Engine} {kind : Evaluation} {request : Option (List UInt8)}
    {text : String} (h : Text.take "request" request = .ok text) (clock : Clock) :
    evaluate (engineService clock) (some engine) kind request =
      Text.give (engine.evaluator.evaluate kind (Utf8.encode text) clock).text := by
  rw [evaluate, evaluateBy_of_ok _ _ _ h]
  rfl

theorem query_none {E : Type} (service : Service E) (kind : Query) :
    query service none kind = Text.give (Envelope.failure Fault.nullHandle.message).text := by
  rw [query, queryBy_none, Id.run_pure]

theorem query_some (engine : Engine) (kind : Query) :
    query (engineService .still) (some engine) kind = Text.give (engine.evaluator.query kind).text := by
  rw [query, queryBy_some]
  rfl

end Guard

namespace Session

variable (s : Session) (h : Handle)

theorem evaluate_written (clock : Clock) (kind : Evaluation) (request : Option (List UInt8)) :
    ∃ outcome, s.Outcome clock h kind request outcome ∧
      Envelope.Written (s.evaluate h kind request clock) outcome := by
  rw [evaluate]
  cases hengine : s.engine? h with
  | none =>
      rw [Guard.evaluate_none]
      exact ⟨_, .noEngine hengine, Envelope.written_failure Fault.nullHandle.message⟩
  | some e =>
      cases request with
      | none =>
          rw [Guard.evaluate_of_error rfl]
          exact ⟨_, .noRequest hengine rfl, Envelope.written_failure (Fault.nullArgument _).message⟩
      | some bytes =>
          cases hdecode : Utf8.decode? (bytes.takeWhile (· != 0)) with
          | none =>
              have htake : Text.take "request" (some bytes) = .error (.invalidUtf8 "request") := by
                rw [Text.take, hdecode]
              rw [Guard.evaluate_of_error htake]
              exact ⟨_, .noText hengine rfl hdecode, Envelope.written_failure (Fault.invalidUtf8 _).message⟩
          | some text =>
              have htake : Text.take "request" (some bytes) = .ok text := by
                rw [Text.take, hdecode]
              obtain ⟨result, hanswers, hwritten⟩ :=
                e.evaluator.evaluate_written clock kind (Utf8.encode text)
              rw [Guard.evaluate_of_ok htake]
              exact ⟨_, .answer hengine rfl hdecode hanswers, hwritten⟩

theorem query_written (kind : Query) :
    ∃ outcome, s.QueryOutcome h kind outcome ∧ Envelope.Written (s.query h kind) outcome := by
  rw [query]
  cases hengine : s.engine? h with
  | none =>
      rw [Guard.query_none]
      exact ⟨_, .noEngine hengine, Envelope.written_failure Fault.nullHandle.message⟩
  | some e =>
      obtain ⟨result, hanswers, hwritten⟩ := e.evaluator.query_written kind
      rw [Guard.query_some]
      exact ⟨_, .answer hengine hanswers, hwritten⟩

/-- **Every answer is an envelope of what the host is owed**, whatever the host passes for an engine and for
a request, and whatever the clock shows. -/
theorem answers_written :
    (∀ (clock : Clock) (kind : Evaluation) (request : Option (List UInt8)), ∃ outcome,
      s.Outcome clock h kind request outcome ∧
        Envelope.Written (s.evaluate h kind request clock) outcome) ∧
    ∀ kind : Query, ∃ outcome,
      s.QueryOutcome h kind outcome ∧ Envelope.Written (s.query h kind) outcome :=
  ⟨evaluate_written s h, query_written s h⟩

end Session

end Host

end FeatureFlags
