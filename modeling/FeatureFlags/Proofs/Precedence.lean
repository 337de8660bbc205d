/-
**What a host gets is decided in a fixed order.**

A host passes an address, which is zero or has an engine behind it; with a request there is one or there is
none, and up to its first zero it is well formed or not; and an engine that is asked answers or breaks down.
The first of these that goes wrong decides what the host gets, and nothing behind it has a part in that:
without an engine the request is not looked at, and without a text in the request the engine is not asked.

How an engine is asked is left open.  It may be done in any monad, and so leave whatever traces there are to
leave; where no engine is asked, nothing is done in the monad.

There always is something for the host to get, and it ends where a host takes it to end.  A failure is an
envelope, in which there is no zero.  Of what an engine answers the zero characters are left out and all
others stay, and these are the bytes of a text again; the first attempt to put an end behind the bytes may
fail, the one without the zeros does not.

Main definitions:

* `Memory.Serves` — the addresses that a host may pass;
* `Guard.Reaches` — **what decides about a request, in this order**;
* `Guard.owed` — the text that comes of asking an engine;
* `Guard.InOrder` — what a host gets under the name of an operation.

Main results:

* `Text.take_eq_ok_iff`, `Text.take_eq_error_iff` — which requests hold a text;
* `Guard.exists_reaches`, `Guard.Reaches.unique` — one thing decides about a request;
* `Guard.respond_map_ok` — what a host gets of an engine that was asked;
* `Guard.decided_in_order` — **what a host gets is decided in a fixed order.**
-/
import FeatureFlags.Proofs.Delivered
import FeatureFlags.Proofs.LastError

set_option autoImplicit false

namespace FeatureFlags.Host

/-! ### What a host passes -/

namespace Text

variable {what text : String} {bytes : List UInt8} {f : Fault}

/-- A host passes a text if the bytes before the first zero are those of this text. -/
theorem take_eq_ok_iff :
    take what (some bytes) = .ok text ↔ bytes.takeWhile (· != 0) = Utf8.encode text := by
  rw [← Utf8.decode?_eq_some_iff, take]
  cases Utf8.decode? (bytes.takeWhile (· != 0)) with
  | none => simp
  | some s => simp

/-- It passes none if they are the bytes of no text. -/
theorem take_eq_error_iff : take what (some bytes) = .error f ↔
    (∀ text, bytes.takeWhile (· != 0) ≠ Utf8.encode text) ∧ f = .invalidUtf8 what := by
  have htexts : (∀ text, bytes.takeWhile (· != 0) ≠ Utf8.encode text) ↔
      Utf8.decode? (bytes.takeWhile (· != 0)) = none := by
    rw [Option.eq_none_iff_forall_ne_some]
    exact forall_congr' fun text => not_congr Utf8.decode?_eq_some_iff.symm
  rw [htexts, take]
  cases Utf8.decode? (bytes.takeWhile (· != 0)) with
  | none => simp [eq_comm]
  | some s => simp

end Text

variable {E : Type}

/-- A host may pass zero, or an address behind which there is an engine. -/
def Memory.Serves (memory : Memory E) (a : Address) : Prop := a = 0 ∨ ∃ e, memory.engine? a = some e

namespace Guard

theorem engineAt_zero (memory : Memory E) : engineAt memory 0 = none := rfl

theorem engineAt_of_ne {a : Address} (ha : a ≠ 0) (memory : Memory E) :
    engineAt memory a = memory.engine? a := by
  rw [engineAt, EngineHandle.ofRaw?, dif_neg ha]
  rfl

/-! ### What decides about a request -/

/-- What decides about a request: that there is no engine, no request, or no text in it; or else what comes
of asking the engine for this text. -/
inductive Reaches (memory : Memory E) (a : Address) :
    Option (List UInt8) → Except Fault (E × String) → Prop
  | noEngine {request : Option (List UInt8)} : a = 0 → Reaches memory a request (.error .nullHandle)
  | noRequest {e : E} : a ≠ 0 → memory.engine? a = some e →
      Reaches memory a none (.error (.nullArgument "request"))
  | noText {e : E} {bytes : List UInt8} : a ≠ 0 → memory.engine? a = some e →
      (∀ text, bytes.takeWhile (· != 0) ≠ Utf8.encode text) →
      Reaches memory a (some bytes) (.error (.invalidUtf8 "request"))
  | engine {e : E} {bytes : List UInt8} {text : String} : a ≠ 0 → memory.engine? a = some e →
      bytes.takeWhile (· != 0) = Utf8.encode text → Reaches memory a (some bytes) (.ok (e, text))

section

variable {memory : Memory E} {a : Address} {request : Option (List UInt8)}

/-- Something decides about a request, if the host passes an address that it may pass. -/
theorem exists_reaches (ha : memory.Serves a) (request : Option (List UInt8)) :
    ∃ outcome, Reaches memory a request outcome := by
  by_cases hzero : a = 0
  · exact ⟨_, .noEngine hzero⟩
  · obtain ⟨e, he⟩ := ha.resolve_left hzero
    cases request with
    | none => exact ⟨_, .noRequest hzero he⟩
    | some bytes =>
        by_cases htext : ∃ text, bytes.takeWhile (· != 0) = Utf8.encode text
        · obtain ⟨text, htext⟩ := htext
          exact ⟨_, .engine hzero he htext⟩
        · exact ⟨_, .noText hzero he (not_exists.1 htext)⟩

/-- **Only one thing decides about a request.** -/
theorem Reaches.unique {outcome outcome' : Except Fault (E × String)}
    (h : Reaches memory a request outcome) (h' : Reaches memory a request outcome') :
    outcome' = outcome := by
  cases h with
  | noEngine hzero =>
      cases h' with
      | noEngine => rfl
      | noRequest hne | noText hne | engine hne => exact absurd hzero hne
  | noRequest hne =>
      cases h' with
      | noEngine hzero => exact absurd hzero hne
      | noRequest => rfl
  | noText hne he hnone =>
      cases h' with
      | noEngine hzero => exact absurd hzero hne
      | noText => rfl
      | engine _ _ htext => exact absurd htext (hnone _)
  | engine hne he htext =>
      cases h' with
      | noEngine hzero => exact absurd hzero hne
      | noText _ _ hnone => exact absurd htext (hnone _)
      | engine _ he' htext' =>
          rw [he] at he'
          rw [← Utf8.decode?_eq_some_iff] at htext htext'
          rw [htext] at htext'
          cases he'
          cases htext'
          rfl

end

/-! ### What comes of asking an engine -/

/-- The text that comes of asking an engine: what it answers without the zero characters, or a failure that
names the operation. -/
def owed (operation : String) : Attempt String → String
  | .returned s => String.ofList (s.toList.filter (· ≠ '\x00'))
  | .broken => (Envelope.failure (Fault.panicked operation).message).text

/-- **What a host gets of an engine that was asked.** -/
theorem respond_map_ok (operation : String) (answer : Attempt String) :
    respond operation (answer.map .ok) = Utf8.encode (owed operation answer) := by
  cases answer with
  | returned s =>
      simp only [Attempt.map, respond, owed]
      rw [Text.give_eq, Utf8.encode, String.toList_ofList]
  | broken =>
      simp only [Attempt.map, respond, owed]
      exact (Envelope.give_text (.failure (Fault.panicked operation).message)).1

theorem zero_notMem_owed (operation : String) (answer : Attempt String) :
    0 ∉ Utf8.encode (owed operation answer) := by
  cases answer with
  | returned s =>
      intro hmem
      rw [owed, Utf8.encode, String.toList_ofList] at hmem
      have hzero := (Utf8.mem_encodeChars_iff (a := '\x00') (by decide) _).1 hmem
      simp at hzero
  | broken => exact (Envelope.give_text (.failure (Fault.panicked operation).message)).2

/-! ### What a host gets -/

/-- What a host gets under the name of an operation, with an address that it passes. -/
structure InOrder (operation : String) (memory : Memory E) (a : Address) : Prop where
  /-- One thing decides about a request. -/
  decided : ∀ request, ∃! outcome, Reaches memory a request outcome
  /-- If it is not the engine, the host gets a failure that says what it is, and no engine is asked. -/
  refused : ∀ {m : Type → Type} [Monad m] [LawfulMonad m] (ask : E → String → m (Attempt String))
    (request : Option (List UInt8)) (f : Fault), Reaches memory a request (.error f) →
    evaluateBy operation ask (engineAt memory a) request =
      pure (Utf8.encode (Envelope.failure f.message).text)
  /-- If it is the engine, this is asked for the text, and the host gets what is owed for its answer. -/
  asked : ∀ {m : Type → Type} [Monad m] [LawfulMonad m] (ask : E → String → m (Attempt String))
    (request : Option (List UInt8)) (e : E) (text : String), Reaches memory a request (.ok (e, text)) →
    evaluateBy operation ask (engineAt memory a) request =
      (fun answer => Utf8.encode (owed operation answer)) <$> ask e text
  /-- Without a request, only the engine may be missing. -/
  refusedQuery : ∀ {m : Type → Type} [Monad m] [LawfulMonad m] (ask : E → m (Attempt String)), a = 0 →
    queryBy operation ask (engineAt memory a) =
      pure (Utf8.encode (Envelope.failure Fault.nullHandle.message).text)
  askedQuery : ∀ {m : Type → Type} [Monad m] [LawfulMonad m] (ask : E → m (Attempt String)) (e : E),
    a ≠ 0 → memory.engine? a = some e → queryBy operation ask (engineAt memory a) =
      (fun answer => Utf8.encode (owed operation answer)) <$> ask e
  /-- A failure is an envelope with the message of the fault. -/
  written : ∀ f : Fault, Envelope.Written (Utf8.encode (Envelope.failure f.message).text)
    (.error f.message)
  /-- Whatever comes of asking an engine, there is no zero in what the host gets. -/
  unbroken : ∀ answer, 0 ∉ Utf8.encode (owed operation answer)
  /-- Without the zeros of a text there always is something to give. -/
  ended : ∀ s : String, Text.ended? ((Utf8.encode s).filter (· != 0)) = some (Text.give s)

/-- **What a host gets is decided in a fixed order**: by the engine, the request, the text in the request,
and in the end by what comes of asking the engine for this text. -/
theorem decided_in_order (operation : String) {memory : Memory E} {a : Address}
    (ha : memory.Serves a) : InOrder operation memory a where
  decided request := by
    obtain ⟨outcome, houtcome⟩ := exists_reaches ha request
    exact ⟨outcome, houtcome, fun _ h => houtcome.unique h⟩
  refused ask request f h := by
    rw [← (Envelope.give_text (.failure f.message)).1]
    cases h with
    | noEngine hzero =>
        subst hzero
        rw [engineAt_zero, evaluateBy_none]
    | noRequest hne he =>
        rw [engineAt_of_ne hne, he]
        exact evaluateBy_of_error operation ask _ rfl
    | noText hne he hnone =>
        rw [engineAt_of_ne hne, he]
        exact evaluateBy_of_error operation ask _ (Text.take_eq_error_iff.2 ⟨hnone, rfl⟩)
  asked ask request e text h := by
    cases h with
    | engine hne he htext =>
        rw [engineAt_of_ne hne, he, evaluateBy_of_ok operation ask e (Text.take_eq_ok_iff.2 htext)]
        simp only [respond_map_ok]
  refusedQuery ask hzero := by
    rw [← (Envelope.give_text (.failure _)).1, hzero, engineAt_zero, queryBy_none]
  askedQuery ask e hne he := by
    rw [engineAt_of_ne hne, he, queryBy_some]
    simp only [respond_map_ok]
  written f := by
    rw [← (Envelope.give_text (.failure f.message)).1]
    exact Envelope.written_failure f.message
  unbroken := zero_notMem_owed operation
  ended s := by rw [Text.ended?_filter, Text.give_eq_filter]

/-- An engine that keeps what it is asked, and breaks down over one text: the text ends before the first
zero, the zero in the answer is left out, and without a request nothing is kept. -/
theorem decided_in_order_kept :
    let memory : Memory String := ⟨[(1, "e")], 1, []⟩
    let ask (e request : String) : StateM (List String) (Attempt String) := fun kept =>
      (if request = "stop" then .broken else .returned (e ++ "\x00" ++ request), kept ++ [request])
    let failure (message : String) := Utf8.encode (Envelope.failure message).text
    memory.Serves 1 ∧ InOrder "op" memory 1 ∧
      (evaluateBy "op" ask (engineAt memory 1) (some (Utf8.encode "x" ++ [0, 0xFF]))).run [] =
        (Utf8.encode "ex", ["x"]) ∧
      (evaluateBy "op" ask (engineAt memory 1) (some (Utf8.encode "stop"))).run ["x"] =
        (failure "engine panicked during op", ["x", "stop"]) ∧
      (evaluateBy "op" ask (engineAt memory 1) none).run ["x"] =
        (failure "request must not be null", ["x"]) := by
  intro memory ask failure
  have hserves : memory.Serves 1 := .inr ⟨"e", rfl⟩
  have hone : (1 : Address) ≠ 0 := by decide
  have horder : InOrder "op" memory 1 := decided_in_order "op" hserves
  have hx : Reaches memory 1 (some (Utf8.encode "x" ++ [0, 0xFF])) (.ok ("e", "x")) :=
    .engine hone rfl (by decide +kernel)
  have hstop : Reaches memory 1 (some (Utf8.encode "stop")) (.ok ("e", "stop")) :=
    .engine hone rfl (by decide +kernel)
  rw [horder.asked ask _ _ _ hx, horder.asked ask _ _ _ hstop,
    horder.refused ask none _ (.noRequest hone rfl)]
  exact ⟨hserves, horder, Prod.ext (by decide +kernel) rfl, Prod.ext (by decide +kernel) rfl, rfl⟩

end Guard

end FeatureFlags.Host
