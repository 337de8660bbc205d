/-
**Every course that a use of an adapter can take.**

A use of an adapter ends early if a text is not there, or if the runtime cannot view it; a construction
can fail, with a message or without; an answer can be missing, and the copy of it can fail.  Each way
through is a course: what the use returns, what the host is left with, and the steps that are recorded.
Whatever the host and the runtime do, a use takes exactly one of the courses.  So everything about uses
of an adapter is shown for one course after the other, and nothing else looks into the operations.

Actions are put together from simple ones, and so are their steps.

Main definitions:

* `Host.Runtime.view?`, `Host.Runtime.answer` — a text on its way to the host, and an answer on its way
  back;
* `Host.Adapter.Does` — **what an action does**;
* `Host.Adapter.Operation`, `Host.Adapter.Operation.perform` — a use of an adapter;
* `Host.Adapter.Course` — **the courses of a use.**

Main results:

* `Host.Adapter.Does.bind` — one action after another;
* `Host.Adapter.exists_course` — **every use takes a course.**
-/
import FeatureFlags.Host.Adapter

set_option autoImplicit false

namespace FeatureFlags.Host

/-! ### Texts between the runtime and the host -/

/-- What the host is passed for a text of the runtime; one that is not there is passed as such. -/
def Runtime.view? (rt : Runtime) : Option String → Except String (Option (List UInt8))
  | none => .ok none
  | some s => (rt.view s).map some

theorem Runtime.view?_some_eq_ok_iff {rt : Runtime} {s : String} {v : Option (List UInt8)} :
    rt.view? (some s) = .ok v ↔ ∃ bytes, rt.view s = .ok bytes ∧ v = some bytes := by
  rw [view?]
  cases rt.view s with
  | error r => simp [Except.map]
  | ok bytes => simp [Except.map, eq_comm]

theorem Runtime.view?_some_eq_error_iff {rt : Runtime} {s r : String} :
    rt.view? (some s) = .error r ↔ rt.view s = .error r := by
  rw [view?]
  cases rt.view s <;> simp [Except.map]

/-- What the runtime gets for an answer of the host. -/
def Runtime.answer (rt : Runtime) : Option (List UInt8) → Except Adapter.Fault String
  | none => .error .nullResponse
  | some bytes => (rt.copy bytes).mapError .runtime

/-- The state of the host after a returned text, if there is one, was freed. -/
def Native.settle {σ : Type} (n : Native σ) : Option (List UInt8) → σ → σ
  | none, s => s
  | some bytes, s => n.free bytes s

namespace Adapter

/-- The steps of a view around others. -/
def viewed (s : Option String) (es : List Event) : List Event :=
  match s with
  | none => es
  | some _ => .acquire :: es ++ [.release]

/-- The steps of a call that returns a text, or none. -/
def issued (text : Option (List UInt8)) : List Event :=
  .call ::
    match text with
    | none => []
    | some _ => [.issue]

/-- The steps of an answer that is passed on. -/
def answered : Option (List UInt8) → List Event
  | none => []
  | some _ => [.copy, .free]

/-- The steps of a message that is only read. -/
def noted : Option (List UInt8) → List Event
  | none => []
  | some _ => [.free]

/-- The reason for a construction that failed. -/
def reason : Option (List UInt8) → String
  | none => "engine construction failed"
  | some bytes => Utf8.decodeLossy bytes

variable {σ α β : Type}

/-! ### What actions do -/

/-- What an action does: from this state it returns this value, leaves this state and records these
steps, behind whatever was recorded before. -/
def Does (x : Action σ α) (s : σ) (a : α) (s' : σ) (es : List Event) : Prop :=
  ∀ events, x.run ⟨s, events⟩ = (a, ⟨s', events ++ es⟩)

theorem Does.bind {x : Action σ α} {f : α → Action σ β} {s s' s'' : σ} {a : α} {b : β}
    {es es' : List Event} (h : Does x s a s' es) (h' : Does (f a) s' b s'' es') :
    Does (x >>= f) s b s'' (es ++ es') := by
  intro events
  have hrun : (x >>= f).run ⟨s, events⟩ = (f (x.run ⟨s, events⟩).1).run (x.run ⟨s, events⟩).2 := rfl
  rw [hrun, h events, h' (events ++ es), List.append_assoc]

theorem does_pure (a : α) (s : σ) : Does (pure a : Action σ α) s a s [] := by
  intro events
  rw [List.append_nil]
  rfl

/-- An action after which something is returned and nothing else is done. -/
theorem Does.bind_of_pure {x : Action σ α} {f : α → Action σ β} {s s' : σ} {a : α} {b : β}
    {es : List Event} (h : Does x s a s' es) (hf : f a = pure b) : Does (x >>= f) s b s' es := by
  have hdoes := h.bind (f := f) (by rw [hf]; exact does_pure b s')
  rwa [List.append_nil] at hdoes

theorem Does.bind_pure {x : Action σ α} {f : α → β} {s s' : σ} {a : α} {es : List Event}
    (h : Does x s a s' es) : Does (do return f (← x)) s (f a) s' es := h.bind_of_pure rfl

theorem does_record (e : Event) (s : σ) : Does (record e) s () s [e] := fun _ => rfl

theorem does_call (f : σ → α × σ) (s : σ) : Does (call f) s (f s).1 (f s).2 [.call] := fun _ => rfl

theorem does_callForText (f : σ → Option (List UInt8) × σ) (s : σ) :
    Does (callForText f) s (f s).1 (f s).2 (issued (f s).1) := by
  refine (does_call f s).bind ?_
  cases (f s).1 with
  | none => exact does_pure none _
  | some bytes => exact (does_record .issue _).bind_pure

/-- A view of a text, for as long as something else is done. -/
theorem does_withView {rt : Runtime} {text : Option String} {bytes : Option (List UInt8)}
    (action : Option (List UInt8) → Action σ α) {s s' : σ} {a : α} {es : List Event}
    (hview : rt.view? text = .ok bytes) (h : Does (action bytes) s a s' es) :
    Does (withView rt text action) s (.ok a) s' (viewed text es) := by
  cases text with
  | none =>
      cases hview
      exact h.bind_pure
  | some text =>
      obtain ⟨bytes, hbytes, rfl⟩ := Runtime.view?_some_eq_ok_iff.1 hview
      simp only [withView, hbytes]
      refine (does_record .acquire s).bind ?_
      refine h.bind ?_
      exact (does_record .release s').bind_pure

/-- A text that the runtime cannot view. -/
theorem does_withView_error {rt : Runtime} {text : Option String} {r : String}
    {action : Option (List UInt8) → Action σ α} (hview : rt.view? text = .error r) (s : σ) :
    Does (withView rt text action) s (.error (.runtime r)) s [] := by
  cases text with
  | none => cases hview
  | some text =>
      rw [Runtime.view?_some_eq_error_iff] at hview
      simp only [withView, hview]
      exact does_pure _ s

theorem does_freeText (n : Native σ) (bytes : List UInt8) (s : σ) :
    Does (freeText n bytes) s () (n.free bytes s) [.free] := fun _ => rfl

theorem does_copyResponse (n : Native σ) (rt : Runtime) (text : Option (List UInt8)) (s : σ) :
    Does (copyResponse n rt text) s (rt.answer text) (n.settle text s) (answered text) := by
  cases text with
  | none => exact does_pure _ s
  | some bytes => exact (does_record .copy s).bind (does_freeText n bytes s).bind_pure

theorem does_lastError {n : Native σ} {text : Option (List UInt8)} {s s' : σ}
    (hlast : n.lastError s = (text, s')) :
    Does (lastError n) s (reason text) (n.settle text s') (issued text ++ noted text) := by
  have htext := does_callForText n.lastError s
  rw [hlast] at htext
  refine htext.bind ?_
  cases text with
  | none => exact does_pure _ s'
  | some bytes => exact (does_freeText n bytes s').bind_pure

/-! ### Requests and queries -/

section

variable {n : Native σ} {rt : Runtime} {h : Handle} {s s' : σ} {text : Option (List UInt8)}

theorem does_evaluate {kind : Evaluation} {request : Option String} {bytes : Option (List UInt8)}
    (hview : rt.view? request = .ok bytes) (hcall : n.evaluate kind h bytes s = (text, s')) :
    Does (evaluate n rt h kind request) s (rt.answer text) (n.settle text s')
      (viewed request (issued text) ++ answered text) := by
  have hissued := does_callForText (n.evaluate kind h bytes) s
  rw [hcall] at hissued
  exact (does_withView _ hview hissued).bind (does_copyResponse n rt text s')

theorem does_query {kind : Query} (hcall : n.query kind h s = (text, s')) :
    Does (query n rt h kind) s (rt.answer text) (n.settle text s') (issued text ++ answered text) := by
  have hissued := does_callForText (n.query kind h) s
  rw [hcall] at hissued
  exact hissued.bind (does_copyResponse n rt text s')

end

/-! ### Uses of an adapter -/

/-- A use of an adapter. -/
inductive Operation where
  | create (ns options : Option String)
  | evaluate (h : Handle) (kind : Evaluation) (request : Option String)
  | query (h : Handle) (kind : Query)
  | destroy (h : Handle)
  deriving DecidableEq, Repr

/-- What a use of an adapter returns. -/
inductive Reply where
  | handle (outcome : Except Fault Handle)
  | text (outcome : Except Fault String)
  | done

/-- A use of an adapter as an action. -/
def Operation.perform (n : Native σ) (rt : Runtime) : Operation → Action σ Reply
  | .create ns options => do return .handle (← Adapter.create n rt ns options)
  | .evaluate h kind request => do return .text (← Adapter.evaluate n rt h kind request)
  | .query h kind => do return .text (← Adapter.query n rt h kind)
  | .destroy h => do
    Adapter.destroy n h
    return .done

/-- The courses of a use: what it returns, the state it leaves, and its steps. -/
inductive Course (n : Native σ) (rt : Runtime) : Operation → σ → Reply → σ → List Event → Prop
  /-- There are no options. -/
  | noOptions {ns : Option String} {s : σ} :
      Course n rt (.create ns none) s (.handle (.error (.nullArgument "options"))) s []
  /-- The runtime cannot view the namespace. -/
  | unviewedSpace {ns : Option String} {options r : String} {s : σ} : rt.view? ns = .error r →
      Course n rt (.create ns (some options)) s (.handle (.error (.runtime r))) s []
  /-- The runtime can view the namespace but not the options. -/
  | unviewedOptions {ns : Option String} {options r : String} {v : Option (List UInt8)} {s : σ} :
      rt.view? ns = .ok v → rt.view options = .error r →
      Course n rt (.create ns (some options)) s (.handle (.error (.runtime r))) s (viewed ns [])
  | created {ns : Option String} {options : String} {v : Option (List UInt8)} {w : List UInt8}
      {h : Handle} {s s' : σ} : rt.view? ns = .ok v → rt.view options = .ok w →
      n.create v (some w) s = (h, s') → h ≠ 0 →
      Course n rt (.create ns (some options)) s (.handle (.ok h)) s'
        (viewed ns [.acquire, .call, .release])
  /-- The construction failed, and there may be a message about it. -/
  | failed {ns : Option String} {options : String} {v : Option (List UInt8)} {w : List UInt8}
      {text : Option (List UInt8)} {s s' s'' : σ} : rt.view? ns = .ok v → rt.view options = .ok w →
      n.create v (some w) s = (0, s') → n.lastError s' = (text, s'') →
      Course n rt (.create ns (some options)) s (.handle (.error (.construction (reason text))))
        (n.settle text s'') (viewed ns [.acquire, .call, .release] ++ (issued text ++ noted text))
  /-- The runtime cannot view the request. -/
  | unviewedRequest {h : Handle} {kind : Evaluation} {request : Option String} {r : String} {s : σ} :
      rt.view? request = .error r →
      Course n rt (.evaluate h kind request) s (.text (.error (.runtime r))) s []
  | evaluated {h : Handle} {kind : Evaluation} {request : Option String} {v : Option (List UInt8)}
      {text : Option (List UInt8)} {s s' : σ} : rt.view? request = .ok v →
      n.evaluate kind h v s = (text, s') →
      Course n rt (.evaluate h kind request) s (.text (rt.answer text)) (n.settle text s')
        (viewed request (issued text) ++ answered text)
  | queried {h : Handle} {kind : Query} {text : Option (List UInt8)} {s s' : σ} :
      n.query kind h s = (text, s') →
      Course n rt (.query h kind) s (.text (rt.answer text)) (n.settle text s')
        (issued text ++ answered text)
  /-- There is nothing to release. -/
  | noHandle {s : σ} : Course n rt (.destroy 0) s .done s []
  | destroyed {h : Handle} {s : σ} : h ≠ 0 →
      Course n rt (.destroy h) s .done (n.destroy h s) [.call, .destroy]

variable {n : Native σ} {rt : Runtime} {op : Operation} {s s' : σ} {r : Reply} {es : List Event}

/-- Both texts of a construction are viewed while the host is called. -/
theorem does_create_call {ns : Option String} {options : String} {v : Option (List UInt8)}
    {w : List UInt8} {h : Handle} (hns : rt.view? ns = .ok v) (hoptions : rt.view options = .ok w)
    (hcall : n.create v (some w) s = (h, s')) :
    Does (withView rt ns fun ns => withView rt (some options) fun options => call (n.create ns options))
      s (.ok (.ok h)) s' (viewed ns [.acquire, .call, .release]) := by
  have hview : rt.view? (some options) = .ok (some w) :=
    Runtime.view?_some_eq_ok_iff.2 ⟨w, hoptions, rfl⟩
  have hcalled := does_call (n.create v (some w)) s
  rw [hcall] at hcalled
  refine does_withView _ hns ?_
  exact does_withView (fun options => call (n.create v options)) hview hcalled

/-- A use does what its course says. -/
theorem Course.does (h : Course n rt op s r s' es) : Does (op.perform n rt) s r s' es := by
  cases h with
  | noOptions => exact does_pure _ s
  | unviewedSpace hns =>
      refine Does.bind_pure (a := Except.error _) ?_
      exact (does_withView_error hns s).bind (does_pure _ s)
  | @unviewedOptions ns options r v _ hns hoptions =>
      have hview : rt.view? (some options) = .error r := Runtime.view?_some_eq_error_iff.2 hoptions
      have hviews := does_withView (fun ns => withView rt (some options) fun options =>
        call (n.create ns options)) hns (does_withView_error hview s)
      refine Does.bind_pure (a := Except.error _) ?_
      exact hviews.bind_of_pure rfl
  | @created ns options v w h _ _ hns hoptions hcall hh =>
      obtain ⟨k, rfl⟩ := Nat.exists_eq_succ_of_ne_zero hh
      refine Does.bind_pure (a := Except.ok _) ?_
      exact (does_create_call hns hoptions hcall).bind_of_pure rfl
  | failed hns hoptions hcall hlast =>
      refine Does.bind_pure (a := Except.error _) ?_
      exact (does_create_call hns hoptions hcall).bind (does_lastError hlast).bind_pure
  | unviewedRequest hview =>
      refine Does.bind_pure (a := Except.error _) ?_
      exact (does_withView_error hview s).bind (does_pure _ s)
  | evaluated hview hcall => exact (does_evaluate hview hcall).bind_pure
  | queried hcall => exact (does_query hcall).bind_pure
  | noHandle => exact does_pure _ s
  | @destroyed h _ hh =>
      have hdestroy : Does (Adapter.destroy n h) s () (n.destroy h s) [.call, .destroy] := by
        rw [Adapter.destroy, if_pos hh]
        exact (does_call (fun s => ((), n.destroy h s)) s).bind (does_record .destroy _)
      exact hdestroy.bind_pure

/-- **Every use takes a course.** -/
theorem exists_course (n : Native σ) (rt : Runtime) (op : Operation) (s : σ) :
    ∃ r s' es, Course n rt op s r s' es := by
  cases op with
  | create ns options =>
      cases options with
      | none => exact ⟨_, _, _, .noOptions⟩
      | some options =>
          cases hns : rt.view? ns with
          | error reason => exact ⟨_, _, _, .unviewedSpace hns⟩
          | ok v =>
              cases hoptions : rt.view options with
              | error reason => exact ⟨_, _, _, .unviewedOptions hns hoptions⟩
              | ok w =>
                  by_cases hh : (n.create v (some w) s).1 = 0
                  · exact ⟨_, _, _, .failed hns hoptions (Prod.ext hh rfl) rfl⟩
                  · exact ⟨_, _, _, .created hns hoptions rfl hh⟩
  | evaluate h kind request =>
      cases hview : rt.view? request with
      | error reason => exact ⟨_, _, _, .unviewedRequest hview⟩
      | ok v => exact ⟨_, _, _, .evaluated hview rfl⟩
  | query h kind => exact ⟨_, _, _, .queried rfl⟩
  | destroy h =>
      by_cases hh : h = 0
      · subst hh
        exact ⟨_, _, _, .noHandle⟩
      · exact ⟨_, _, _, .destroyed hh⟩

end Adapter

end FeatureFlags.Host
