/-
**The last error of a thread.**

A host that asks for an engine and gets none may ask why.  What it is told is the message of the last
construction that its thread asked for: it is there if that construction failed, until it is taken once or
until the thread asks for another engine.  Calls for engines that there are, or that there are not, have no
part in it, and neither has what other threads do.

Calls of several threads stand in a run in the order in which they are carried out.  What one call does to
what waits for a thread is said in one equation, and the rest is found by going back through the run.

Main definitions:

* `Host.Session.Call`, `Host.Session.perform` — the calls of a host, and what one of them does;
* `Host.Session.told` — what a thread is told if it asks after a run;
* `Host.Session.Waits` — **the message that waits for a thread.**

Main results:

* `Host.Text.give_eq` — a text for a host is the text without zeros;
* `Host.Session.message?_perform` — what one call does to what waits;
* `Host.Session.message?_after` — **what waits for a thread after a run**;
* `Host.Session.told_of_run` — **a thread is told why its last construction failed, once.**
-/
import Mathlib.Data.List.Basic
import Mathlib.Data.List.Induction
import FeatureFlags.Host.Session
import FeatureFlags.Proofs.Utf8

set_option autoImplicit false

namespace FeatureFlags.Host

/-! ### Texts for a host -/

namespace Text

/-- **A text for a host is the text without its zeros.** -/
theorem give_eq (s : String) : give s = Utf8.encodeChars (s.toList.filter (· ≠ '\x00')) := by
  rw [give_eq_filter, Utf8.encode]
  induction s.toList with
  | nil => rfl
  | cons c cs ih =>
      rw [Utf8.encodeChars_cons, List.filter_append, ih, List.filter_cons]
      by_cases hc : c = '\x00'
      · subst hc
        rfl
      · have hbytes : ∀ b ∈ String.utf8EncodeChar c, (b != 0) = true := by
          intro b hb
          rw [bne_iff_ne]
          rintro rfl
          exact hc ((Utf8.mem_encodeChar_iff (a := '\x00') (by decide) c).1 hb)
        rw [List.filter_eq_self.2 hbytes, if_pos (by simpa using hc), Utf8.encodeChars_cons]

theorem give_append (s t : String) : give (s ++ t) = give s ++ give t := by
  rw [give_eq, give_eq, give_eq, String.toList_append, List.filter_append, Utf8.encodeChars_append]

/-- No fault leaves a host without a message. -/
theorem give_message_ne_nil (f : Fault) : give f.message ≠ [] := by
  have hpart : give "error engine null pointer" ≠ [] ∧ give " must not be null" ≠ [] ∧
      give " is not valid UTF-8" ≠ [] ∧ give "engine construction failed: " ≠ [] ∧
      give "engine panicked during " ≠ [] := by decide +kernel
  obtain ⟨hnull, hargument, hutf8, hconstruction, hpanicked⟩ := hpart
  cases f with
  | nullHandle => exact hnull
  | nullArgument what =>
      change give (what ++ " must not be null") ≠ []
      rw [give_append]
      exact List.append_ne_nil_of_right_ne_nil _ hargument
  | invalidUtf8 what =>
      change give (what ++ " is not valid UTF-8") ≠ []
      rw [give_append]
      exact List.append_ne_nil_of_right_ne_nil _ hutf8
  | construction reason =>
      change give ("engine construction failed: " ++ reason) ≠ []
      rw [give_append]
      exact List.append_ne_nil_of_left_ne_nil hconstruction _
  | panicked operation =>
      change give ("engine panicked during " ++ operation) ≠ []
      rw [give_append]
      exact List.append_ne_nil_of_left_ne_nil hpanicked _

end Text

namespace Session

/-! ### Calls -/

/-- The construction that a host asks for, which may break down. -/
def construction (read : Reader) (ns options : Option (List UInt8)) (breaks : Bool) :
    Attempt (Except Fault Engine) :=
  if breaks then .broken else .returned (construct read ns options)

/-- An engine is opened by a construction that does not break down. -/
theorem open?_eq (read : Reader) (t : Thread) (ns options : Option (List UInt8)) (s : Session) :
    open? read t ns options s = s.create t (construction read ns options false) := rfl

/-- What a host can ask for. -/
inductive Call where
  | create (read : Reader) (ns options : Option (List UInt8)) (breaks : Bool)
  | evaluate (h : Handle) (kind : Evaluation) (request : Option (List UInt8)) (clock : Clock)
  | query (h : Handle) (kind : Query)
  | destroy (h : Handle)
  | destroyString (text : Option (List UInt8))
  | lastError

/-- What a host gets for a call. -/
inductive Reply where
  | engine (h : Handle)
  | text (bytes : Option (List UInt8))
  | nothing
  deriving DecidableEq, Repr

/-- What a thread gets for a call, and what becomes of the host. -/
def perform (t : Thread) (s : Session) : Call → Reply × Session
  | .create read ns options breaks =>
    let (h, s) := s.create t (construction read ns options breaks)
    (.engine h, s)
  | .evaluate h kind request clock => (.text (some (s.evaluate h kind request clock)), s)
  | .query h kind => (.text (some (s.query h kind)), s)
  | .destroy h => (.nothing, s.destroy h)
  | .destroyString _ => (.nothing, s)
  | .lastError =>
    let (message, s) := s.takeError t
    (.text message, s)

/-- The host after the calls of a run. -/
def after (s : Session) (run : List (Thread × Call)) : Session :=
  run.foldl (fun s x => (s.perform x.1 x.2).2) s

theorem after_concat (s : Session) (run : List (Thread × Call)) (x : Thread × Call) :
    s.after (run ++ [x]) = ((s.after run).perform x.1 x.2).2 := by
  rw [after, List.foldl_append]
  rfl

/-- What a thread is told if it asks for its last error after a run. -/
def told (t : Thread) (run : List (Thread × Call)) : Reply := ((start.after run).perform t .lastError).1

namespace Call

/-- Why a call gives no engine, if it asks for one. -/
def fault? : Call → Option Fault
  | .create read ns options breaks =>
    match Guard.create (construction read ns options breaks) with
    | .ok _ => none
    | .error f => some f
  | _ => none

/-- The call asks for an engine or for the last error. -/
def touches : Call → Bool
  | .create .. => true
  | .lastError => true
  | _ => false

theorem touches_of_fault? {c : Call} {f : Fault} (h : c.fault? = some f) : c.touches = true := by
  cases c <;> first | rfl | cases h

end Call

/-- The last construction that a thread asked for failed, and the thread has not asked why. -/
def Waits (t : Thread) (run : List (Thread × Call)) (f : Fault) : Prop :=
  ∃ before c after, run = before ++ (t, c) :: after ∧ c.fault? = some f ∧
    ∀ x ∈ after, x.1 = t → x.2.touches = false

/-! ### One call -/

/-- The message that waits for a thread. -/
def message? (s : Session) (t : Thread) : Option String := s.errors.lookup t

theorem lookup_withoutError (s : Session) (t t' : Thread) :
    (s.withoutError t).lookup t' = if t' = t then none else s.message? t' :=
  lookup_filter_key s.errors t t'

theorem message?_create (s : Session) (t t' : Thread) (construction : Attempt (Except Fault Engine)) :
    (s.create t construction).2.message? t' =
      if t' = t then
        match Guard.create construction with
        | .ok _ => none
        | .error f => some f.message
      else s.message? t' := by
  rw [create]
  cases Guard.create construction with
  | ok e => exact s.lookup_withoutError t t'
  | error f =>
      refine (lookup_replace s.errors t t' f.message).trans ?_
      by_cases h : t' = t
      · rw [if_pos h, if_pos h]
      · rw [if_neg h, if_neg h]
        rfl

/-- **What one call does to what waits for a thread.**  It leaves it, unless it is a call of that thread that
asks for an engine or for the last error. -/
theorem message?_perform (s : Session) (t t' : Thread) (c : Call) :
    (s.perform t c).2.message? t' =
      if t' = t ∧ c.touches = true then c.fault?.map Fault.message else s.message? t' := by
  cases c with
  | create read ns options breaks =>
      rw [perform, message?_create, Call.fault?]
      by_cases h : t' = t
      · cases Guard.create (construction read ns options breaks) <;> simp [h, Call.touches]
      · simp [h]
  | evaluate h kind request clock => simp [perform, Call.touches]
  | query h kind => simp [perform, Call.touches]
  | destroy h => simp [perform, destroy, message?, Call.touches]
  | destroyString text => simp [perform, Call.touches]
  | lastError =>
      have htaken : (s.perform t .lastError).2.message? t' = (s.withoutError t).lookup t' := rfl
      rw [htaken, lookup_withoutError]
      simp [Call.touches, Call.fault?]

/-! ### Runs -/

/-- **What waits after one more call.** -/
theorem waits_concat (t : Thread) (run : List (Thread × Call)) (x : Thread × Call) (f : Fault) :
    Waits t (run ++ [x]) f ↔
      if t = x.1 ∧ x.2.touches = true then x.2.fault? = some f else Waits t run f := by
  constructor
  · rintro ⟨before, c, after, hrun, hf, hafter⟩
    rcases after.eq_nil_or_concat' with rfl | ⟨rest, y, rfl⟩
    · -- the construction is the last call
      obtain ⟨-, hx⟩ := List.append_inj' hrun rfl
      obtain rfl := List.singleton_inj.1 hx
      rw [if_pos ⟨rfl, Call.touches_of_fault? hf⟩]
      exact hf
    · rw [← List.cons_append, ← List.append_assoc] at hrun
      obtain ⟨hbefore, hx⟩ := List.append_inj' hrun rfl
      obtain rfl := List.singleton_inj.1 hx
      rw [if_neg]
      · exact ⟨before, c, rest, hbefore, hf, fun z hz => hafter z (List.mem_append_left _ hz)⟩
      · rintro ⟨ht, htouches⟩
        rw [hafter x (by simp) ht.symm] at htouches
        cases htouches
  · split
    · next h =>
        intro hf
        refine ⟨run, x.2, [], ?_, hf, by simp⟩
        rw [h.1]
    · next h =>
        rintro ⟨before, c, after, rfl, hf, hafter⟩
        refine ⟨before, c, after ++ [x], by simp, hf, fun z hz hzt => ?_⟩
        rcases List.mem_append.1 hz with hz | hz
        · exact hafter z hz hzt
        · obtain rfl := List.mem_singleton.1 hz
          exact Bool.eq_false_iff.2 fun htouches => h ⟨hzt.symm, htouches⟩

/-- **What waits for a thread after a run.** -/
theorem message?_after (t : Thread) (run : List (Thread × Call)) (m : String) :
    (start.after run).message? t = some m ↔ ∃ f, Waits t run f ∧ f.message = m := by
  induction run using List.reverseRecOn with
  | nil => simp [after, start, message?, Waits]
  | append_singleton run x ih =>
      rw [after_concat, message?_perform]
      simp only [waits_concat]
      by_cases h : t = x.1 ∧ x.2.touches = true
      · simp [h]
      · simp only [if_neg h, ih]

theorem told_eq (t : Thread) (run : List (Thread × Call)) :
    told t run = .text (((start.after run).message? t).map Text.give) := rfl

/-- There is always a handle for another engine. -/
theorem next_pos (run : List (Thread × Call)) : 0 < (start.after run).next := by
  induction run using List.reverseRecOn with
  | nil => exact Nat.one_pos
  | append_singleton run x ih =>
      rw [after_concat]
      cases x.2 with
      | create read ns options breaks =>
          rw [perform, create]
          cases Guard.create (construction read ns options breaks) with
          | ok e => exact Nat.succ_pos _
          | error f => exact ih
      | _ => exact ih

/-- A host gets the handle of no engine exactly for a construction that failed. -/
theorem perform_eq_engine_zero_iff {s : Session} (hnext : 0 < s.next) (t : Thread) (c : Call) :
    (s.perform t c).1 = .engine 0 ↔ ∃ f, c.fault? = some f := by
  cases c with
  | create read ns options breaks =>
      rw [perform, create, Call.fault?]
      cases Guard.create (construction read ns options breaks) with
      | ok e => simp [Nat.ne_of_gt hnext]
      | error f => simp
  | _ => simp [perform, Call.fault?]

/-- **A thread is told why its last construction failed, once.**  The text is never empty and lacks nothing
but zeros.  Other calls and other threads have no part in it; and nothing is told after an engine was built,
or after it was told. -/
theorem told_of_run (t : Thread) (run : List (Thread × Call)) :
    (∀ f, Waits t run f → told t run = .text (some (Text.give f.message)) ∧ Text.give f.message ≠ [] ∧
        Text.give f.message = Utf8.encodeChars (f.message.toList.filter (· ≠ '\x00'))) ∧
      ((∀ f, ¬Waits t run f) → told t run = .text none) ∧
      (∀ x : Thread × Call, x.1 ≠ t ∨ x.2.touches = false → told t (run ++ [x]) = told t run) ∧
      (∀ c : Call, c.touches = true → c.fault? = none → told t (run ++ [(t, c)]) = .text none) ∧
      ∀ c : Call, ((start.after run).perform t c).1 = .engine 0 ↔ ∃ f, c.fault? = some f := by
  refine ⟨fun f hf => ⟨?_, Text.give_message_ne_nil f, Text.give_eq f.message⟩, fun hnone => ?_,
    fun x hx => ?_, fun c hc hf => ?_, perform_eq_engine_zero_iff (next_pos run) t⟩
  · rw [told_eq, (message?_after t run f.message).2 ⟨f, hf, rfl⟩]
    rfl
  · have hmessage : (start.after run).message? t = none := by
      rw [Option.eq_none_iff_forall_ne_some]
      intro m hm
      obtain ⟨f, hf, -⟩ := (message?_after t run m).1 hm
      exact hnone f hf
    rw [told_eq, hmessage]
    rfl
  · have hother : ¬(t = x.1 ∧ x.2.touches = true) := by
      rintro ⟨rfl, htouches⟩
      rcases hx with hne | hnot
      · exact hne rfl
      · rw [hnot] at htouches
        cases htouches
    rw [told_eq, told_eq, after_concat, message?_perform, if_neg hother]
  · rw [told_eq, after_concat, message?_perform, if_pos ⟨rfl, hc⟩, hf]
    rfl

/-- Two threads fail in different ways, and one of them asks of no engine.  It is told its own failure. -/
theorem told_of_run_two_threads :
    let read : Reader := fun _ => .ok []
    let run : List (Thread × Call) :=
      [(1, .create read none none false), (2, .create read none none true), (1, .query 0 .list)]
    Waits 1 run (.nullArgument "options") ∧
      told 1 run = .text (some (Text.give "options must not be null")) ∧
      told 1 (run ++ [(1, .lastError)]) = .text none := by
  intro read run
  have hwaits : Waits 1 run (.nullArgument "options") :=
    ⟨[], .create read none none false, _, rfl, rfl, by simp [Call.touches]⟩
  obtain ⟨htold, -, -, hnone, -⟩ := told_of_run 1 run
  exact ⟨hwaits, (htold _ hwaits).1, hnone .lastError rfl rfl⟩

end Session

end FeatureFlags.Host
