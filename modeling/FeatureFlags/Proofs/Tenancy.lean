/-
**An engine in the hands of a host is released once.**

A host holds an engine by an address and forgets the address when it releases the engine.  In between it
calls with the address or without, as often as it likes, and every call makes a handle of the address
and lets go of it again.  The engine may break down in any call, its construction and its release
included.

All that calls do to what the host holds is one step: the first release with the address leaves the host
without one, and before and after it nothing changes.  So the engine is released once or not at all, no
call reaches behind an address whose engine is gone, and apart from that step the answers to calls do
not depend on other calls.

A release is more than an entry in a record.  It takes the engine that stands behind the address out of
memory, and what it takes out is what it releases: nothing is lost on the way, and nothing is released
that is still there.

Main definitions:

* `Host.Memory.all` — the engines that are there and those that were released;
* `Host.Visit`, `Host.Visit.Releases` — a call of a host, and one that releases its engine;
* `Host.Tenancy.visit` — **the answer to a call, and what the host holds after it**;
* `Host.Tenancy.answers`, `Host.Tenancy.after` — the answers to several calls, and what they leave;
* `Host.Tenancy.Sound` — **what a host can rely on.**

Main results:

* `Host.Memory.all_without` — a release loses no engine;
* `Host.Guard.throughHandle_eq` — a call leaves the memory as it was;
* `Host.Guard.destroy_eq` — a release that breaks down is one all the same;
* `Host.Tenancy.next_eq` — what one call does;
* `Host.Tenancy.after_eq` — **what any number of calls does**;
* `Host.Tenancy.answers_erase_of_not` — a call that releases nothing has no part in the answers to others;
* `Host.Tenancy.released_once` — **an engine in the hands of a host is released once.**
-/
import Mathlib.Data.List.Nodup
import FeatureFlags.Host.Guard

set_option autoImplicit false

namespace FeatureFlags.Host

variable {E : Type}

/-! ### Releases in memory -/

namespace Memory

/-- The memory after the engine behind an address was released; zero is the address of none. -/
def without (m : Memory E) (a : Address) : Memory E :=
  match EngineHandle.ofRaw? a with
  | none => m
  | some h => h.destroy m

theorem without_zero (m : Memory E) : m.without 0 = m := rfl

theorem without_of_none {m : Memory E} {a : Address} (h : m.engine? a = none) : m.without a = m := by
  rw [without, EngineHandle.ofRaw?]
  by_cases ha : a = 0
  · simp only [dif_pos ha]
  · have hnone : (EngineHandle.mk a ha).engine? m = none := h
    simp only [dif_neg ha, EngineHandle.destroy, hnone]

theorem without_of_some {m : Memory E} {a : Address} {e : E} (ha : a ≠ 0) (h : m.engine? a = some e) :
    m.without a = ⟨m.engines.filter fun p => p.1 != a, m.count, m.released ++ [e]⟩ := by
  have hsome : (EngineHandle.mk a ha).engine? m = some e := h
  simp only [without, EngineHandle.ofRaw?, dif_neg ha, EngineHandle.destroy, hsome]

/-- What was released, with what stood behind the address. -/
theorem released_without (m : Memory E) {a : Address} (ha : a ≠ 0) :
    (m.without a).released = m.released ++ (m.engine? a).toList := by
  cases h : m.engine? a with
  | none => rw [without_of_none h, Option.toList_none, List.append_nil]
  | some e => rw [without_of_some ha h, Option.toList_some]

/-- **Nothing stands behind the address of an engine that was released**, and nothing else is missed. -/
theorem engine?_without (m : Memory E) {a : Address} (ha : a ≠ 0) (b : Address) :
    (m.without a).engine? b = if b = a then none else m.engine? b := by
  cases h : m.engine? a with
  | none =>
      rw [without_of_none h]
      split
      · next hb => rw [hb, h]
      · rfl
  | some e =>
      rw [without_of_some ha h]
      exact lookup_filter_key m.engines a b

/-- The engines that are there, and those that were released. -/
def all (m : Memory E) : List E := m.engines.map Prod.snd ++ m.released

/-- An entry may be put in front of the others. -/
theorem perm_of_lookup {entries : List (Address × E)} (hnodup : (entries.map Prod.fst).Nodup)
    {a : Address} {e : E} (h : entries.lookup a = some e) :
    ((a, e) :: entries.filter fun p => p.1 != a).Perm entries := by
  induction entries with
  | nil => cases h
  | cons p entries ih =>
      obtain ⟨b, e'⟩ := p
      rw [List.map_cons, List.nodup_cons] at hnodup
      rw [List.lookup_cons] at h
      by_cases hab : a = b
      · subst hab
        rw [beq_self_eq_true] at h
        cases h
        have hothers : (entries.filter fun p => p.1 != a) = entries := by
          rw [List.filter_eq_self]
          intro p hp
          rw [bne_iff_ne]
          rintro rfl
          exact hnodup.1 (List.mem_map.2 ⟨p, hp, rfl⟩)
        rw [List.filter_cons_of_neg (by simp), hothers]
      · rw [beq_false_of_ne hab] at h
        rw [List.filter_cons_of_pos (by simpa using Ne.symm hab)]
        exact (List.Perm.swap ..).trans ((ih hnodup.2 h).cons _)

/-- **A release loses no engine**, and releases none that is still there. -/
theorem all_without {m : Memory E} (hnodup : (m.engines.map Prod.fst).Nodup) (a : Address) :
    (m.without a).all.Perm m.all := by
  by_cases ha : a = 0
  · rw [ha, without_zero]
  · cases h : m.engine? a with
    | none => rw [without_of_none h]
    | some e =>
        have hperm : (e :: (m.engines.filter fun p => p.1 != a).map Prod.snd).Perm
            (m.engines.map Prod.snd) := (perm_of_lookup hnodup h).map Prod.snd
        rw [without_of_some ha h, all, all]
        refine List.Perm.trans ?_ (hperm.append_right m.released)
        rw [← List.append_assoc, List.cons_append]
        exact List.perm_append_singleton e _

end Memory

/-- **A call leaves the memory as it was**, and looks at the engine behind the address. -/
theorem Guard.throughHandle_eq {α : Type} (a : Address) (call : Option E → α) (m : Memory E) :
    throughHandle a call m = (call (engineAt m a), m) := by
  rw [throughHandle, engineAt]
  cases EngineHandle.ofRaw? a <;> rfl

/-- **A release that breaks down is one all the same.** -/
theorem Guard.destroy_eq (s : Service E) (a : Address) (m : Memory E) : destroy s a m = m.without a := by
  rw [destroy, Memory.without]
  cases EngineHandle.ofRaw? a with
  | none => rfl
  | some h =>
      cases hengine : h.engine? m with
      | none => simp only [hengine, Option.map_none]
      | some e =>
          cases hrelease : s.release e with
          | returned u => simp only [hengine, Option.map_some, hrelease]
          | broken => simp only [hengine, Option.map_some, hrelease]

/-! ### Calls of a host -/

/-- What a host can ask for. -/
inductive Call where
  | evaluate (kind : Evaluation) (request : Option (List UInt8))
  | query (kind : Query)
  | destroy
  deriving DecidableEq, Repr

/-- A call of a host: how the engine behaves in it, whether the host passes its address or zero, and
what it asks for. -/
structure Visit (E : Type) where
  service : Service E
  held : Bool
  call : Call

namespace Visit

/-- A visit releases the engine, if there is one. -/
def Releases (v : Visit E) : Prop := v.held = true ∧ v.call = .destroy

instance (v : Visit E) : Decidable v.Releases := inferInstanceAs (Decidable (_ ∧ _))

/-- The same visit, with zero in place of the address. -/
def emptyHanded (v : Visit E) : Visit E := { v with held := false }

end Visit

namespace Tenancy

/-- The address that the host passes. -/
def passed (t : Tenancy E) (v : Visit E) : Address := if v.held then t.handle else 0

/-- The answer to a visit, and what the host holds after it.  A release has no answer, and the host
forgets the address that it passed to be released. -/
def visit (t : Tenancy E) (v : Visit E) : Option (List UInt8) × Tenancy E :=
  match v.call with
  | .evaluate kind request =>
    let (bytes, memory) :=
      Guard.throughHandle (t.passed v) (Guard.evaluate v.service · kind request) t.memory
    (some bytes, { t with memory })
  | .query kind =>
    let (bytes, memory) := Guard.throughHandle (t.passed v) (Guard.query v.service · kind) t.memory
    (some bytes, { t with memory })
  | .destroy =>
    (none,
      if v.held then t.destroy v.service
      else { t with memory := Guard.destroy v.service 0 t.memory })

/-- The answer to a visit. -/
def answer (t : Tenancy E) (v : Visit E) : Option (List UInt8) := (t.visit v).1

/-- What the host holds after a visit. -/
def next (t : Tenancy E) (v : Visit E) : Tenancy E := (t.visit v).2

/-- What the host holds after several visits. -/
def after (t : Tenancy E) (vs : List (Visit E)) : Tenancy E := vs.foldl next t

/-- The answers to several visits. -/
def answers (t : Tenancy E) : List (Visit E) → List (Option (List UInt8))
  | [] => []
  | v :: vs => t.answer v :: answers (t.next v) vs

/-- What the host leaves when it releases what it holds. -/
def left (t : Tenancy E) : Tenancy E := { t with memory := t.memory.without t.handle, handle := 0 }

variable {t : Tenancy E} {v : Visit E}

/-! ### One visit -/

/-- **What one visit does.** -/
theorem next_eq (t : Tenancy E) (v : Visit E) : t.next v = if v.Releases then t.left else t := by
  obtain ⟨service, held, call⟩ := v
  cases call with
  | evaluate kind request => simp [next, visit, Guard.throughHandle_eq, Visit.Releases]
  | query kind => simp [next, visit, Guard.throughHandle_eq, Visit.Releases]
  | destroy =>
      cases held with
      | false => simp [next, visit, Visit.Releases, Guard.destroy_eq, Memory.without_zero]
      | true => simp [next, visit, left, Tenancy.destroy, Visit.Releases, Guard.destroy_eq]

/-- **The answer to a visit**: that of the engine behind the address that is passed. -/
theorem answer_eq (t : Tenancy E) (v : Visit E) :
    t.answer v =
      match v.call with
      | .evaluate kind request =>
        some (Guard.evaluate v.service (Guard.engineAt t.memory (t.passed v)) kind request)
      | .query kind => some (Guard.query v.service (Guard.engineAt t.memory (t.passed v)) kind)
      | .destroy => none := by
  rw [answer, visit]
  cases v.call <;> simp only [Guard.throughHandle_eq]

/-- A host that holds nothing leaves nothing. -/
theorem left_of_handle (h : t.handle = 0) : t.left = t := by
  obtain ⟨memory, handle, lastError⟩ := t
  subst h
  rfl

theorem next_of_not (h : ¬v.Releases) : t.next v = t := by rw [next_eq, if_neg h]

theorem next_of_handle (h : t.handle = 0) (v : Visit E) : t.next v = t := by
  rw [next_eq, left_of_handle h, ite_self]

/-- The engine that a host holds stands behind its address. -/
theorem engine_of_handle (h : t.handle ≠ 0) : t.engine = t.memory.engine? t.handle := by
  rw [engine, Guard.engineAt, EngineHandle.ofRaw?, dif_neg h]
  rfl

/-- What was released, after one visit more. -/
theorem next_released (t : Tenancy E) (v : Visit E) :
    (t.next v).memory.released =
      if t.handle ≠ 0 ∧ v.Releases then t.memory.released ++ t.engine.toList
      else t.memory.released := by
  by_cases hv : v.Releases
  · by_cases hh : t.handle = 0
    · rw [next_of_handle hh, if_neg (fun h => h.1 hh)]
    · rw [next_eq, if_pos hv, if_pos ⟨hh, hv⟩, engine_of_handle hh]
      exact t.memory.released_without hh
  · rw [next_of_not hv, if_neg (fun h => hv h.2)]

/-! ### Several visits -/

theorem after_cons (t : Tenancy E) (v : Visit E) (vs : List (Visit E)) :
    t.after (v :: vs) = (t.next v).after vs := rfl

theorem after_of_handle (h : t.handle = 0) (vs : List (Visit E)) : t.after vs = t := by
  induction vs with
  | nil => rfl
  | cons v vs ih => rw [after_cons, next_of_handle h, ih]

/-- **What any number of visits does**: what the host holds is left, if one of them releases it. -/
theorem after_eq (t : Tenancy E) (vs : List (Visit E)) :
    t.after vs = if ∃ v ∈ vs, v.Releases then t.left else t := by
  induction vs with
  | nil => rw [if_neg (by simp)]; rfl
  | cons v vs ih =>
      rw [after_cons]
      by_cases hv : v.Releases
      · -- nothing is held any more, and so the visits that follow change nothing
        rw [next_eq, if_pos hv, after_of_handle rfl, if_pos ⟨v, List.mem_cons_self, hv⟩]
      · rw [next_of_not hv, ih]
        simp only [List.mem_cons, exists_eq_or_imp, hv, false_or]

theorem answers_append (t : Tenancy E) (vs ws : List (Visit E)) :
    t.answers (vs ++ ws) = t.answers vs ++ (t.after vs).answers ws := by
  induction vs generalizing t with
  | nil => rfl
  | cons v vs ih => rw [List.cons_append, answers, answers, ih, after_cons, List.cons_append]

theorem length_answers (t : Tenancy E) (vs : List (Visit E)) : (t.answers vs).length = vs.length := by
  induction vs generalizing t with
  | nil => rfl
  | cons v vs ih => rw [answers, List.length_cons, ih, List.length_cons]

/-- The answers to the visits before one and behind it. -/
theorem answers_erase (t : Tenancy E) (vs ws : List (Visit E)) (v : Visit E) :
    (t.answers (vs ++ v :: ws)).eraseIdx vs.length =
      t.answers vs ++ ((t.after vs).next v).answers ws := by
  rw [answers_append, answers, ← length_answers t vs, List.eraseIdx_append_of_length_le (Nat.le_refl _),
    Nat.sub_self]
  rfl

/-- A host that holds nothing is answered like one that passes nothing. -/
theorem answers_of_handle {s : Tenancy E} (h : s.handle = 0) (t : Tenancy E) (ws : List (Visit E)) :
    s.answers ws = t.answers (ws.map Visit.emptyHanded) := by
  induction ws with
  | nil => rfl
  | cons w ws ih =>
      have hpassed : s.passed w = 0 := by rw [passed, h, ite_self]
      have hanswer : s.answer w = t.answer w.emptyHanded := by
        rw [answer_eq, answer_eq, hpassed]
        rfl
      rw [List.map_cons, answers, answers, hanswer, next_of_handle h, ih,
        next_of_not (v := w.emptyHanded) (fun h => nomatch h.1)]

/-- **A visit that releases nothing has no part in the answers to the others.** -/
theorem answers_erase_of_not (t : Tenancy E) (vs ws : List (Visit E)) (h : ¬v.Releases) :
    (t.answers (vs ++ v :: ws)).eraseIdx vs.length = t.answers (vs ++ ws) := by
  rw [answers_erase, next_of_not h, answers_append]

/-- A visit that releases the engine, whether it breaks down or not, has no part in the answers to the
others either, except that the host has no address to pass any more. -/
theorem answers_erase_of_releases (t : Tenancy E) (vs ws : List (Visit E)) (h : v.Releases) :
    (t.answers (vs ++ v :: ws)).eraseIdx vs.length = t.answers (vs ++ ws.map Visit.emptyHanded) := by
  have hleft : ((t.after vs).next v).handle = 0 := by
    rw [next_eq, if_pos h]
    rfl
  rw [answers_erase, answers_of_handle hleft (t.after vs), answers_append]

/-! ### Visits in which the engine breaks down -/

/-- An evaluation that breaks down is answered by a failure that names it. -/
theorem answer_of_broken {kind : Evaluation} {request : Option (List UInt8)} {text : String} {e : E}
    (hcall : v.call = .evaluate kind request) (hengine : Guard.engineAt t.memory (t.passed v) = some e)
    (htext : Text.take "request" request = .ok text) (h : v.service.evaluate e kind text = .broken) :
    t.answer v = some (Text.give (Envelope.failure (Fault.panicked kind.exported).message).text) := by
  simp only [answer_eq, hcall, hengine, Guard.evaluate, Guard.evaluateBy_of_ok _ _ _ htext, h, map_pure,
    Id.run_pure]
  rfl

/-- A query that breaks down is answered by a failure that names it. -/
theorem answer_of_brokenQuery {kind : Query} {e : E} (hcall : v.call = .query kind)
    (hengine : Guard.engineAt t.memory (t.passed v) = some e) (h : v.service.query e kind = .broken) :
    t.answer v = some (Text.give (Envelope.failure (Fault.panicked kind.exported).message).text) := by
  simp only [answer_eq, hcall, hengine, Guard.query, Guard.queryBy_some, h, map_pure, Id.run_pure]
  rfl

/-! ### What a host can rely on -/

/-- The engine that a construction yields, if it yields one. -/
def yielded : Attempt (Except Fault E) → Option E
  | .returned (.ok e) => some e
  | .returned (.error _) => none
  | .broken => none

/-- What a host can rely on after a construction. -/
structure Sound (c : Attempt (Except Fault E)) : Prop where
  /-- There is an address exactly if the construction yields an engine. -/
  created : (build c).handle ≠ 0 ↔ ∃ e, c = .returned (.ok e)
  /-- It is the address of this engine, and no error is left. -/
  holds : ∀ e, c = .returned (.ok e) → (build c).engine = some e ∧ (build c).lastError = none
  /-- A construction that fails leaves its error, and so does one that breaks down. -/
  refused : ∀ f, c = .returned (.error f) → (build c).lastError = some f.message
  collapsed : c = .broken → (build c).lastError = some (Fault.panicked "initialization").message
  /-- The engine is released once at most, and only if a visit releases it. -/
  released : ∀ vs, ((build c).after vs).memory.released =
    if ∃ v ∈ vs, v.Releases then (yielded c).toList else []
  /-- Until then it stands behind its address, and from then on nothing does. -/
  stands : ∀ vs, ((build c).after vs).memory.engine? (build c).handle =
    if ∃ v ∈ vs, v.Releases then none else yielded c
  /-- It is never lost: in memory and among what was released there is this one engine and no other. -/
  accounted : ∀ vs, ((build c).after vs).memory.all.Perm (yielded c).toList
  /-- It is released just when a host that has an address first passes it to be released. -/
  first : ∀ vs v, let t := (build c).after vs
    (t.next v).memory.released =
      if t.handle ≠ 0 ∧ v.Releases then t.memory.released ++ t.engine.toList else t.memory.released
  /-- It does not matter if the release breaks down. -/
  releasedAlike : ∀ (t : Tenancy E) (s s' : Service E), t.destroy s = t.destroy s'
  /-- Any other visit leaves everything as it was. -/
  kept : ∀ vs v, ¬v.Releases → ((build c).after vs).next v = (build c).after vs
  /-- As long as the host has an address, the engine is there. -/
  live : ∀ vs, ((build c).after vs).handle = 0 ∨
    ∃ e, c = .returned (.ok e) ∧ ((build c).after vs).engine = some e
  /-- An evaluation that breaks down is answered by a failure that names it, and so is a query. -/
  answered : ∀ vs v e,
    Guard.engineAt ((build c).after vs).memory (((build c).after vs).passed v) = some e →
    (∀ kind request text, v.call = .evaluate kind request → Text.take "request" request = .ok text →
      v.service.evaluate e kind text = .broken → ((build c).after vs).answer v =
        some (Text.give (Envelope.failure (Fault.panicked kind.exported).message).text)) ∧
    ∀ kind, v.call = .query kind → v.service.query e kind = .broken → ((build c).after vs).answer v =
      some (Text.give (Envelope.failure (Fault.panicked kind.exported).message).text)
  /-- The answers to other visits are as if this one had not been made. -/
  apart : ∀ vs v ws, ¬v.Releases →
    ((build c).answers (vs ++ v :: ws)).eraseIdx vs.length = (build c).answers (vs ++ ws)
  /-- After a release, broken or not, the host passes no address any more, and this is all that changes.
  -/
  apartReleased : ∀ vs v ws, v.Releases →
    ((build c).answers (vs ++ v :: ws)).eraseIdx vs.length =
      (build c).answers (vs ++ ws.map Visit.emptyHanded)

/-- What a host holds after a construction. -/
theorem build_cases (c : Attempt (Except Fault E)) :
    (∃ e, c = .returned (.ok e) ∧ build c = ⟨⟨[(1, e)], 1, []⟩, 1, none⟩) ∨
      (∀ e, c ≠ .returned (.ok e)) ∧ yielded c = none ∧
        ∃ message, build c = ⟨.empty, 0, some message⟩ := by
  cases c with
  | broken => exact Or.inr ⟨(fun e h => nomatch h), rfl, _, rfl⟩
  | returned r =>
      cases r with
      | error f => exact Or.inr ⟨(fun e h => nomatch h), rfl, _, rfl⟩
      | ok e => exact Or.inl ⟨e, rfl, rfl⟩

/-- Without an address there is no engine. -/
theorem yielded_of_handle {c : Attempt (Except Fault E)} (h : (build c).handle = 0) :
    yielded c = none := by
  obtain ⟨e, rfl, hbuild⟩ | ⟨-, hnone, -⟩ := build_cases c
  · rw [hbuild] at h
    exact absurd h Nat.one_ne_zero
  · exact hnone

/-- At first the engine of the construction is in memory, under the address that the host gets, and none was
released. -/
theorem build_memory (c : Attempt (Except Fault E)) :
    (build c).memory.engine? (build c).handle = yielded c ∧ (build c).memory.released = [] ∧
      ((build c).memory.engines.map Prod.fst).Nodup ∧ (build c).memory.all = (yielded c).toList := by
  obtain ⟨e, rfl, hbuild⟩ | ⟨-, hnone, message, hbuild⟩ := build_cases c
  · rw [hbuild]
    exact ⟨rfl, rfl, List.nodup_singleton _, rfl⟩
  · rw [hbuild, hnone]
    exact ⟨rfl, rfl, List.nodup_nil, rfl⟩

/-- **An engine in the hands of a host is released once**, in the first visit that releases it or not at
all, and whatever breaks down in a visit stays there. -/
theorem released_once (c : Attempt (Except Fault E)) : Sound c where
  created := by
    obtain ⟨e, rfl, hbuild⟩ | ⟨hc, -, message, hbuild⟩ := build_cases c
    · exact ⟨fun _ => ⟨e, rfl⟩, fun _ => by rw [hbuild]; exact Nat.one_ne_zero⟩
    · rw [hbuild]
      exact ⟨fun h => absurd rfl h, fun ⟨e, he⟩ => absurd he (hc e)⟩
  holds := by
    rintro e rfl
    exact ⟨rfl, rfl⟩
  refused := by
    rintro f rfl
    rfl
  collapsed := by
    rintro rfl
    rfl
  released vs := by
    obtain ⟨hstands, hreleased, -⟩ := build_memory c
    rw [after_eq]
    split
    · by_cases hh : (build c).handle = 0
      · rw [left_of_handle hh, hreleased, yielded_of_handle hh, Option.toList_none]
      · rw [left, Memory.released_without _ hh, hreleased, hstands, List.nil_append]
    · exact hreleased
  stands vs := by
    obtain ⟨hstands, -⟩ := build_memory c
    rw [after_eq]
    split
    · by_cases hh : (build c).handle = 0
      · rw [left_of_handle hh, hstands, yielded_of_handle hh]
      · rw [left, Memory.engine?_without _ hh, if_pos rfl]
    · exact hstands
  accounted vs := by
    obtain ⟨-, -, hnodup, hall⟩ := build_memory c
    rw [after_eq, ← hall]
    split
    · exact Memory.all_without hnodup _
    · exact .refl _
  first vs v := next_released _ v
  releasedAlike t s s' := by rw [Tenancy.destroy, Tenancy.destroy, Guard.destroy_eq, Guard.destroy_eq]
  kept vs v h := next_of_not h
  live vs := by
    rw [after_eq]
    split
    · exact Or.inl rfl
    · obtain ⟨e, rfl, hbuild⟩ | ⟨-, -, message, hbuild⟩ := build_cases c
      · exact Or.inr ⟨e, rfl, rfl⟩
      · rw [hbuild]
        exact Or.inl rfl
  answered vs v e hengine :=
    ⟨fun kind request text hcall htext h => answer_of_broken hcall hengine htext h,
      fun kind hcall h => answer_of_brokenQuery hcall hengine h⟩
  apart vs v ws h := answers_erase_of_not _ vs ws h
  apartReleased vs v ws h := answers_erase_of_releases _ vs ws h

end Tenancy

end FeatureFlags.Host
