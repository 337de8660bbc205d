/-
**What an evaluator is after several refreshes.**

The fetcher here is a script: a list of outcomes, and after the last of them nothing new.  Numbering the
refreshes makes it possible to say what the evaluator is by the fetches alone.  It serves the snapshot of
the last document that could be served.  If failures are to be answered, it holds the last one, as long as
no document was served after it; a failure that is not to be answered leaves no trace.  A failure is also
what makes the fetcher forget, and nothing else does.

Everything follows from what a single refresh of a script is (`refresh_script`), by induction on the number
of refreshes.  A poller adds nothing to this: a turn of its thread is a refresh, and once it is dropped the
evaluator stays as it is and is held by nobody else.

Main definitions:

* `Fetcher.counting` — counts how often a fetcher is reset;
* `Script.Installs`, `Script.Fails`, `Script.Unchanged` — **what a fetch of a script comes to**;
* `Script.evaluator`, `Script.resets` — the evaluator and the number of resets after several refreshes;
* `Script.Step`, `Script.Describes` — what one refresh does, and what several make of an evaluator;
* `Evaluator.AnswersOnly`, `Poller.Ended` — an evaluator with one answer, and a poller that is over.

Main results:

* `refresh_script`, `evaluator_succ` — one more refresh takes in one more outcome;
* `snapshot_eq_of_not_installs`, `evaluator_eq_of_quiet` — what lasts while nothing is installed, and while
  nothing happens at all;
* `Poller.turns_eq` — the thread of a poller refreshes at each turn;
* `Script.describes_refreshes` — **the evaluator after any number of refreshes.**
-/
import Mathlib.Data.Nat.Init
import FeatureFlags.Engine.Poller
import FeatureFlags.Proofs.Refresh
import FeatureFlags.Proofs.Served

set_option autoImplicit false

namespace FeatureFlags

/-! ### Several refreshes, and resets -/

/-- The last of several refreshes may be split off as well as the first. -/
theorem refreshes_succ {σ : Type} (f : Fetcher σ) (strategy : ErrorStrategy) (n : Nat)
    (state : σ × Evaluator) :
    refreshes f strategy (n + 1) state = refresh f strategy (refreshes f strategy n state) := by
  induction n generalizing state with
  | zero => rfl
  | succ n ih => rw [refreshes, ih, refreshes]

/-- The same fetcher, which also counts how often it is reset. -/
def Fetcher.counting {σ : Type} (f : Fetcher σ) : Fetcher (σ × Nat) where
  fetch memory := ((f.fetch memory.1).1, (f.fetch memory.1).2, memory.2)
  reset memory := (f.reset memory.1, memory.2 + 1)

/-- A memory and an evaluator without the count. -/
def withoutCount {σ : Type} (state : (σ × Nat) × Evaluator) : σ × Evaluator := (state.1.1, state.2)

/-- Counting makes no difference to a refresh. -/
theorem refresh_counting {σ : Type} (f : Fetcher σ) (strategy : ErrorStrategy)
    (state : (σ × Nat) × Evaluator) :
    withoutCount (refresh f.counting strategy state) = refresh f strategy (withoutCount state) := by
  obtain ⟨⟨memory, count⟩, e⟩ := state
  rw [withoutCount, withoutCount, refresh_eq, refresh_eq]
  simp only [Fetcher.counting]
  cases Fetched.snapshot e.space (f.fetch memory).1 <;> rfl

/-- Counting makes no difference to several refreshes. -/
theorem refreshes_counting {σ : Type} (f : Fetcher σ) (strategy : ErrorStrategy) (n : Nat)
    (state : (σ × Nat) × Evaluator) :
    withoutCount (refreshes f.counting strategy n state) =
      refreshes f strategy n (withoutCount state) := by
  induction n generalizing state with
  | zero => rfl
  | succ n ih => rw [refreshes, refreshes, ih, refresh_counting]

/-! ### Scripts -/

/-- What fetches bring, one after the other; once it is over, nothing new. -/
abbrev Script := List Fetched

namespace Script

/-- The fetch with this number, counted from zero, brings a document that makes this snapshot. -/
def Installs (script : Script) (ns : String) (i : Nat) (s : Snapshot) : Prop :=
  ∃ d, script[i]? = some (.ok (some d)) ∧ Snapshot.build ns d = .ok s

/-- The fetch with this number fails, or brings a document that cannot be served. -/
inductive Fails (script : Script) (ns : String) (i : Nat) : EngineFault → Prop
  | fetch {fault : EngineFault} : script[i]? = some (.error fault) → Fails script ns i fault
  | document {d : Document} {f : DocumentFault} :
      script[i]? = some (.ok (some d)) → Snapshot.build ns d = .error f →
      Fails script ns i (.evaluation f.failure)

/-- The fetch with this number brings nothing new. -/
def Unchanged (script : Script) (i : Nat) : Prop :=
  script[i]? = some (.ok none) ∨ script[i]? = none

/-- The outcome of the fetch with this number. -/
def outcome (script : Script) (ns : String) (i : Nat) : Except EngineFault (Option Snapshot) :=
  Fetched.snapshot ns (script[i]?.getD (.ok none))

variable {script : Script} {ns : String} {i : Nat}

theorem outcome_of_unchanged (h : script.Unchanged i) : script.outcome ns i = .ok none := by
  obtain h | h := h
  · rw [outcome, h]
    rfl
  · rw [outcome, h]
    rfl

theorem outcome_of_installs {s : Snapshot} (h : script.Installs ns i s) :
    script.outcome ns i = .ok (some s) := by
  obtain ⟨d, hd, hs⟩ := h
  rw [outcome, hd, Option.getD_some, Fetched.snapshot, hs]

theorem outcome_of_fails {fault : EngineFault} (h : script.Fails ns i fault) :
    script.outcome ns i = .error fault := by
  cases h with
  | fetch h =>
      rw [outcome, h]
      rfl
  | document hd hf => rw [outcome, hd, Option.getD_some, Fetched.snapshot, hf]

/-- A fetch brings nothing new, or a document that can be served, or it fails. -/
theorem unchanged_or_installs_or_fails (script : Script) (ns : String) (i : Nat) :
    script.Unchanged i ∨ (∃ s, script.Installs ns i s) ∨ ∃ fault, script.Fails ns i fault := by
  rcases hi : script[i]? with _ | fault | _ | d
  · exact Or.inl (Or.inr hi)
  · exact Or.inr (Or.inr ⟨fault, .fetch hi⟩)
  · exact Or.inl (Or.inl hi)
  · cases hd : Snapshot.build ns d with
    | error f => exact Or.inr (Or.inr ⟨_, .document hi hd⟩)
    | ok s => exact Or.inr (Or.inl ⟨s, d, hi, hd⟩)

/-- A fetch that neither brings a document that can be served nor fails brings nothing new. -/
theorem unchanged_of_not (hinstalls : ∀ s, ¬script.Installs ns i s)
    (hfails : ∀ fault, ¬script.Fails ns i fault) : script.Unchanged i := by
  rcases script.unchanged_or_installs_or_fails ns i with h | ⟨s, h⟩ | ⟨fault, h⟩
  · exact h
  · exact absurd h (hinstalls s)
  · exact absurd h (hfails fault)

end Script

/-! ### Refreshes by a script -/

/-- The resets that the outcome of a fetch is a reason for. -/
def resetsFor : Except EngineFault (Option Snapshot) → Nat
  | .error _ => 1
  | .ok _ => 0

/-- **A refresh by a script** takes in the outcome of the next fetch, and resets after a failure. -/
theorem refresh_script (script : Script) (strategy : ErrorStrategy) (i k : Nat) (e : Evaluator) :
    refresh Fetcher.script.counting strategy ((script.drop i, k), e) =
      ((script.drop (i + 1), k + resetsFor (script.outcome e.space i)),
        e.takeIn strategy (script.outcome e.space i)) := by
  have hfetch : Fetcher.script.fetch (script.drop i) =
      (script[i]?.getD (.ok none), script.drop (i + 1)) := by
    cases hi : script[i]? with
    | none =>
        have hlength := List.getElem?_eq_none_iff.mp hi
        rw [List.drop_eq_nil_of_le hlength, List.drop_eq_nil_of_le (Nat.le_succ_of_le hlength)]
        rfl
    | some o =>
        obtain ⟨hlength, rfl⟩ := List.getElem?_eq_some_iff.mp hi
        rw [List.drop_eq_getElem_cons hlength]
        rfl
  rw [refresh_eq, Script.outcome]
  simp only [Fetcher.counting, hfetch]
  cases Fetched.snapshot e.space (script[i]?.getD (.ok none)) <;> rfl

namespace Script

/-- The evaluator after so many refreshes. -/
def evaluator (script : Script) (strategy : ErrorStrategy) (e : Evaluator) (n : Nat) : Evaluator :=
  (refreshes Fetcher.script.counting strategy n ((script, 0), e)).2

/-- How often the fetcher was reset in so many refreshes. -/
def resets (script : Script) (strategy : ErrorStrategy) (e : Evaluator) (n : Nat) : Nat :=
  (refreshes Fetcher.script.counting strategy n ((script, 0), e)).1.2

variable (script : Script) (strategy : ErrorStrategy) (e : Evaluator)

/-- Nothing of the script is left out or given twice, and the namespace stays. -/
theorem refreshes_eq (n : Nat) :
    refreshes Fetcher.script.counting strategy n ((script, 0), e) =
        ((script.drop n, script.resets strategy e n), script.evaluator strategy e n) ∧
      (script.evaluator strategy e n).space = e.space := by
  induction n with
  | zero => exact ⟨rfl, rfl⟩
  | succ n ih =>
      obtain ⟨hstate, hspace⟩ := ih
      constructor
      · rw [resets, evaluator, refreshes_succ, hstate, refresh_script]
      · rw [evaluator, refreshes_succ, hstate, refresh_script]
        exact (Evaluator.takeIn_space ..).trans hspace

/-- One refresh more takes in the outcome of one fetch more. -/
theorem evaluator_succ (n : Nat) :
    script.evaluator strategy e (n + 1) =
      (script.evaluator strategy e n).takeIn strategy (script.outcome e.space n) := by
  obtain ⟨hstate, hspace⟩ := script.refreshes_eq strategy e n
  rw [evaluator, refreshes_succ, hstate, refresh_script, hspace]

/-- One refresh more resets once more if it fails. -/
theorem resets_succ (n : Nat) :
    script.resets strategy e (n + 1) =
      script.resets strategy e n + resetsFor (script.outcome e.space n) := by
  obtain ⟨hstate, hspace⟩ := script.refreshes_eq strategy e n
  rw [resets, refreshes_succ, hstate, refresh_script, hspace]

/-! ### One refresh -/

/-- **What one refresh does** with an evaluator and the number of resets: nothing if there is nothing new;
a document that can be served is served, without an error; and after a failure the snapshot stays, the
error is the failure if failures are to be answered, and the fetcher was reset once. -/
structure Step (ns : String) (n : Nat) (now next : Evaluator) (resets resets' : Nat) : Prop where
  unchanged : script.Unchanged n → next = now ∧ resets' = resets
  installed : ∀ s, script.Installs ns n s → next = Evaluator.new ns s ∧ resets' = resets
  failed : ∀ fault, script.Fails ns n fault →
    next.snapshot = now.snapshot ∧ (strategy = .fail → next.error = some fault.failure) ∧
      (strategy = .fallback → next = now) ∧ resets' = resets + 1

/-- Each refresh by a script does that. -/
theorem step (n : Nat) :
    script.Step strategy e.space n (script.evaluator strategy e n) (script.evaluator strategy e (n + 1))
      (script.resets strategy e n) (script.resets strategy e (n + 1)) := by
  rw [evaluator_succ, resets_succ]
  constructor
  · intro h
    rw [outcome_of_unchanged h]
    exact ⟨rfl, rfl⟩
  · intro s h
    rw [outcome_of_installs h, Evaluator.takeIn_some, Evaluator.replace, Evaluator.new,
      (script.refreshes_eq strategy e n).2]
    exact ⟨rfl, rfl⟩
  · intro fault h
    rw [outcome_of_fails h]
    cases strategy with
    | fail =>
        refine ⟨rfl, fun _ => rfl, ?_, rfl⟩
        intro hfallback
        cases hfallback
    | fallback =>
        refine ⟨rfl, ?_, fun _ => rfl, rfl⟩
        intro hfail
        cases hfail

/-! ### Several refreshes -/

variable {script strategy e}

/-- The snapshot lasts while nothing is installed. -/
theorem snapshot_eq_of_not_installs {m n : Nat} (hmn : m ≤ n)
    (h : ∀ j, m ≤ j → j < n → ∀ s, ¬script.Installs e.space j s) :
    (script.evaluator strategy e n).snapshot = (script.evaluator strategy e m).snapshot := by
  induction n, hmn using Nat.le_induction with
  | base => rfl
  | succ n hmn ih =>
      have hstep := script.step strategy e n
      have hsame : (script.evaluator strategy e (n + 1)).snapshot =
          (script.evaluator strategy e n).snapshot := by
        rcases script.unchanged_or_installs_or_fails e.space n with hn | ⟨s, hn⟩ | ⟨fault, hn⟩
        · rw [(hstep.unchanged hn).1]
        · exact absurd hn (h n hmn (Nat.lt_succ_self n) s)
        · exact (hstep.failed fault hn).1
      rw [hsame]
      exact ih fun j hmj hjn => h j hmj (Nat.lt_succ_of_lt hjn)

/-- The evaluator lasts while nothing new comes. -/
theorem evaluator_eq_of_unchanged {m n : Nat} (hmn : m ≤ n)
    (h : ∀ j, m ≤ j → j < n → script.Unchanged j) :
    script.evaluator strategy e n = script.evaluator strategy e m := by
  induction n, hmn using Nat.le_induction with
  | base => rfl
  | succ n hmn ih =>
      rw [((script.step strategy e n).unchanged (h n hmn (Nat.lt_succ_self n))).1]
      exact ih fun j hmj hjn => h j hmj (Nat.lt_succ_of_lt hjn)

/-- The evaluator lasts when the script is over. -/
theorem evaluator_eq_of_length_le {n : Nat} (hn : script.length ≤ n) :
    script.evaluator strategy e n = script.evaluator strategy e script.length :=
  evaluator_eq_of_unchanged hn fun _ hj _ => Or.inr (List.getElem?_eq_none hj)

end Script

/-- Every operation, on any input, has this failure. -/
structure Evaluator.AnswersOnly (e : Evaluator) (f : Failure) : Prop where
  variant : ∀ request, e.variant request = .error f
  boolean : ∀ request, e.boolean request = .error f
  batch : ∀ requests, e.batch requests = .error f
  list : e.list = .error f
  document : e.document = .error f

/-- An evaluator that holds an error answers nothing else. -/
theorem Evaluator.answersOnly_of_error {e : Evaluator} {f : Failure} (h : e.error = some f) :
    e.AnswersOnly f := by
  have hfailed : ∀ {α : Type} (answer : Except Failure α), e.unlessFailed answer = .error f := by
    intro α answer
    rw [unlessFailed, h]
  exact ⟨fun _ => hfailed _, fun _ => hfailed _, fun _ => hfailed _, hfailed _, hfailed _⟩

namespace Script

/-- **What several refreshes make of an evaluator**: it serves what the last document came to that could be
served, and holds the last failure if failures are to be answered and nothing was served after it. -/
structure Describes (script : Script) (strategy : ErrorStrategy) (e : Evaluator) (n : Nat)
    (now : Evaluator) : Prop where
  space : now.space = e.space
  latest : ∀ i < n, ∀ s, script.Installs e.space i s →
    (∀ j, i < j → j < n → ∀ t, ¬script.Installs e.space j t) → now.snapshot = s
  initial : (∀ i < n, ∀ s, ¬script.Installs e.space i s) → now.snapshot = e.snapshot
  failed : strategy = .fail → ∀ i < n, ∀ fault, script.Fails e.space i fault →
    (∀ j, i < j → j < n → (∀ other, ¬script.Fails e.space j other) ∧
      ∀ s, ¬script.Installs e.space j s) → now.error = some fault.failure
  answers : ∀ f, now.error = some f → now.AnswersOnly f

/-- Refreshes by a script make that of an evaluator. -/
theorem describes (script : Script) (strategy : ErrorStrategy) (e : Evaluator) (n : Nat) :
    script.Describes strategy e n (script.evaluator strategy e n) := by
  constructor
  · exact (script.refreshes_eq strategy e n).2
  · intro i hi s hs hlast
    rw [snapshot_eq_of_not_installs (Nat.succ_le_of_lt hi) hlast,
      ((script.step strategy e i).installed s hs).1, Evaluator.new]
  · intro hnone
    exact snapshot_eq_of_not_installs (Nat.zero_le n) fun j _ hj => hnone j hj
  · intro hstrategy i hi fault hfault hlast
    rw [evaluator_eq_of_unchanged (Nat.succ_le_of_lt hi) fun j hij hj =>
      unchanged_of_not (hlast j hij hj).2 (hlast j hij hj).1]
    exact ((script.step strategy e i).failed fault hfault).2.1 hstrategy
  · intro f hf
    exact Evaluator.answersOnly_of_error hf

end Script

/-! ### Pollers -/

namespace Poller

variable {σ : Type}

/-- **The thread refreshes at each turn** as long as the owner has its end of the channel. -/
theorem turns_eq (f : Fetcher σ) (strategy : ErrorStrategy) (k : Nat) (memory : σ) (e : Evaluator) :
    turns k ⟨f, strategy, true, some memory, e⟩ =
      ⟨f, strategy, true, some (refreshes f strategy k (memory, e)).1,
        (refreshes f strategy k (memory, e)).2⟩ := by
  induction k generalizing memory e with
  | zero => rfl
  | succ k ih => exact ih (refresh f strategy (memory, e)).1 (refresh f strategy (memory, e)).2

/-- A thread that has ended takes no more turns. -/
theorem turns_of_thread_none {p : Poller σ} (h : p.thread = none) (k : Nat) : p.turns k = p := by
  induction k with
  | zero => rfl
  | succ k ih =>
      have hturn : p.turn = p := by rw [turn, h]
      rw [turns, hturn, ih]

/-- A poller that is over has left this evaluator behind: nobody but the owner holds it, and nothing will
change it any more. -/
structure Ended (p : Poller σ) (e : Evaluator) : Prop where
  evaluator : p.evaluator = e
  references : p.references = 1
  lasts : ∀ k, p.turns k = p

/-- Dropped after so many turns, a poller leaves behind what so many refreshes make of the evaluator. -/
theorem ended_drop (f : Fetcher σ) (strategy : ErrorStrategy) (k : Nat) (memory : σ) (e : Evaluator) :
    (turns k ⟨f, strategy, true, some memory, e⟩).drop.Ended
      (refreshes f strategy k (memory, e)).2 := by
  rw [turns_eq]
  exact ⟨rfl, rfl, turns_of_thread_none rfl⟩

end Poller

/-! ### Histories -/

/-- **The evaluator after any number of refreshes by a script**, and after a poller with that script.  The
last conjunct says what the failures are that it holds after a fault. -/
theorem Script.describes_refreshes (script : Script) (strategy : ErrorStrategy) (e : Evaluator) :
    (∀ n, (refreshes Fetcher.script strategy n (script, e)).2 = script.evaluator strategy e n ∧
        script.Describes strategy e n (script.evaluator strategy e n)) ∧
      script.resets strategy e 0 = 0 ∧
      (∀ n, script.Step strategy e.space n
        (script.evaluator strategy e n) (script.evaluator strategy e (n + 1))
        (script.resets strategy e n) (script.resets strategy e (n + 1))) ∧
      (∃ p, Poller.spawn (.ok ()) Fetcher.script strategy script e = .ok p ∧
        ∀ k, (p.turns k).drop.Ended (script.evaluator strategy e k) ∧
          (script.length ≤ k →
            script.evaluator strategy e k = script.evaluator strategy e script.length)) ∧
      ∀ fault : EngineFault, fault.Leaves fault.failure := by
  have hcounting : ∀ n, (refreshes Fetcher.script strategy n (script, e)).2 =
      script.evaluator strategy e n := by
    intro n
    exact congrArg Prod.snd (refreshes_counting Fetcher.script strategy n ((script, 0), e)).symm
  refine ⟨?_, rfl, script.step strategy e, ?_, EngineFault.leaves_failure⟩
  · intro n
    exact ⟨hcounting n, script.describes strategy e n⟩
  · refine ⟨⟨Fetcher.script, strategy, true, some script, e⟩, rfl, ?_⟩
    intro k
    constructor
    · rw [← hcounting k]
      exact Poller.ended_drop Fetcher.script strategy k script e
    · exact evaluator_eq_of_length_le

/-- A document that can be served, one with a repeated key, and nothing new: the first is served, and the
second is the answer to everything. -/
theorem Script.describes_refreshes_repeated :
    let flag : Flag := ⟨"dark", "", .boolean, none, true, [], [], none⟩
    let good : Document := ⟨⟨"", none⟩, [flag]⟩
    let repeated : Document := ⟨⟨"", none⟩, [flag, flag]⟩
    let script : Script := [.ok (some good), .error (.unreadable "f" "gone"), .ok (some repeated), .ok none]
    let e : Evaluator := .new "ns" (.empty "ns")
    let s : Snapshot := .ofDocument ⟨⟨"ns", none⟩, [flag]⟩
    let fault : EngineFault := .evaluation (DocumentFault.repeatedKey "dark").failure
    script.Installs "ns" 0 s ∧ script.Fails "ns" 2 fault ∧ script.Unchanged 3 ∧
      (refreshes Fetcher.script .fail 4 (script, e)).2 = ⟨"ns", s, some fault.failure⟩ ∧
      (script.evaluator .fail e 4).AnswersOnly fault.failure := by
  intro flag good repeated script e s fault
  have hgood : Snapshot.build "ns" good = .ok s := rfl
  have hrepeated : Snapshot.build "ns" repeated = .error (.repeatedKey "dark") := rfl
  have hinstalls : script.Installs "ns" 0 s := ⟨good, rfl, hgood⟩
  have hfails : script.Fails "ns" 2 fault := .document rfl hrepeated
  have hunchanged : script.Unchanged 3 := Or.inl rfl
  obtain ⟨hsame, hdescribes⟩ := (script.describes_refreshes .fail e).1 4
  have hlater : ∀ j, 0 < j → j < 4 → ∀ t, ¬script.Installs "ns" j t := by
    rintro j hpos hj t ⟨d, hd, ht⟩
    obtain rfl | rfl | rfl : j = 1 ∨ j = 2 ∨ j = 3 := by omega
    · cases hd
    · cases hd
      cases hrepeated.symm.trans ht
    · cases hd
  have hlast : ∀ j, 2 < j → j < 4 → (∀ other, ¬script.Fails "ns" j other) ∧
      ∀ t, ¬script.Installs "ns" j t := by
    intro j hj hj'
    obtain rfl : j = 3 := by omega
    refine ⟨?_, hlater 3 (by decide) (by decide)⟩
    intro other hother
    cases (outcome_of_unchanged hunchanged).symm.trans (outcome_of_fails hother)
  have hsnapshot := hdescribes.latest 0 (by decide) s hinstalls hlater
  have herror := hdescribes.failed rfl 2 (by decide) fault hfails hlast
  refine ⟨hinstalls, hfails, hunchanged, ?_, hdescribes.answers _ herror⟩
  rw [hsame, ← hsnapshot, ← herror, ← show _ = "ns" from hdescribes.space]

end FeatureFlags
