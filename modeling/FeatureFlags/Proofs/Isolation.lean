/-
**Namespaces are kept apart.**

An evaluator asks whatever snapshot it holds for the flags of its own namespace.  In a snapshot of another
one it finds nothing: there is no list, no flag can be evaluated, and each entry of a batch says that there
is none.  These answers name the namespace that was asked for and the flags that were asked for, so nothing
that is in the snapshot has a part in them, and they are the same for all foreign snapshots.

The namespace of an evaluator never changes, neither with another snapshot nor with a refresh.  So whenever
an evaluator does tell something about flags, the document that its snapshot was made of named that
namespace, or none.

Main definitions:

* `Evaluator.Foreign`, `Evaluator.FindsNothing` — an evaluator with the snapshot of another namespace, and
  one that finds no flags;
* `Evaluator.Alike` — two evaluators that cannot be told apart by what they answer about flags;
* `Evaluator.Step` — what can happen to an evaluator;
* `Evaluator.Tells` — an evaluator that tells something about flags.

Main results:

* `Evaluator.Foreign.findsNothing` — **nothing is found in a foreign snapshot**;
* `Evaluator.Step.space`, `Evaluator.space_of_run` — what happens to an evaluator leaves its namespace;
* `Evaluator.isolated` — **namespaces are kept apart.**
-/
import Mathlib.Logic.Relation
import FeatureFlags.Engine.Basic
import FeatureFlags.Proofs.Refresh
import FeatureFlags.Proofs.Served
import FeatureFlags.Proofs.SnapshotIndex

set_option autoImplicit false

open Relation (ReflTransGen)

namespace FeatureFlags

/-! ### Snapshots and their documents -/

namespace Snapshot

/-- A snapshot was made of a document, for some namespace. -/
def MadeOf (s : Snapshot) (d : Document) : Prop := ∃ ns, build ns d = .ok s

/-- A snapshot without flags was made as well. -/
theorem empty_madeOf (ns : String) : (empty ns).MadeOf (Document.empty ns) := by
  refine ⟨ns, ?_⟩
  have hadopt : (Document.empty ns).adopt ns = Document.empty ns := by
    rw [Document.adopt]
    split <;> rfl
  rw [build, hadopt]
  rfl

/-- The document of a snapshot in which a namespace is found named that namespace or none. -/
theorem MadeOf.fits {s : Snapshot} {d : Document} (h : s.MadeOf d) : d.Fits s.space := by
  obtain ⟨ns, h⟩ := h
  rw [space, (build_ok h).1, Document.adopt_space_key]
  by_cases hnone : d.space.key = ""
  · exact Or.inl hnone
  · rw [if_neg hnone]
    exact Or.inr rfl

theorem list?_of_ne {s : Snapshot} {ns : String} (h : s.space ≠ ns) : s.list? ns = none := if_neg h

theorem get?_of_ne {s : Snapshot} {ns : String} (h : s.space ≠ ns) (key : String) :
    s.get? ns key = none := if_neg h

end Snapshot

/-- What was fetched and is new was made of a document. -/
theorem Fetched.madeOf {ns : String} {fetched : Fetched} {s : Snapshot}
    (h : Fetched.snapshot ns fetched = .ok (some s)) : ∃ d, s.MadeOf d := by
  rcases fetched with fault | _ | d
  · cases h
  · cases h
  · rw [snapshot] at h
    cases hbuild : Snapshot.build ns d with
    | error fault =>
        rw [hbuild] at h
        cases h
    | ok s' =>
        rw [hbuild] at h
        cases h
        exact ⟨d, ns, hbuild⟩

namespace Evaluator

/-! ### Foreign snapshots -/

/-- An evaluator of a namespace holds no error and a snapshot of another namespace. -/
structure Foreign (e : Evaluator) (ns : String) : Prop where
  space : e.space = ns
  sound : e.error = none
  other : e.snapshot.space ≠ ns

/-- An evaluator of a namespace finds no flags, whatever it is asked. -/
structure FindsNothing (e : Evaluator) (ns : String) : Prop where
  variant : ∀ r, e.variant r = .error ⟨.request, "failed to get flag information " ++ ns ++ "/" ++ r.flag⟩
  boolean : ∀ r, e.boolean r = .error ⟨.request, "failed to get flag information " ++ ns ++ "/" ++ r.flag⟩
  batch : ∀ rs, e.batch rs = .ok (rs.map fun r => .missing ⟨r.flag, ns, .notFound⟩)
  list : e.list = .error ⟨.unknown, "failed to get flags for " ++ ns⟩

/-- Two evaluators answer alike whatever is asked about flags, in their results and in their envelopes. -/
structure Alike (e e' : Evaluator) : Prop where
  variant : ∀ r, e.variant r = e'.variant r
  boolean : ∀ r, e.boolean r = e'.boolean r
  batch : ∀ rs, e.batch rs = e'.batch rs
  list : e.list = e'.list
  evaluate : ∀ clock kind request, e.evaluate kind request clock = e'.evaluate kind request clock
  query : e.query .list = e'.query .list

variable {e e' : Evaluator} {ns : String}

theorem unlessFailed_of_sound (h : e.error = none) {α : Type} (answer : Except Failure α) :
    e.unlessFailed answer = answer := by
  rw [unlessFailed, h]

theorem Foreign.get? (h : e.Foreign ns) (key : String) : e.get? key = none := by
  rw [Evaluator.get?, h.space]
  exact Snapshot.get?_of_ne h.other key

theorem Foreign.entries (h : e.Foreign ns) (rs : List Request) :
    e.entries rs = .ok (rs.map fun r => .missing ⟨r.flag, ns, .notFound⟩) := by
  induction rs with
  | nil => rfl
  | cons r rs ih =>
      have hentry : e.entry r = .ok (.missing ⟨r.flag, ns, .notFound⟩) := by
        rw [entry, h.get?, h.space]
      rw [Evaluator.entries, hentry, ih, List.map_cons]

/-- **Nothing is found in a foreign snapshot.** -/
theorem Foreign.findsNothing (h : e.Foreign ns) : e.FindsNothing ns where
  variant r := by
    rw [variant, unlessFailed_of_sound h.sound, h.get?, h.space]
    rfl
  boolean r := by
    rw [boolean, unlessFailed_of_sound h.sound, h.get?, h.space]
    rfl
  batch rs := by rw [batch, unlessFailed_of_sound h.sound, h.entries]
  list := by rw [list, unlessFailed_of_sound h.sound, h.space, Snapshot.list?_of_ne h.other]

/-- Evaluators with the same results have the same envelopes. -/
theorem alike_of_results (hvariant : ∀ r, e.variant r = e'.variant r)
    (hboolean : ∀ r, e.boolean r = e'.boolean r) (hbatch : ∀ rs, e.batch rs = e'.batch rs)
    (hlist : e.list = e'.list) : e.Alike e' where
  variant := hvariant
  boolean := hboolean
  batch := hbatch
  list := hlist
  evaluate clock kind request := by
    cases kind with
    | boolean => simp only [evaluate, booleanEnvelope, hboolean]
    | variant => simp only [evaluate, variantEnvelope, hvariant]
    | batch => simp only [evaluate, batchEnvelope, hbatch]
  query := by rw [query, query, listEnvelope, listEnvelope, hlist]

/-- Evaluators of the same namespace that find nothing cannot be told apart. -/
theorem FindsNothing.alike (h : e.FindsNothing ns) (h' : e'.FindsNothing ns) : e.Alike e' :=
  alike_of_results (fun r => (h.variant r).trans (h'.variant r).symm)
    (fun r => (h.boolean r).trans (h'.boolean r).symm)
    (fun rs => (h.batch rs).trans (h'.batch rs).symm) (h.list.trans h'.list.symm)

/-! ### What happens to an evaluator -/

/-- What can happen to an evaluator: it gets another snapshot, made of any document for any namespace; it is
refreshed, whatever is fetched and whatever is done about failures; or it is told an error. -/
inductive Step (e : Evaluator) : Evaluator → Prop
  | replaced {s : Snapshot} {d : Document} : s.MadeOf d → Step e (e.replace s)
  | refreshed {σ : Type} (f : Fetcher σ) (strategy : ErrorStrategy) (memory : σ) :
      Step e (refresh f strategy (memory, e)).2
  | failed (f : Failure) : Step e (e.fail f)

/-- Whatever happens to an evaluator, its namespace stays. -/
theorem Step.space (h : Step e e') : e'.space = e.space := by
  cases h with
  | replaced _ => rfl
  | refreshed f strategy memory => rw [refresh_eq, takeIn_space]
  | failed _ => rfl

/-- The snapshot is always one that was made of a document. -/
theorem Step.madeOf (h : Step e e') (hmade : ∃ d, e.snapshot.MadeOf d) : ∃ d, e'.snapshot.MadeOf d := by
  cases h with
  | replaced hs => exact ⟨_, hs⟩
  | failed _ => exact hmade
  | refreshed f strategy memory =>
      rw [refresh_eq]
      cases hfetched : Fetched.snapshot e.space (f.fetch memory).1 with
      | error fault => cases strategy <;> exact hmade
      | ok s =>
          cases s with
          | none => exact hmade
          | some s => exact Fetched.madeOf hfetched

/-- **The namespace stays in every run.** -/
theorem space_of_run (h : ReflTransGen Step e e') : e'.space = e.space := by
  induction h with
  | refl => rfl
  | tail _ hstep ih => exact hstep.space.trans ih

theorem madeOf_of_run (h : ReflTransGen Step e e') (hmade : ∃ d, e.snapshot.MadeOf d) :
    ∃ d, e'.snapshot.MadeOf d := by
  induction h with
  | refl => exact hmade
  | tail _ hstep ih => exact hstep.madeOf ih

/-! ### What is told -/

/-- An evaluator that holds no error tells something about flags: it is not one that finds nothing. -/
structure Tells (e : Evaluator) : Prop where
  sound : e.error = none
  finds : ¬e.FindsNothing e.space

/-- What is told comes from a snapshot of the namespace of the evaluator. -/
theorem Tells.snapshot_space (h : e.Tells) : e.snapshot.space = e.space := by
  by_contra hne
  exact h.finds (Foreign.findsNothing ⟨rfl, h.sound, hne⟩)

/-- **Namespaces are kept apart.**  Evaluators of a namespace with foreign snapshots find nothing and cannot
be told apart.  In every run the namespace stays the same, and what is told then comes from a document that
named this namespace or none. -/
theorem isolated (ns : String) :
    (∀ e e' : Evaluator, e.Foreign ns → e'.Foreign ns → e.FindsNothing ns ∧ e.Alike e') ∧
      ∀ (s : Snapshot) (e : Evaluator), (∃ d, s.MadeOf d) → ReflTransGen Step (new ns s) e →
        e.space = ns ∧ (∃ d, e.snapshot.MadeOf d) ∧
          ∀ d, e.snapshot.MadeOf d → e.Tells → d.Fits ns := by
  refine ⟨fun e e' h h' => ⟨h.findsNothing, h.findsNothing.alike h'.findsNothing⟩, ?_⟩
  intro s e hs hrun
  have hspace : e.space = ns := space_of_run hrun
  refine ⟨hspace, madeOf_of_run hrun hs, fun d hd htells => ?_⟩
  rw [← hspace, ← htells.snapshot_space]
  exact hd.fits

/-- A snapshot of another namespace is told nothing of.  A refresh then brings a document that names none. -/
theorem isolated_b_then_nameless :
    let flag (key : String) : Flag := ⟨key, "", .boolean, none, true, [], [], none⟩
    let other : Document := ⟨⟨"b", none⟩, [flag "x", flag "y"]⟩
    let own : Document := ⟨⟨"", none⟩, [flag "x"]⟩
    let e := new "a" (.ofDocument other)
    let e' := (refresh Fetcher.script .fail ([.ok (some own)], e)).2
    (e.Foreign "a" ∧ (new "a" (Snapshot.empty "c")).Foreign "a" ∧ e.Alike (new "a" (Snapshot.empty "c"))) ∧
      (ReflTransGen Step (new "a" (Snapshot.empty "a")) e' ∧ e'.snapshot.MadeOf own ∧ e'.Tells ∧
        own.Fits "a") := by
  intro flag other own e e'
  have hforeign : e.Foreign "a" := ⟨rfl, rfl, by decide⟩
  have hempty : (new "a" (Snapshot.empty "c")).Foreign "a" := ⟨rfl, rfl, by decide⟩
  have hother : e.snapshot.MadeOf other := ⟨"a", by decide⟩
  have hown : e'.snapshot.MadeOf own := ⟨"a", by decide⟩
  have hrun : ReflTransGen Step (new "a" (Snapshot.empty "a")) e' :=
    (ReflTransGen.single (.replaced hother)).tail (.refreshed Fetcher.script .fail _)
  have htells : e'.Tells := by
    refine ⟨by decide, fun h => ?_⟩
    have hlist : e'.list = .ok [(flag "x").info] := by decide
    rw [h.list] at hlist
    cases hlist
  obtain ⟨halike, hkept⟩ := isolated "a"
  exact ⟨⟨hforeign, hempty, (halike _ _ hforeign hempty).2⟩, hrun, hown, htells,
    (hkept _ _ ⟨_, Snapshot.empty_madeOf "a"⟩ hrun).2.2 own hown htells⟩

end Evaluator

end FeatureFlags
