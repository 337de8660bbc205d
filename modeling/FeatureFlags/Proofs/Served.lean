/-
**What is served of a document.**

A document that is served was taken in flag by flag: its flags have different keys, each of their rules
was found in order, and the two parts of the table that was built, the keys in order and the flags by
key, stayed in step.  So a flag of the document is found under its key, in the form in which it is
evaluated, as long as the document does not name another namespace.

Main definitions:

* `FlagTable.Holds` — **the invariant of the building**: what a table holds of the flags taken in;
* `FlagTable.ofFlags`, `Snapshot.ofDocument` — the table and the snapshot of what needs no check;
* `Document.Fits`, `Evaluator.Serves` — a document that names no other namespace, and an evaluator that
  serves a document.

Main results:

* `FlagTable.Holds.insert`, `FlagTable.Holds.takeIn` — one flag, and several, keep the invariant;
* `Snapshot.build_ok`, `Flag.check_rule` — what a document that is served was checked for;
* `Snapshot.get?_of_build`, `Evaluator.Serves.get?` — **a flag of a document that is served is found under
  its key.**
-/
import Mathlib.Data.List.Nodup
import FeatureFlags.Evaluation.Evaluator

set_option autoImplicit false

namespace FeatureFlags

/-! ### Flags in a table -/

namespace FlagTable

/-- **The invariant of the building**: of flags with different keys, the table has the keys in their order,
and under each key its flag made ready, and nothing under other keys. -/
structure Holds (t : FlagTable) (fs : List Flag) : Prop where
  nodup : (fs.map (·.key)).Nodup
  order : t.order = fs.map (·.key)
  found : ∀ f ∈ fs, t.get? f.key = some f.compile
  missing : ∀ key, key ∉ fs.map (·.key) → t.get? key = none

variable {t u : FlagTable} {fs gs : List Flag} {f : Flag} {key : String}

theorem holds_empty : empty.Holds [] :=
  ⟨List.nodup_nil, rfl, fun _ h => (nomatch h), fun _ _ => rfl⟩

theorem get?_insert (t : FlagTable) (key other : String) (c : CompiledFlag) :
    (t.insert key c).get? other = if other = key then some c else t.get? other :=
  lookup_replace t.index key other c

namespace Holds

/-- A key is there exactly if one of the flags has it. -/
theorem isSome_iff (h : t.Holds fs) : (t.get? key).isSome ↔ key ∈ fs.map (·.key) := by
  constructor
  · intro hsome
    by_contra hkey
    rw [h.missing key hkey] at hsome
    cases hsome
  · intro hkey
    obtain ⟨f, hf, rfl⟩ := List.mem_map.1 hkey
    rw [h.found f hf]
    rfl

/-- **One more flag**, with a new key, keeps the invariant. -/
theorem insert (h : t.Holds fs) (hkey : f.key ∉ fs.map (·.key)) :
    (t.insert f.key f.compile).Holds (fs ++ [f]) where
  nodup := by
    rw [List.map_append, List.map_singleton, ← List.concat_eq_append]
    exact h.nodup.concat hkey
  order := by rw [List.map_append, ← h.order]; rfl
  found := by
    intro g hg
    rw [get?_insert]
    rcases List.mem_append.1 hg with hg | hg
    · have hne : g.key ≠ f.key := fun heq => hkey (heq ▸ List.mem_map_of_mem hg)
      rw [if_neg hne, h.found g hg]
    · rw [List.mem_singleton.1 hg, if_pos rfl]
  missing := by
    intro key hnone
    rw [List.map_append, List.mem_append, not_or, List.map_singleton, List.mem_singleton] at hnone
    rw [get?_insert, if_neg hnone.2, h.missing key hnone.1]

/-- **Flags that are taken in** keep the invariant, and each of them was checked. -/
theorem takeIn (h : t.Holds fs) (hu : t.takeIn gs = .ok u) :
    u.Holds (fs ++ gs) ∧ ∀ g ∈ gs, g.check = .ok () := by
  induction gs generalizing t fs with
  | nil =>
      obtain rfl := Except.ok.inj hu
      exact ⟨by rwa [List.append_nil], fun _ hg => (nomatch hg)⟩
  | cons g gs ih =>
      rw [FlagTable.takeIn] at hu
      split at hu
      · cases hu
      · next hnew =>
          split at hu
          · cases hu
          · next hcheck =>
              rw [h.isSome_iff] at hnew
              obtain ⟨hholds, hall⟩ := ih (h.insert hnew) hu
              rw [List.append_assoc] at hholds
              exact ⟨hholds, List.forall_mem_cons.2 ⟨hcheck, hall⟩⟩

/-- The flags of the table are those that were taken in, in their order. -/
theorem flags (h : t.Holds fs) : t.flags = fs.map Flag.compile := by
  rw [FlagTable.flags, h.order, List.filterMap_map, ← List.filterMap_eq_map]
  exact List.filterMap_congr fun f hf => h.found f hf

/-- What is found under a key is the flag that has it. -/
theorem get?_eq (h : t.Holds fs) (key : String) :
    t.get? key = (fs.find? (·.key = key)).map Flag.compile := by
  cases hfind : fs.find? (·.key = key) with
  | none =>
      refine h.missing key fun hkey => ?_
      obtain ⟨f, hf, hfkey⟩ := List.mem_map.1 hkey
      exact List.find?_eq_none.1 hfind f hf (decide_eq_true hfkey)
  | some f =>
      have hkey : f.key = key := by simpa using List.find?_some hfind
      rw [← hkey, h.found f (List.mem_of_find?_eq_some hfind)]
      rfl

end Holds

/-- The table of flags that need no check. -/
def ofFlags (fs : List Flag) : FlagTable :=
  fs.foldl (fun t f => t.insert f.key f.compile) empty

end FlagTable

/-- The snapshot of a document that names its namespace and needs no check. -/
def Snapshot.ofDocument (d : Document) : Snapshot := ⟨d, .ofFlags d.flags⟩

/-! ### What was checked -/

/-- The rules that were checked. -/
theorem check_of_checkRules {flag : String} {rank : Nat} {rs : List Rule}
    (h : checkRules flag rank rs = .ok ()) : ∀ r ∈ rs, ∃ k, r.check flag k = .ok () := by
  induction rs generalizing rank with
  | nil => exact fun r hr => nomatch hr
  | cons r rs ih =>
      rw [checkRules] at h
      split at h
      · cases h
      · next hcheck =>
          intro q hq
          rcases List.mem_cons.1 hq with rfl | hq
          · exact ⟨rank, hcheck⟩
          · exact ih h q hq

/-- Every rule of a flag that was checked was checked. -/
theorem Flag.check_rule {f : Flag} (h : f.check = .ok ()) {r : Rule} (hr : r ∈ f.rules) :
    ∃ rank, r.check f.key rank = .ok () := by
  rw [check] at h
  split at h
  · cases h
  · next hrules => exact check_of_checkRules hrules r hr

/-! ### What is found -/

/-- A document does not name another namespace. -/
def Document.Fits (d : Document) (ns : String) : Prop := d.space.key = "" ∨ d.space.key = ns

theorem Document.adopt_flags (ns : String) (d : Document) : (d.adopt ns).flags = d.flags := by
  rw [adopt]
  split <;> rfl

theorem Document.adopt_space {d : Document} {ns : String} (h : d.Fits ns) :
    (d.adopt ns).space.key = ns := by
  rw [adopt]
  split
  · rfl
  · next hne =>
      rcases h with h | h
      · exact absurd (by simp [h]) hne
      · exact h

namespace Snapshot

variable {ns : String} {d : Document} {s : Snapshot}

/-- The snapshot of a document holds it with its namespace and has its flags, each of which was checked. -/
theorem build_ok (h : build ns d = .ok s) :
    s.document = d.adopt ns ∧ s.table.Holds d.flags ∧ ∀ f ∈ d.flags, f.check = .ok () := by
  simp only [build, Document.adopt_flags] at h
  split at h
  · cases h
  · next t ht =>
      obtain rfl := Except.ok.inj h
      exact ⟨rfl, FlagTable.holds_empty.takeIn ht⟩

/-- What is found in the snapshot of a document for a namespace. -/
theorem get?_eq_of_build (h : build ns d = .ok s) (other key : String) :
    s.get? other key =
      if (d.adopt ns).space.key = other then (d.flags.find? (·.key = key)).map Flag.compile
      else none := by
  obtain ⟨hdocument, hholds, -⟩ := build_ok h
  rw [get?, space, hdocument, hholds.get?_eq]

/-- **A flag of a document that is served is found under its key.** -/
theorem get?_of_build (h : build ns d = .ok s) (hfits : d.Fits ns) {f : Flag} (hf : f ∈ d.flags) :
    s.get? ns f.key = some f.compile := by
  obtain ⟨hdocument, hholds, -⟩ := build_ok h
  rw [get?, space, hdocument, Document.adopt_space hfits, if_pos rfl, hholds.found f hf]

end Snapshot

/-! ### What an evaluator serves -/

/-- An evaluator serves a document: its snapshot is that of the document, which names no other namespace,
and it holds no error. -/
structure Evaluator.Serves (e : Evaluator) (d : Document) : Prop where
  built : Snapshot.build e.space d = .ok e.snapshot
  fits : d.Fits e.space
  sound : e.error = none

namespace Evaluator.Serves

variable {e : Evaluator} {d : Document}

/-- A flag of the document is found under its key. -/
theorem get? (h : e.Serves d) {f : Flag} (hf : f ∈ d.flags) : e.get? f.key = some f.compile :=
  Snapshot.get?_of_build h.built h.fits hf

/-- Every flag of the document was checked. -/
theorem check_flag (h : e.Serves d) {f : Flag} (hf : f ∈ d.flags) : f.check = .ok () :=
  (Snapshot.build_ok h.built).2.2 f hf

end Evaluator.Serves

end FeatureFlags
