/-
**A snapshot is a faithful index of its document.**

Whether a document is made into a snapshot, and with which fault not, is said by what is in the document
alone.  The snapshot then holds the document as it was, under the namespace that it names or was taken
into.  For this namespace each flag of the document is listed once, in the order of the document, and
each is found under its key with all of its rules and rollouts in their places; nothing else is found,
and for another namespace nothing at all.

Main definitions:

* `Effect.Of`, `FlagInfo.Of`, `CompiledFlag.Of` — **the form in which a flag of a document is served**;
* `Snapshot.Indexes` — what a snapshot holds of a document.

Main results:

* `Snapshot.indexes_of_build` — a snapshot is such an index of the document that it was built of;
* `Snapshot.build_outcome` — **which documents become snapshots, the fault of the others, and what a
  snapshot holds.**
-/
import Mathlib.Data.List.Forall2
import FeatureFlags.Proofs.FirstFault

set_option autoImplicit false

namespace FeatureFlags

/-! ### The form in which flags are served -/

/-- What a rollout of a document does: a threshold goes before segments. -/
inductive Effect.Of (r : Rollout) : Effect → Prop
  | threshold {t : Threshold} : r.threshold = some t → Of r (.threshold t.percentage t.value)
  | selection {s : SegmentRollout} : r.threshold = none → r.segment = some s →
      Of r (.selection s.operator s.segments s.value)
  | nothing : r.threshold = none → r.segment = none → Of r .nothing

/-- What is listed of a flag of a document. -/
structure FlagInfo.Of (f : Flag) (i : FlagInfo) : Prop where
  key : i.key = f.key
  name : i.name = f.name
  enabled : i.enabled = f.enabled
  kind : i.kind = f.kind
  description : i.description = f.description
  defaultVariant : i.defaultVariant = f.defaultVariant

/-- A flag of a document as it is served: its rules as they are and what its rollouts do, in their order,
with places counted from one. -/
structure CompiledFlag.Of (f : Flag) (c : CompiledFlag) : Prop where
  info : FlagInfo.Of f c.info
  rules : c.rules.map (·.item) = f.rules
  ruleRanks : c.rules.map (·.rank) = List.range' 1 f.rules.length
  rollouts : List.Forall₂ Effect.Of f.rollouts (c.rollouts.map (·.item))
  rolloutRanks : c.rollouts.map (·.rank) = List.range' 1 f.rollouts.length

/-- What a snapshot holds of a document that it was made of for a namespace. -/
structure Snapshot.Indexes (s : Snapshot) (ns : String) (d : Document) : Prop where
  /-- The namespace that the document names counts, if it names one. -/
  space : s.space = if d.space.key = "" then ns else d.space.key
  document : s.document = { d with space := { d.space with key := s.space } }
  /-- Each flag is listed once, in the order of the document. -/
  list : ∃ infos, s.list? s.space = some infos ∧ List.Forall₂ FlagInfo.Of d.flags infos
  /-- What is found under a key is the one flag of the document that has it. -/
  find : ∀ key c, s.get? s.space key = some c ↔
    ∃ f ∈ d.flags, f.key = key ∧ (∀ g ∈ d.flags, g.key = key → g = f) ∧ CompiledFlag.Of f c
  missing : ∀ key, (∀ f ∈ d.flags, f.key ≠ key) → s.get? s.space key = none
  foreign : ∀ other, other ≠ s.space → s.list? other = none ∧ ∀ key, s.get? other key = none

/-! ### Places -/

section

variable {α : Type}

theorem map_item_rankFrom (rank : ℕ) (as : List α) : (rankFrom rank as).map (·.item) = as := by
  induction as generalizing rank with
  | nil => rfl
  | cons a as ih => rw [rankFrom, List.map_cons, ih]

theorem map_rank_rankFrom (rank : ℕ) (as : List α) :
    (rankFrom rank as).map (·.rank) = List.range' rank as.length := by
  induction as generalizing rank with
  | nil => rfl
  | cons a as ih => rw [rankFrom, List.map_cons, ih, List.length_cons, List.range'_succ]

/-- Items with their places are given by the items and the places. -/
theorem eq_of_items_of_ranks {l m : List (Ranked α)} (hitems : l.map (·.item) = m.map (·.item))
    (hranks : l.map (·.rank) = m.map (·.rank)) : l = m := by
  induction l generalizing m with
  | nil => exact (List.map_eq_nil_iff.1 hitems.symm).symm
  | cons a l ih =>
      cases m with
      | nil => cases hitems
      | cons b m =>
          rw [List.map_cons, List.map_cons, List.cons.injEq] at hitems hranks
          obtain ⟨rank, item⟩ := a
          obtain ⟨rank', item'⟩ := b
          obtain ⟨rfl, hitems⟩ := hitems
          obtain ⟨rfl, hranks⟩ := hranks
          rw [ih hitems hranks]

end

/-! ### Flags -/

theorem Effect.of_effect (r : Rollout) : Effect.Of r r.effect := by
  rw [Rollout.effect]
  cases ht : r.threshold with
  | some t => exact .threshold ht
  | none =>
      cases hs : r.segment with
      | some s => exact .selection ht hs
      | none => exact .nothing ht hs

theorem Effect.Of.eq {r : Rollout} {effect : Effect} (h : Effect.Of r effect) :
    effect = r.effect := by
  rw [Rollout.effect]
  cases h with
  | threshold ht => rw [ht]
  | selection ht hs => rw [ht, hs]
  | nothing ht hs => rw [ht, hs]

/-- The effects of rollouts are these and no others. -/
theorem forall₂_effect_iff (rs : List Rollout) (effects : List Effect) :
    List.Forall₂ Effect.Of rs effects ↔ effects = rs.map (·.effect) := by
  constructor
  · intro h
    induction h with
    | nil => rfl
    | cons hr _ ih => rw [List.map_cons, ih, hr.eq]
  · rintro rfl
    induction rs with
    | nil => exact .nil
    | cons r rs ih => exact .cons (Effect.of_effect r) ih

theorem FlagInfo.of_info (f : Flag) : FlagInfo.Of f f.info := ⟨rfl, rfl, rfl, rfl, rfl, rfl⟩

theorem FlagInfo.Of.eq {f : Flag} {i : FlagInfo} (h : FlagInfo.Of f i) : i = f.info := by
  obtain ⟨key, name, enabled, kind, description, defaultVariant⟩ := i
  obtain ⟨rfl, rfl, rfl, rfl, rfl, rfl⟩ := h
  rfl

namespace CompiledFlag

theorem of_compile (f : Flag) : CompiledFlag.Of f f.compile where
  info := FlagInfo.of_info f
  rules := map_item_rankFrom 1 f.rules
  ruleRanks := map_rank_rankFrom 1 f.rules
  rollouts := (forall₂_effect_iff _ _).2 (map_item_rankFrom 1 (f.rollouts.map (·.effect)))
  rolloutRanks := by
    have h := map_rank_rankFrom 1 (f.rollouts.map (·.effect))
    rwa [List.length_map] at h

/-- A flag is served in one form only. -/
theorem Of.eq {f : Flag} {c : CompiledFlag} (h : CompiledFlag.Of f c) : c = f.compile := by
  have hc := of_compile f
  have hinfo : c.info = f.compile.info := h.info.eq
  have hrules : c.rules = f.compile.rules :=
    eq_of_items_of_ranks (h.rules.trans hc.rules.symm) (h.ruleRanks.trans hc.ruleRanks.symm)
  have hrollouts : c.rollouts = f.compile.rollouts :=
    eq_of_items_of_ranks
      (((forall₂_effect_iff _ _).1 h.rollouts).trans ((forall₂_effect_iff _ _).1 hc.rollouts).symm)
      (h.rolloutRanks.trans hc.rolloutRanks.symm)
  obtain ⟨info, rules, rollouts⟩ := c
  rw [show info = _ from hinfo, show rules = _ from hrules, show rollouts = _ from hrollouts]

end CompiledFlag

/-! ### Snapshots -/

/-- Of flags with different keys, only one has a given key. -/
theorem eq_of_key_eq {fs : List Flag} (h : (fs.map (·.key)).Nodup) {f g : Flag} (hf : f ∈ fs)
    (hg : g ∈ fs) (hkey : g.key = f.key) : g = f :=
  List.inj_on_of_nodup_map h hg hf hkey

namespace Document

/-- The namespace that a document names after it was taken into one. -/
theorem adopt_space_key (ns : String) (d : Document) :
    (d.adopt ns).space.key = if d.space.key = "" then ns else d.space.key := by
  rw [adopt]
  by_cases h : d.space.key = ""
  · simp [h]
  · have hne : d.space.key.isEmpty = false := by simpa using h
    simp [h, hne]

/-- Apart from its namespace a document stays as it is. -/
theorem adopt_eq (ns : String) (d : Document) :
    d.adopt ns = { d with space := { d.space with key := (d.adopt ns).space.key } } := by
  rw [adopt]
  split <;> rfl

end Document

namespace Snapshot

variable {ns : String} {d : Document}

/-- **A snapshot is a faithful index of its document.** -/
theorem indexes_of_build {s : Snapshot} (h : build ns d = .ok s) : s.Indexes ns d := by
  obtain ⟨hdocument, hholds, -⟩ := build_ok h
  have hspace : s.space = (d.adopt ns).space.key := by rw [space, hdocument]
  exact {
    space := hspace.trans (d.adopt_space_key ns)
    document := by
      rw [hspace, hdocument]
      exact d.adopt_eq ns
    list := by
      refine ⟨d.flags.map Flag.info, ?_, ?_⟩
      · rw [list?, if_pos rfl, flags, hholds.flags, List.map_map]
        rfl
      · rw [List.forall₂_map_right_iff, List.forall₂_same]
        exact fun f _ => FlagInfo.of_info f
    find := by
      intro key c
      rw [get?, if_pos rfl]
      constructor
      · intro hc
        have hkey : key ∈ d.flags.map (·.key) := hholds.isSome_iff.1 (by rw [hc]; rfl)
        obtain ⟨f, hf, rfl⟩ := List.mem_map.1 hkey
        obtain rfl : f.compile = c := Option.some.inj ((hholds.found f hf).symm.trans hc)
        exact ⟨f, hf, rfl, fun g hg hkey => eq_of_key_eq hholds.nodup hf hg hkey,
          CompiledFlag.of_compile f⟩
      · rintro ⟨f, hf, rfl, -, hc⟩
        rw [hc.eq, hholds.found f hf]
    missing := by
      intro key hnone
      rw [get?, if_pos rfl]
      refine hholds.missing key fun hkey => ?_
      obtain ⟨f, hf, hfkey⟩ := List.mem_map.1 hkey
      exact hnone f hf hfkey
    foreign := by
      intro other hother
      exact ⟨if_neg hother.symm, fun key => if_neg hother.symm⟩ }

/-- **Which documents become snapshots, the fault of the others, and what a snapshot holds.**  A document
becomes a snapshot exactly if it is sound; if not, its first fault is reported; and the snapshot is a
faithful index of the document. -/
theorem build_outcome (ns : String) (d : Document) :
    ((∃ s, build ns d = .ok s) ↔ d.Sound) ∧
      (∀ fault, build ns d = .error fault ↔ d.FirstFault fault) ∧
      ∀ s, build ns d = .ok s → s.Indexes ns d := by
  have hsound : d.Sound → ∃ s, build ns d = .ok s := by
    intro h
    obtain ⟨t, ht⟩ := Document.takeIn_of_sound h
    exact ⟨⟨d.adopt ns, t⟩, by simp only [build, Document.adopt_flags, ht]⟩
  have hfault : ∀ fault, d.FirstFault fault → build ns d = .error fault := by
    intro fault h
    simp only [build, Document.adopt_flags, Document.takeIn_of_firstFault h]
  -- each document has one of the two outcomes, so what it comes to tells which of them
  refine ⟨⟨?_, hsound⟩, fun fault => ⟨?_, hfault fault⟩, fun s hs => indexes_of_build hs⟩
  · rintro ⟨s, hs⟩
    refine d.sound_or_firstFault.resolve_right ?_
    rintro ⟨first, h⟩
    cases hs.symm.trans (hfault first h)
  · intro heq
    rcases d.sound_or_firstFault with h | ⟨first, h⟩
    · obtain ⟨s, hs⟩ := hsound h
      cases hs.symm.trans heq
    · rwa [Except.error.inj (heq.symm.trans (hfault first h))]

/-- Two flags are indexed; and in a second document, where a rule gives away too much, that is the first
fault, although a later rollout asks for more than all and the flag behind it has its key. -/
theorem build_outcome_two_flags :
    let share (percentage : ℕ) : Distribution := ⟨"v", Floating.ofNat percentage, some "{}"⟩
    let rule : Rule := ⟨[⟨"all", .all, []⟩], .or, [share 60, share 40]⟩
    let greedy : Rule := ⟨[⟨"all", .all, []⟩], .or, [share 60, share 60]⟩
    let rollout : Rollout := ⟨none, none, some ⟨Floating.ofNat 100, true⟩⟩
    let more : Rollout := ⟨none, none, some ⟨Floating.ofNat 101, true⟩⟩
    let flag (key : String) (rules : List Rule) (rollouts : List Rollout) : Flag :=
      ⟨key, "F", .variant, none, true, rules, rollouts, some ⟨"v", none⟩⟩
    let served : Document := ⟨⟨"", none⟩, [flag "a" [rule, rule] [], flag "b" [] [rollout, rollout]]⟩
    let faulty : Document := ⟨⟨"", none⟩, [flag "a" [rule, greedy] [more], flag "a" [] []]⟩
    let s : Snapshot := .ofDocument ⟨⟨"ns", none⟩, served.flags⟩
    build "ns" served = .ok s ∧ served.Sound ∧ s.Indexes "ns" served ∧
      ¬faulty.Sound ∧ faulty.FirstFault (.excess "a" 2 (Floating.ofNat 120)) := by
  intro share rule greedy rollout more flag served faulty s
  have hserved : build "ns" served = .ok s := by decide +kernel
  have hfaulty : build "ns" faulty = .error (.excess "a" 2 (Floating.ofNat 120)) := by decide +kernel
  obtain ⟨hsound, -, hindexes⟩ := build_outcome "ns" served
  obtain ⟨hsound', hfault, -⟩ := build_outcome "ns" faulty
  refine ⟨hserved, hsound.1 ⟨s, hserved⟩, hindexes s hserved, fun h => ?_, (hfault _).1 hfaulty⟩
  obtain ⟨s', hs'⟩ := hsound'.2 h
  rw [hfaulty] at hs'
  cases hs'

end Snapshot

end FeatureFlags
