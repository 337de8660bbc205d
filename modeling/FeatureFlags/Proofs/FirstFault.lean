/-
**Which documents can be served, and the first fault of one that cannot.**

The flags of a document are taken in one after the other, up to the first thing that is wrong.  What comes
of it can be said without going through anything.  A document is *sound* if its keys are different, its
percentages are percentages and no rule comes to give away more than all while it is summed up; and
where it is not sound there is one place that is at fault while everything before it is in order.  Within
a flag a repeated key comes before everything else, the rules come before the rollouts, and the
percentages of a rule come before their sum.

A rule is refused for its last sum only.  But percentages are never negative, and rounding does not change
that a sum grows, so no sum on the way can exceed the limit if the last one does not.

Main definitions:

* `Rule.Sound`, `Flag.Sound`, `Document.Sound` — **documents that can be served**;
* `Rule.FirstFault`, `Flag.FirstFault`, `Document.FirstFault` — **the fault that is reported of others**.

Main results:

* `Single.pass_of_append` — no sum on the way exceeds the limit if the last one does not;
* `Document.sound_or_firstFault` — a document is sound or has a first fault;
* `FlagTable.Holds.takeIn_append` — flags that are in order are taken in;
* `Document.takeIn_of_sound`, `Document.takeIn_of_firstFault` — **what comes of the flags of a document.**
-/
import FeatureFlags.Proofs.Matching
import FeatureFlags.Proofs.Served
import FeatureFlags.Proofs.Shares

set_option autoImplicit false

namespace FeatureFlags

open Floating (Finite Representable)

/-! ### Documents in order and out of order -/

/-- A finite number between 0 and 100. -/
structure Single.Percentage (p : Single) : Prop where
  finite : Finite p
  nonneg : 0 ≤ p.toRat
  le_hundred : p.toRat ≤ 100

/-- A sum that is taken to exceed 100: it is greater than 100.01, or infinite. -/
inductive Single.Exceeds : Single → Prop
  | infinite : Exceeds (.infinite false)
  | finite {total : Single} : Finite total → Single.mostTotal.toRat < total.toRat → Exceeds total

/-- The percentages of a rule are percentages, and none of their sums, up to any of them, exceeds 100. -/
structure Rule.Sound (r : Rule) : Prop where
  percentages : ∀ p ∈ r.percentages, p.Percentage
  totals : ∀ n, ¬(Single.total (r.percentages.take n)).Exceeds

/-- The threshold of a rollout, if it has one, asks for a percentage. -/
def Rollout.Sound (r : Rollout) : Prop := ∀ t, r.threshold = some t → t.percentage.Percentage

/-- The rules and the rollouts of a flag are in order. -/
structure Flag.Sound (f : Flag) : Prop where
  rules : ∀ r ∈ f.rules, r.Sound
  rollouts : ∀ r ∈ f.rollouts, r.Sound

/-- The flags of a document have different keys, and each of them is in order. -/
structure Document.Sound (d : Document) : Prop where
  keys : (d.flags.map (·.key)).Nodup
  flags : ∀ f ∈ d.flags, f.Sound

/-- The first fault of a rule in its place: a percentage that is none, or else the sum of all. -/
inductive Rule.FirstFault (flag : String) (rank : ℕ) (r : Rule) : DocumentFault → Prop
  | percentage {p : Single} : First (fun p => ¬p.Percentage) p r.percentages →
      FirstFault flag rank r (.percentage flag p)
  | excess : (∀ p ∈ r.percentages, p.Percentage) → (Single.total r.percentages).Exceeds →
      FirstFault flag rank r (.excess flag rank (Single.total r.percentages))

/-- The first fault of a flag: that of the first rule with one, or else that of a rollout. -/
inductive Flag.FirstFault (f : Flag) : DocumentFault → Prop
  | rule {before after : List Rule} {r : Rule} {fault : DocumentFault} :
      f.rules = before ++ r :: after → (∀ q ∈ before, q.Sound) →
      r.FirstFault f.key (before.length + 1) fault → FirstFault f fault
  | rollout {r : Rollout} {t : Threshold} : (∀ r ∈ f.rules, r.Sound) →
      First (fun r => ¬r.Sound) r f.rollouts → r.threshold = some t →
      FirstFault f (.percentage f.key t.percentage)

/-- The first fault of a document: that of the first flag with one, for which a key that an earlier flag
has counts before anything else. -/
inductive Document.FirstFault (d : Document) : DocumentFault → Prop
  | repeatedKey {before after : List Flag} {f : Flag} : d.flags = before ++ f :: after →
      (before.map (·.key)).Nodup → (∀ g ∈ before, g.Sound) → f.key ∈ before.map (·.key) →
      FirstFault d (.repeatedKey f.key)
  | flag {before after : List Flag} {f : Flag} {fault : DocumentFault} :
      d.flags = before ++ f :: after → (before.map (·.key)).Nodup → (∀ g ∈ before, g.Sound) →
      f.key ∉ before.map (·.key) → f.FirstFault fault → FirstFault d fault

/-! ### Sums on the way -/

namespace Single

theorem isPercentage_iff_percentage (p : Single) : isPercentage p = true ↔ p.Percentage := by
  rw [isPercentage_iff]
  exact ⟨fun ⟨hfinite, hlow, hhigh⟩ => ⟨hfinite, hlow, hhigh⟩,
    fun h => ⟨h.finite, h.nonneg, h.le_hundred⟩⟩

theorem lt_eq_true_iff_exceeds (total : Single) : mostTotal.lt total = true ↔ total.Exceeds := by
  constructor
  · intro hlt
    cases total with
    | nan => cases hlt
    | infinite negative =>
        cases negative with
        | false => exact .infinite
        | true => exact absurd hlt (by decide +kernel)
    | finite a m e => exact .finite (.of ..) ((Floating.lt_iff finite_mostTotal (.of ..)).1 hlt)
  · intro h
    cases h with
    | infinite => decide +kernel
    | finite hfinite hlt => exact (Floating.lt_iff finite_mostTotal hfinite).2 hlt

/-- A sum of percentages is an infinity, or a number of the format that is not negative. -/
theorem foldl_infinite_or_representable {ps : List Single} (hps : ∀ p ∈ ps, isPercentage p = true) :
    ∀ t : Single, Representable t → 0 ≤ t.toRat →
      ps.foldl Floating.add t = .infinite false ∨
        Representable (ps.foldl Floating.add t) ∧ 0 ≤ (ps.foldl Floating.add t).toRat := by
  induction ps with
  | nil => exact fun t ht hnonneg => Or.inr ⟨ht, hnonneg⟩
  | cons p ps ih =>
      intro t ht hnonneg
      have hrest : ∀ q ∈ ps, isPercentage q = true := fun q hq => hps q (List.mem_cons_of_mem _ hq)
      have hround := add_percentage ht hnonneg (hps p (List.mem_cons_self ..))
      rw [List.foldl_cons]
      rcases hround.infinite_or_representable (by decide) with hinf | hsum
      · rw [hinf]
        exact Or.inl (foldl_infinite hrest)
      · exact ih hrest (t.add p) hsum (hround.toRat_nonneg (by decide))

/-- **No sum on the way exceeds the limit if the last one does not.** -/
theorem pass_of_append {ps qs : List Single} (h : ∀ p ∈ ps ++ qs, isPercentage p = true)
    (hpass : ¬(total (ps ++ qs)).Exceeds) : ¬(total ps).Exceeds := by
  have hps : ∀ p ∈ ps, isPercentage p = true := fun p hp => h p (List.mem_append_left _ hp)
  have hqs : ∀ p ∈ qs, isPercentage p = true := fun p hp => h p (List.mem_append_right _ hp)
  rw [← lt_eq_true_iff_exceeds, Bool.not_eq_true, total, List.foldl_append] at hpass
  rcases foldl_infinite_or_representable hps (Floating.ofNat 0) (Floating.representable_zero false)
    toRat_ofNat_zero.ge with hinf | ⟨hsum, hnonneg⟩
  · -- an infinite sum would have stayed infinite
    rw [hinf, foldl_infinite hqs] at hpass
    cases hpass
  · obtain ⟨hfinal, hgrows⟩ := sum_share_le_foldl hqs _ hsum hnonneg hpass
    have hmost := toRat_le_of_pass hfinal hpass
    have hshares : (0 : ℚ) ≤ (qs.map Bucket.share).sum := Nat.cast_nonneg _
    intro hexceeds
    have hlt := (Floating.lt_iff finite_mostTotal hsum.isFinite).1
      ((lt_eq_true_iff_exceeds _).2 hexceeds)
    rw [toRat_mostTotal] at hlt
    linarith

end Single

/-! ### Percentages -/

/-- Percentages that are in order pass the check. -/
theorem checkPercentages_of_all {ps : List Single} (h : ∀ p ∈ ps, p.Percentage) (flag : String) :
    checkPercentages flag ps = .ok () := by
  induction ps with
  | nil => rfl
  | cons p ps ih =>
      have hp := (Single.isPercentage_iff_percentage p).2 (h p (List.mem_cons_self ..))
      rw [checkPercentages, if_pos hp]
      exact ih fun q hq => h q (List.mem_cons_of_mem _ hq)

/-- The first percentage that is none is reported. -/
theorem checkPercentages_of_first {ps : List Single} {p : Single}
    (h : First (fun p => ¬p.Percentage) p ps) (flag : String) :
    checkPercentages flag ps = .error (.percentage flag p) := by
  induction h with
  | here hp =>
      rw [checkPercentages, if_neg]
      rwa [Single.isPercentage_iff_percentage]
  | later hq _ ih =>
      rw [checkPercentages, if_pos ((Single.isPercentage_iff_percentage _).2 (not_not.1 hq))]
      exact ih

/-! ### Rules -/

namespace Rule

variable {r : Rule} {flag : String} {rank : ℕ}

theorem check_of_sound (h : r.Sound) (flag : String) (rank : ℕ) : r.check flag rank = .ok () := by
  have htotal := h.totals r.percentages.length
  rw [List.take_length, ← Single.lt_eq_true_iff_exceeds, Bool.not_eq_true] at htotal
  rw [check, checkPercentages_of_all h.percentages]
  simp only [htotal, Bool.false_eq_true, if_false]

theorem check_of_firstFault {fault : DocumentFault} (h : r.FirstFault flag rank fault) :
    r.check flag rank = .error fault := by
  cases h with
  | percentage hp => rw [check, checkPercentages_of_first hp]
  | excess hps htotal =>
      rw [← Single.lt_eq_true_iff_exceeds] at htotal
      rw [check, checkPercentages_of_all hps]
      simp only [htotal, if_true]

theorem sound_or_firstFault (r : Rule) (flag : String) (rank : ℕ) :
    r.Sound ∨ ∃ fault, r.FirstFault flag rank fault := by
  rcases First.exists_or_none (fun p : Single => ¬p.Percentage) r.percentages with ⟨p, hp⟩ | hnone
  · exact Or.inr ⟨_, .percentage hp⟩
  · have hps : ∀ p ∈ r.percentages, p.Percentage := fun p hp => not_not.1 (hnone p hp)
    by_cases htotal : (Single.total r.percentages).Exceeds
    · exact Or.inr ⟨_, .excess hps htotal⟩
    · -- the last sum is the one of all percentages, and every other sum is on the way to it
      refine Or.inl ⟨hps, fun n => ?_⟩
      rw [← List.take_append_drop n r.percentages] at hps htotal
      exact Single.pass_of_append
        (fun p hp => (Single.isPercentage_iff_percentage p).2 (hps p hp)) htotal

end Rule

/-- Rules that are in order pass the check, and it goes on with those behind them. -/
theorem checkRules_append {before : List Rule} (h : ∀ r ∈ before, r.Sound) (flag : String) (rank : ℕ)
    (after : List Rule) :
    checkRules flag rank (before ++ after) = checkRules flag (rank + before.length) after := by
  induction before generalizing rank with
  | nil => rfl
  | cons r before ih =>
      rw [List.cons_append, checkRules, Rule.check_of_sound (h r (List.mem_cons_self ..))]
      refine (ih (fun q hq => h q (List.mem_cons_of_mem _ hq)) (rank + 1)).trans ?_
      rw [List.length_cons, Nat.add_assoc, Nat.add_comm 1]

theorem checkRules_of_all {rs : List Rule} (h : ∀ r ∈ rs, r.Sound) (flag : String) (rank : ℕ) :
    checkRules flag rank rs = .ok () := by
  have happend := checkRules_append h flag rank []
  rwa [List.append_nil] at happend

/-! ### Flags -/

/-- The thresholds of rollouts that are in order pass the check. -/
theorem percentage_of_mem_thresholdPercentages {rs : List Rollout} (h : ∀ r ∈ rs, r.Sound) :
    ∀ p ∈ thresholdPercentages rs, p.Percentage := by
  intro p hp
  obtain ⟨r, hr, hrp⟩ := List.mem_filterMap.1 hp
  obtain ⟨t, ht, rfl⟩ := Option.map_eq_some_iff.1 hrp
  exact h r hr t ht

/-- The first rollout that is out of order has the first threshold that is no percentage. -/
theorem first_thresholdPercentages {rs : List Rollout} {r : Rollout} {t : Threshold}
    (h : First (fun r => ¬r.Sound) r rs) (ht : r.threshold = some t) :
    First (fun p => ¬p.Percentage) t.percentage (thresholdPercentages rs) := by
  induction h with
  | here hr =>
      have hfault : ¬t.percentage.Percentage := by
        intro hp
        refine hr fun u hu => ?_
        rw [ht] at hu
        rwa [← Option.some.inj hu]
      rw [thresholdPercentages, List.filterMap_cons, ht]
      exact .here hfault
  | @later q l hq _ ih =>
      rw [thresholdPercentages, List.filterMap_cons]
      cases hthreshold : q.threshold with
      | none => exact ih
      | some u => exact .later (fun hnot => hnot (not_not.1 hq u hthreshold)) ih

namespace Flag

variable {f : Flag}

theorem check_of_sound (h : f.Sound) : f.check = .ok () := by
  rw [check, checkRules_of_all h.rules]
  exact checkPercentages_of_all (percentage_of_mem_thresholdPercentages h.rollouts) f.key

theorem check_of_firstFault {fault : DocumentFault} (h : f.FirstFault fault) :
    f.check = .error fault := by
  cases h with
  | rule hrules hbefore hr =>
      rw [check, hrules, checkRules_append hbefore, Nat.add_comm 1, checkRules,
        Rule.check_of_firstFault hr]
  | rollout hrules hr ht =>
      rw [check, checkRules_of_all hrules]
      exact checkPercentages_of_first (first_thresholdPercentages hr ht) f.key

end Flag

/-- A list has a first item with a property, which has items without it before it, or no such item. -/
theorem First.exists_split {α : Type} {p : α → Prop} {a : α} {l : List α} (h : First p a l) :
    ∃ before after, l = before ++ a :: after ∧ ∀ b ∈ before, ¬p b := by
  induction h with
  | @here l ha => exact ⟨[], l, rfl, fun b hb => nomatch hb⟩
  | @later b l hb _ ih =>
      obtain ⟨before, after, hl, hbefore⟩ := ih
      refine ⟨b :: before, after, by rw [hl]; rfl, fun c hc => ?_⟩
      rcases List.mem_cons.1 hc with rfl | hc
      · exact hb
      · exact hbefore c hc

theorem Flag.sound_or_firstFault (f : Flag) : f.Sound ∨ ∃ fault, f.FirstFault fault := by
  rcases First.exists_or_none (fun r : Rule => ¬r.Sound) f.rules with ⟨r, hr⟩ | hrules
  · obtain ⟨before, after, hsplit, hbefore⟩ := hr.exists_split
    obtain ⟨fault, hfault⟩ :=
      (r.sound_or_firstFault f.key (before.length + 1)).resolve_left hr.holds
    exact Or.inr ⟨fault, .rule hsplit (fun q hq => not_not.1 (hbefore q hq)) hfault⟩
  · have hrules : ∀ r ∈ f.rules, r.Sound := fun r hr => not_not.1 (hrules r hr)
    rcases First.exists_or_none (fun r : Rollout => ¬r.Sound) f.rollouts with ⟨r, hr⟩ | hrollouts
    · cases ht : r.threshold with
      | none => exact absurd (fun t h => by rw [ht] at h; cases h) hr.holds
      | some t => exact Or.inr ⟨_, .rollout hrules hr ht⟩
    · exact Or.inl ⟨hrules, fun r hr => not_not.1 (hrollouts r hr)⟩

/-- What the check of a flag makes sure of. -/
theorem Flag.sound_of_check {f : Flag} (h : f.check = .ok ()) : f.Sound := by
  rcases f.sound_or_firstFault with hsound | ⟨fault, hfault⟩
  · exact hsound
  · rw [check_of_firstFault hfault] at h
    cases h

/-! ### Documents -/

/-- Flags that are in order and have new keys are taken in, and it goes on with the flags behind them. -/
theorem FlagTable.Holds.takeIn_append {t : FlagTable} {fs before : List Flag} (h : t.Holds fs)
    (hnodup : ((fs ++ before).map (·.key)).Nodup) (hsound : ∀ f ∈ before, f.Sound) :
    ∃ u : FlagTable, u.Holds (fs ++ before) ∧
      ∀ after, t.takeIn (before ++ after) = u.takeIn after := by
  induction before generalizing t fs with
  | nil => exact ⟨t, by rwa [List.append_nil], fun _ => rfl⟩
  | cons f before ih =>
      rw [List.append_cons] at hnodup
      have hnew : f.key ∉ fs.map (·.key) := by
        rw [List.map_append, List.map_append, List.map_singleton] at hnodup
        have hfirst := hnodup.of_append_left
        rw [← List.concat_eq_append, List.nodup_concat] at hfirst
        exact hfirst.1
      obtain ⟨u, hu, hgo⟩ := ih (h.insert hnew) hnodup fun g hg => hsound g (List.mem_cons_of_mem _ hg)
      refine ⟨u, by rwa [List.append_cons], fun after => ?_⟩
      rw [List.cons_append, FlagTable.takeIn, if_neg (by rwa [h.isSome_iff]),
        Flag.check_of_sound (hsound f (List.mem_cons_self ..))]
      exact hgo after

/-- The flags of a document that are in order are taken in, and it goes on with the flags behind them. -/
theorem FlagTable.takeIn_empty_append {before : List Flag} (hnodup : (before.map (·.key)).Nodup)
    (hsound : ∀ f ∈ before, f.Sound) :
    ∃ u : FlagTable, u.Holds before ∧ ∀ after, empty.takeIn (before ++ after) = u.takeIn after :=
  holds_empty.takeIn_append hnodup hsound

/-- Flags are in order, or there is a first one with a fault or with a key that is there before. -/
theorem flags_sound_or_split (fs : List Flag) :
    ((fs.map (·.key)).Nodup ∧ ∀ f ∈ fs, f.Sound) ∨
      ∃ before f after, fs = before ++ f :: after ∧ (before.map (·.key)).Nodup ∧
        (∀ g ∈ before, g.Sound) ∧ (f.key ∈ before.map (·.key) ∨ ¬f.Sound) := by
  -- from the last flag on: the flags before it are in order, or have such a flag among them
  induction fs using List.reverseRecOn with
  | nil => exact Or.inl ⟨List.nodup_nil, fun f hf => nomatch hf⟩
  | append_singleton fs f ih =>
      rcases ih with ⟨hnodup, hsound⟩ | ⟨before, g, after, hfs, hrest⟩
      · by_cases hf : f.key ∈ fs.map (·.key) ∨ ¬f.Sound
        · exact Or.inr ⟨fs, f, [], rfl, hnodup, hsound, hf⟩
        · rw [not_or, not_not] at hf
          refine Or.inl ⟨?_, fun g hg => ?_⟩
          · rw [List.map_append, List.map_singleton, ← List.concat_eq_append]
            exact hnodup.concat hf.1
          · rcases List.mem_append.1 hg with hg | hg
            · exact hsound g hg
            · rw [List.mem_singleton.1 hg]
              exact hf.2
      · exact Or.inr ⟨before, g, after ++ [f], by rw [hfs]; simp, hrest⟩

namespace Document

variable {d : Document}

/-- **The flags of a sound document are taken in.** -/
theorem takeIn_of_sound (h : d.Sound) : ∃ t, FlagTable.empty.takeIn d.flags = .ok t := by
  obtain ⟨t, -, hgo⟩ := FlagTable.takeIn_empty_append h.keys h.flags
  have hall := hgo []
  rw [List.append_nil] at hall
  exact ⟨t, hall⟩

/-- **The first fault of a document is the one that is reported.** -/
theorem takeIn_of_firstFault {fault : DocumentFault} (h : d.FirstFault fault) :
    FlagTable.empty.takeIn d.flags = .error fault := by
  cases h with
  | repeatedKey hflags hnodup hsound hkey =>
      obtain ⟨t, ht, hgo⟩ := FlagTable.takeIn_empty_append hnodup hsound
      rw [hflags, hgo, FlagTable.takeIn, if_pos (ht.isSome_iff.2 hkey)]
  | flag hflags hnodup hsound hkey hfault =>
      obtain ⟨t, ht, hgo⟩ := FlagTable.takeIn_empty_append hnodup hsound
      rw [hflags, hgo, FlagTable.takeIn, if_neg (by rwa [ht.isSome_iff]),
        Flag.check_of_firstFault hfault]

/-- A document is sound or has a first fault. -/
theorem sound_or_firstFault (d : Document) : d.Sound ∨ ∃ fault, d.FirstFault fault := by
  rcases flags_sound_or_split d.flags with
    ⟨hnodup, hsound⟩ | ⟨before, f, after, hflags, hnodup, hsound, hf⟩
  · exact Or.inl ⟨hnodup, hsound⟩
  · by_cases hkey : f.key ∈ before.map (·.key)
    · exact Or.inr ⟨_, .repeatedKey hflags hnodup hsound hkey⟩
    · obtain ⟨fault, hfault⟩ := f.sound_or_firstFault.resolve_left (hf.resolve_left hkey)
      exact Or.inr ⟨fault, .flag hflags hnodup hsound hkey hfault⟩

end Document

end FeatureFlags
