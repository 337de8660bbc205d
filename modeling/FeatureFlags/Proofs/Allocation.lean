/-
**Which buckets a rule gives to which distribution.**

A rule of a document that is served gives its buckets away one distribution after the other.  Each gets as
many as the whole part of ten times its percentage, and begins where the one before it ends; the first
begins at bucket 0.  What is left behind the last belongs to nobody.

That this is what bisecting the running totals finds rests on the totals being exact and never above the
thousand buckets.  The check of a document does not say so: it lets a sum of roundings pass that exceeds
100, and the shares are roundings of their own.  `Rule.sum_share_le` is what makes up for it.

Main definitions:

* `Bucket.start` — where the buckets of a distribution begin;
* `Bucket.Layout` — **how the buckets lie.**

Main results:

* `Bucket.owns_iff` — the buckets that a share owns are those from its start on;
* `Bucket.layout_of_sum_le` — shares that fit into the buckets lie one behind the other;
* `Snapshot.layout_of_build` — **so do the distributions of every rule that is served.**
-/
import Mathlib.Order.Interval.Finset.Nat
import FeatureFlags.Proofs.Nearest
import FeatureFlags.Proofs.VariantReading

set_option autoImplicit false

namespace FeatureFlags

namespace Bucket

/-! ### Starts -/

/-- Where the buckets of the share at a place begin: behind the shares before it. -/
def start (ps : List Single) (i : ℕ) : ℕ := ((ps.map share).take i).sum

theorem start_zero (ps : List Single) : start ps 0 = 0 := rfl

theorem start_length (ps : List Single) : start ps ps.length = (ps.map share).sum := by
  rw [start, List.take_of_length_le (List.length_map share).le]

theorem start_succ {ps : List Single} {i : ℕ} (hi : i < ps.length) :
    start ps (i + 1) = start ps i + share ps[i] := by
  rw [start, List.sum_take_succ _ _ (by rwa [List.length_map]), List.getElem_map]
  rfl

theorem start_mono (ps : List Single) {i j : ℕ} (h : i ≤ j) : start ps i ≤ start ps j :=
  sum_take_mono _ h

theorem start_le_sum (ps : List Single) (i : ℕ) : start ps i ≤ (ps.map share).sum :=
  sum_take_le _ i

/-- A share owns the buckets from its start up to the start of the next one. -/
theorem owns_iff (ps : List Single) (bucket i : ℕ) :
    Owns (ps.map share) bucket i ↔ i < ps.length ∧ start ps i ≤ bucket ∧ bucket < start ps (i + 1) := by
  constructor
  · rintro ⟨hlength, hbefore, hwithin⟩
    rw [List.length_map] at hlength
    exact ⟨hlength, hbefore, hwithin⟩
  · rintro ⟨hlength, hbefore, hwithin⟩
    rw [← List.length_map share] at hlength
    exact ⟨hlength, hbefore, hwithin⟩

/-! ### Layouts -/

/-- How the buckets of some percentages lie. -/
structure Layout (ps : List Single) : Prop where
  /-- A share is the whole part of ten times its percentage, rounded to the nearest number. -/
  share_eq : ∀ p ∈ ps,
    Floating.IsNearest (10 * p.toRat) (tenfold p) ∧ share p = ⌊(tenfold p).toRat⌋₊
  /-- No addition to a running total leaves its 32 bits. -/
  fits : ∀ i (hi : i < ps.length), start ps i + share ps[i] < 2 ^ 32
  /-- Each running total is the start of the next share. -/
  bounds_eq : bounds ps = (List.range ps.length).map fun i => start ps (i + 1)
  monotone : (bounds ps).Pairwise (· ≤ ·)
  le_count : ∀ b ∈ bounds ps, b ≤ count
  /-- The first share begins at the first bucket. -/
  begins : start ps 0 = 0
  /-- A share is selected by the buckets from its start up to the start of the next one. -/
  owned : ∀ i < ps.length,
    {b ∈ Finset.range count | select (bounds ps) b = some i} = Finset.Ico (start ps i) (start ps (i + 1))
  /-- They are as many as the share says. -/
  card_owned : ∀ i (hi : i < ps.length),
    Finset.card {b ∈ Finset.range count | select (bounds ps) b = some i} = share ps[i]
  /-- The buckets behind the last share select nothing. -/
  unowned : ∀ b, start ps ps.length ≤ b → select (bounds ps) b = none

section

variable {ps : List Single} (h : (ps.map share).sum ≤ count)
include h

theorem sum_share_lt : (ps.map share).sum < 2 ^ 32 := lt_of_le_of_lt h (by decide)

/-- Running totals that fit are the starts of the next shares. -/
theorem bounds_eq_start : bounds ps = (List.range ps.length).map fun i => start ps (i + 1) := by
  have hlength : (bounds ps).length = ps.length := length_boundsFrom 0 ps
  refine List.ext_getElem (by simp [hlength]) ?_
  intro i h₁ h₂
  have hi : i < ps.length := hlength ▸ h₁
  have hfit : 0 + (ps.map share).sum < 2 ^ 32 := by
    rw [Nat.zero_add]
    exact sum_share_lt h
  have htotal : (bounds ps).getD i 0 = 0 + start ps (i + 1) := getD_boundsFrom hfit hi
  rw [List.getD_eq_getElem?_getD, List.getElem?_eq_getElem h₁, Option.getD_some, Nat.zero_add]
    at htotal
  rw [htotal, List.getElem_map, List.getElem_range]

/-- The buckets that select a share are those from its start up to the start of the next one. -/
theorem filter_select_eq {i : ℕ} (hi : i < ps.length) :
    {b ∈ Finset.range count | select (bounds ps) b = some i} =
      Finset.Ico (start ps i) (start ps (i + 1)) := by
  have hend := start_le_sum ps (i + 1)
  ext b
  rw [Finset.mem_filter, Finset.mem_range, Finset.mem_Ico, select_eq_some_iff (sum_share_lt h),
    owns_iff]
  constructor
  · rintro ⟨-, -, hb⟩
    exact hb
  · rintro ⟨hlow, hhigh⟩
    exact ⟨by omega, hi, hlow, hhigh⟩

/-- **Percentages whose shares fit into the buckets lie one behind the other.** -/
theorem layout_of_sum_le (hps : ∀ p ∈ ps, Single.isPercentage p = true) : Layout ps where
  share_eq := by
    intro p hp
    have hround := roundsTo_tenfold (hps p hp)
    exact ⟨hround.isNearest (by decide) (representable_tenfold (hps p hp)),
      share_eq_floor (hps p hp)⟩
  fits := by
    intro i hi
    rw [← start_succ hi]
    exact lt_of_le_of_lt (start_le_sum ps (i + 1)) (sum_share_lt h)
  bounds_eq := bounds_eq_start h
  monotone := by
    rw [bounds_eq_start h, List.pairwise_map]
    refine List.pairwise_lt_range.imp ?_
    intro i j hij
    exact start_mono ps (by omega)
  le_count := by
    rw [bounds_eq_start h]
    intro b hb
    obtain ⟨i, -, rfl⟩ := List.mem_map.1 hb
    exact (start_le_sum ps (i + 1)).trans h
  begins := start_zero ps
  owned := by
    intro i hi
    exact filter_select_eq h hi
  card_owned := by
    intro i hi
    rw [filter_select_eq h hi, Nat.card_Ico, start_succ hi, Nat.add_sub_cancel_left]
  unowned := by
    intro b hb
    rw [start_length] at hb
    exact (select_eq_none_iff (sum_share_lt h) b).2 hb

end

end Bucket

/-! ### Rules that are served -/

/-- The rules of a document that is served were checked. -/
theorem Snapshot.check_rule_of_build {ns : String} {d : Document} {s : Snapshot} {f : Flag} {r : Rule}
    (hbuild : Snapshot.build ns d = .ok s) (hf : f ∈ d.flags) (hr : r ∈ f.rules) :
    ∃ rank, r.check f.key rank = .ok () := by
  obtain ⟨-, -, hall⟩ := build_ok hbuild
  exact Flag.check_rule (hall f hf) hr

namespace Rule

variable {r : Rule} {flag : String} {rank : ℕ}

/-- What a rule that was checked gives away are percentages. -/
theorem isPercentage_shares (h : r.check flag rank = .ok ()) :
    ∀ p ∈ r.shares.map (·.percentage), Single.isPercentage p = true := by
  obtain ⟨hps, -⟩ := of_check h
  intro p hp
  obtain ⟨d, hd, rfl⟩ := List.mem_map.1 hp
  exact hps _ (List.mem_map_of_mem (List.mem_of_mem_filter hd))

/-- Together they fit into the buckets. -/
theorem sum_share_shares_le (h : r.check flag rank = .ok ()) :
    ((r.shares.map (·.percentage)).map Bucket.share).sum ≤ Bucket.count := by
  rw [sum_shares, shares_eq h]
  exact taken_positive_le h

end Rule

/-- **The distributions of a rule that is served lie one behind the other in the buckets**, however far the
rounded sum of their percentages was let pass. -/
theorem Snapshot.layout_of_build {ns : String} {d : Document} {s : Snapshot} {f : Flag} {r : Rule}
    (hbuild : Snapshot.build ns d = .ok s) (hf : f ∈ d.flags) (hr : r ∈ f.rules) :
    Bucket.Layout (r.shares.map (·.percentage)) := by
  obtain ⟨rank, hcheck⟩ := check_rule_of_build hbuild hf hr
  exact Bucket.layout_of_sum_le (Rule.sum_share_shares_le hcheck) (Rule.isPercentage_shares hcheck)

/-- A rule whose percentages are let pass although they exceed 100, one of them nothing and one of them
less than a bucket. -/
theorem Snapshot.layout_of_build_excess :
    let shares : List Distribution := [⟨"a", Floating.ofDecimal false 50004 (-3), none⟩,
      ⟨"b", Floating.ofNat 0, none⟩, ⟨"c", Floating.ofDecimal false 4996 (-2), none⟩,
      ⟨"d", Floating.ofDecimal false 44 (-3), none⟩]
    let r : Rule := ⟨[], .and, shares⟩
    let f : Flag := ⟨"f", "F", .variant, none, true, [r], [], none⟩
    let d : Document := ⟨⟨"", none⟩, [f]⟩
    let s : Snapshot := .ofDocument ⟨⟨"ns", none⟩, [f]⟩
    Snapshot.build "ns" d = .ok s ∧ f ∈ d.flags ∧ r ∈ f.rules ∧
      Bucket.bounds (r.shares.map (·.percentage)) = [500, 999, 999] ∧
      Bucket.Layout (r.shares.map (·.percentage)) := by
  intro shares r f d s
  have hbuild : Snapshot.build "ns" d = .ok s := by decide +kernel
  have hf : f ∈ d.flags := List.mem_singleton_self f
  have hr : r ∈ f.rules := List.mem_singleton_self r
  exact ⟨hbuild, hf, hr, by decide +kernel, layout_of_build hbuild hf hr⟩

end FeatureFlags
