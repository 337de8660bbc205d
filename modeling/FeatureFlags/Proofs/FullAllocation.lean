/-
**What a rule that gives everything away leaves to nobody.**

A rule gives everything away if its percentages above zero add up to at least 100.  Each of its
distributions gets whole buckets only, and the fractions of a bucket that are dropped are made up for
nowhere.  So the distributions can end before the last bucket does, and an entity in a bucket behind them is
answered as if the rule were rolled out to a part of all entities only.

There are always fewer buckets left over than there are distributions, since each is short of less than one.
None is left over if ten times each percentage is rounded to a whole number.

Main definitions:

* `Rule.IsFull` — a rule that gives everything away;
* `Bucket.IsWhole` — a percentage that gives whole buckets.

Main results:

* `Bucket.ten_mul_sum_lt` — **shares are short of their percentages by less than a bucket each**;
* `Rule.count_lt_taken_add_length`, `Rule.taken_eq_count` — how many buckets are left over;
* `Evaluator.variant_of_full` — **what a request gets from a rule that gives everything away.**
-/
import FeatureFlags.Proofs.Allocation

set_option autoImplicit false

namespace FeatureFlags

namespace Bucket

/-! ### What shares are short of -/

/-- A percentage that gives whole buckets: ten times it is rounded to a whole number, and not to zero. -/
def IsWhole (p : Single) : Prop := 0 < share p ∧ (tenfold p).toRat = share p

/-- What each share is short of at most, shares together are short of as often as there are some. -/
theorem ten_mul_sum_le {ps : List Single} {c : ℚ} (h : ∀ p ∈ ps, 10 * p.toRat ≤ share p + c) :
    10 * (ps.map (·.toRat)).sum ≤ ((ps.map share).sum : ℚ) + ps.length * c := by
  induction ps with
  | nil => simp
  | cons p ps ih =>
      have hp := h p (List.mem_cons_self ..)
      have hrest := ih fun q hq => h q (List.mem_cons_of_mem _ hq)
      simp only [List.map_cons, List.sum_cons, List.length_cons, Nat.cast_add, Nat.cast_one]
      linarith

section

variable {ps : List Single} (hps : ∀ p ∈ ps, Single.isPercentage p = true)
include hps

/-- **Shares together are short of their percentages by less than a bucket each**, if there are any. -/
theorem ten_mul_sum_lt (hne : ps ≠ []) :
    10 * (ps.map (·.toRat)).sum < ((ps.map share).sum : ℚ) + ps.length := by
  cases ps with
  | nil => exact absurd rfl hne
  | cons p ps =>
      have hp := lt_share_add_one (hps p (List.mem_cons_self ..))
      have hrest := ten_mul_sum_le fun q hq => (lt_share_add_one (hps q (List.mem_cons_of_mem p hq))).le
      simp only [List.map_cons, List.sum_cons, List.length_cons, Nat.cast_add, Nat.cast_one]
      linarith

/-- Shares of whole buckets are short of their percentages by a rounding error each. -/
theorem ten_mul_sum_le_of_whole (hwhole : ∀ p ∈ ps, IsWhole p) :
    10 * (ps.map (·.toRat)).sum ≤ ((ps.map share).sum : ℚ) + ps.length * (1 / 32768) := by
  apply ten_mul_sum_le
  intro p hp
  obtain ⟨-, hexact⟩ := hwhole p hp
  have hnear := abs_le.1 (abs_tenfold_sub_le (hps p hp))
  rw [hexact] at hnear
  linarith [hnear.1]

end

end Bucket

/-! ### Rules that give everything away -/

/-- A rule gives everything away if its percentages above zero add up to at least 100. -/
def Rule.IsFull (r : Rule) : Prop := 100 ≤ (r.positive.map fun d => d.percentage.toRat).sum

namespace Rule

variable {r : Rule} {flag : String} {rank : ℕ}

theorem positive_ne_nil (hfull : r.IsFull) : r.positive ≠ [] := by
  intro hnone
  rw [IsFull, hnone] at hfull
  norm_num at hfull

/-- What a rule that was checked gives away are percentages. -/
theorem isPercentage_positive (h : r.check flag rank = .ok ()) :
    ∀ p ∈ r.positive.map (·.percentage), Single.isPercentage p = true := by
  rw [← shares_eq h]
  exact isPercentage_shares h

/-- Ten times what it gives away is at least the number of buckets. -/
theorem IsFull.count_le (hfull : r.IsFull) :
    (Bucket.count : ℚ) ≤ 10 * (r.positive.map fun d => d.percentage.toRat).sum := by
  rw [IsFull] at hfull
  rw [Bucket.count]
  push_cast
  linarith

/-- **Fewer buckets are left over than there are distributions.** -/
theorem count_lt_taken_add_length (h : r.check flag rank = .ok ()) (hfull : r.IsFull) :
    Bucket.count < taken r.positive + r.positive.length := by
  have hne : r.positive.map (·.percentage) ≠ [] := by simpa using positive_ne_nil hfull
  have hshort := Bucket.ten_mul_sum_lt (isPercentage_positive h) hne
  rw [sum_shares, List.map_map, List.length_map] at hshort
  exact_mod_cast hfull.count_le.trans_lt hshort

/-- Distributions of whole buckets have at least one each. -/
theorem length_le_taken {ds : List Distribution} (hwhole : ∀ d ∈ ds, Bucket.IsWhole d.percentage) :
    ds.length ≤ taken ds := by
  have hone : ∀ n ∈ ds.map fun d => Bucket.share d.percentage, 1 ≤ n := by
    intro n hn
    obtain ⟨d, hd, rfl⟩ := List.mem_map.1 hn
    exact (hwhole d hd).1
  have hle := List.length_le_sum_of_one_le _ hone
  rwa [List.length_map] at hle

/-- **No bucket is left over if each percentage gives whole buckets.** -/
theorem taken_eq_count (h : r.check flag rank = .ok ()) (hfull : r.IsFull)
    (hwhole : ∀ d ∈ r.positive, Bucket.IsWhole d.percentage) : taken r.positive = Bucket.count := by
  have hfit := taken_positive_le h
  have hwhole' : ∀ p ∈ r.positive.map (·.percentage), Bucket.IsWhole p := by
    intro p hp
    obtain ⟨d, hd, rfl⟩ := List.mem_map.1 hp
    exact hwhole d hd
  have hshort := Bucket.ten_mul_sum_le_of_whole (isPercentage_positive h) hwhole'
  rw [sum_shares, List.map_map, List.length_map] at hshort
  -- there are at most as many roundings as buckets, and together they are less than one bucket
  have hlength : (r.positive.length : ℚ) ≤ Bucket.count := by
    exact_mod_cast (length_le_taken hwhole).trans hfit
  have hlt : (Bucket.count : ℚ) < taken r.positive + 1 := by
    have hle := hfull.count_le.trans hshort
    rw [Bucket.count] at hle hlength ⊢
    push_cast at hle hlength ⊢
    linarith
  have hlt : Bucket.count < taken r.positive + 1 := by exact_mod_cast hlt
  exact le_antisymm hfit (Nat.lt_succ_iff.1 hlt)

/-- What a rule that holds says, if it gives something away: a variant to the buckets within what it gives,
and nothing to those behind. -/
theorem reading_of_holds {request : Request} {keys : List String}
    (hkeys : r.operator.Holds r.segments request.entity keys) (hne : r.positive ≠ []) :
    (Bucket.ofVariant request.flag request.entity.id < taken r.positive ∧ ∃ v ∈ r.positive,
      r.Reading flag request (.ok ⟨true, keys, .matched, flag, v.variant, v.attachment.getD ""⟩)) ∨
    (taken r.positive ≤ Bucket.ofVariant request.flag request.entity.id ∧
      r.Reading flag request (.ok ⟨false, keys, .unknown, flag, "", ""⟩)) := by
  rcases split_or_past r.positive (Bucket.ofVariant request.flag request.entity.id) with
    ⟨before, v, after, hsplit, hle, hlt⟩ | hle
  · refine Or.inl ⟨?_, v, by simp [hsplit], .owned hkeys hsplit hle hlt⟩
    rw [hsplit, taken_append, taken_cons]
    omega
  · exact Or.inr ⟨hle, .past hkeys hne hle⟩

end Rule

/-! ### Answers -/

/-- **What a request gets from a rule that gives everything away**: the variant that owns its bucket, unless
the bucket lies behind all distributions.  There may be such buckets, but fewer than there are
distributions, and there are none if each percentage gives whole buckets. -/
theorem Evaluator.variant_of_full {ns : String} {d : Document} {s : Snapshot} {f : Flag} {r : Rule}
    (hbuild : Snapshot.build ns d = .ok s) (hf : f ∈ d.flags) (hr : r ∈ f.rules) (hfull : r.IsFull) :
    (∀ flag entity, Bucket.select (Bucket.bounds (r.shares.map (·.percentage)))
        (Bucket.ofVariant flag entity) = none ↔ taken r.positive ≤ Bucket.ofVariant flag entity) ∧
      Bucket.count < taken r.positive + r.positive.length ∧
      ((∀ v ∈ r.positive, Bucket.IsWhole v.percentage) → taken r.positive = Bucket.count) ∧
      ∀ (request : Request) (keys : List String), d.Fits ns → f.key = request.flag →
        f.kind = .variant → f.enabled = true → First (Rule.Decides request.entity) r f.rules →
        r.operator.Holds r.segments request.entity keys →
        (Bucket.ofVariant request.flag request.entity.id < taken r.positive ∧ ∃ v ∈ r.positive,
          (Evaluator.new ns s).variant request =
            .ok ⟨true, keys, .matched, f.key, v.variant, v.attachment.getD ""⟩) ∨
        (taken r.positive ≤ Bucket.ofVariant request.flag request.entity.id ∧
          (Evaluator.new ns s).variant request = .ok ⟨false, keys, .unknown, f.key, "", ""⟩) := by
  obtain ⟨rank, hcheck⟩ := Snapshot.check_rule_of_build hbuild hf hr
  refine ⟨fun flag entity => ?_, Rule.count_lt_taken_add_length hcheck hfull,
    Rule.taken_eq_count hcheck hfull, ?_⟩
  · rw [Bucket.select_eq_none_iff (Bucket.sum_share_lt (Rule.sum_share_shares_le hcheck)), sum_shares,
      Rule.shares_eq hcheck]
  · intro request keys hfits hkey hkind henabled hfirst hkeys
    have answer : ∀ {a}, r.Reading f.key request a → (Evaluator.new ns s).variant request = a :=
      fun ha => variant_of_reading hbuild hfits hf hkey hkind (.ruled henabled hfirst ha)
    rcases Rule.reading_of_holds hkeys (Rule.positive_ne_nil hfull) with ⟨hlt, v, hv, ha⟩ | ⟨hle, ha⟩
    · exact Or.inl ⟨hlt, v, hv, answer ha⟩
    · exact Or.inr ⟨hle, answer ha⟩

/-- Three thirds with one decimal place leave nothing over, so everybody gets a variant. -/
theorem Evaluator.variant_of_full_thirds :
    let third : Single := .finite false 8729395 (-18)
    let rest : Single := .finite false 8755610 (-18)
    let r : Rule := ⟨[⟨"everyone", .all, []⟩], .or,
      [⟨"a", third, none⟩, ⟨"b", third, none⟩, ⟨"c", rest, none⟩]⟩
    let f : Flag := ⟨"thirds", "", .variant, none, true, [r], [], none⟩
    let d : Document := ⟨⟨"", none⟩, [f]⟩
    let s : Snapshot := .ofDocument ⟨⟨"ns", none⟩, [f]⟩
    (third = Floating.ofDecimal false 333 (-1) ∧ rest = Floating.ofDecimal false 334 (-1)) ∧
      Snapshot.build "ns" d = .ok s ∧ f ∈ d.flags ∧ r ∈ f.rules ∧ r.IsFull ∧
      ∀ e : Entity, ∃ v ∈ r.positive, (Evaluator.new "ns" s).variant ⟨"thirds", e⟩ =
        .ok ⟨true, ["everyone"], .matched, "thirds", v.variant, v.attachment.getD ""⟩ := by
  intro third rest r f d s
  have hbuild : Snapshot.build "ns" d = .ok s := by decide +kernel
  have hf : f ∈ d.flags := List.mem_singleton_self f
  have hr : r ∈ f.rules := List.mem_singleton_self r
  have hpositive : r.positive = r.distributions := by
    simp [Rule.positive, r, third, rest, Floating.toRat_positive]
  have hfull : r.IsFull := by
    simp only [Rule.IsFull, hpositive, r, third, rest, List.map_cons, List.map_nil, List.sum_cons,
      List.sum_nil, Floating.toRat_positive]
    norm_num
  have hwhole : ∀ v ∈ r.positive, Bucket.IsWhole v.percentage := by
    have hthird : Bucket.tenfold third = .finite false 10911744 (-15) := by decide +kernel
    have hrest : Bucket.tenfold rest = .finite false 10944512 (-15) := by decide +kernel
    have hshares : Bucket.share third = 333 ∧ Bucket.share rest = 334 := by decide +kernel
    have hwhole_third : Bucket.IsWhole third := by
      rw [Bucket.IsWhole, hthird, Floating.toRat_positive, hshares.1]
      norm_num
    have hwhole_rest : Bucket.IsWhole rest := by
      rw [Bucket.IsWhole, hrest, Floating.toRat_positive, hshares.2]
      norm_num
    rw [hpositive]
    simpa [r] using ⟨hwhole_third, hwhole_rest⟩
  refine ⟨by decide +kernel, hbuild, hf, hr, hfull, fun e => ?_⟩
  have hkeys := SegmentOperator.holds_everybody "everyone" .all e
  obtain ⟨-, -, hcount, hanswer⟩ := variant_of_full hbuild hf hr hfull
  rcases hanswer ⟨"thirds", e⟩ ["everyone"] (Or.inl rfl) rfl rfl rfl (.here (Or.inr ⟨_, hkeys⟩)) hkeys
    with ⟨-, v, hv, ha⟩ | ⟨hpast, -⟩
  · exact ⟨v, hv, ha⟩
  · -- no bucket lies behind a thousand
    rw [hcount hwhole] at hpast
    exact absurd hpast (Nat.not_le.2 (Nat.mod_lt _ (by decide)))

/-- **A rule that gives everything away can leave a bucket over**: of 87.75 and 12.25 percent, 877 and 122
buckets are given away, and an entity in the last bucket gets no variant. -/
theorem Evaluator.unknown_of_full :
    let r : Rule := ⟨[⟨"everyone", .all, []⟩], .or,
      [⟨"classic", .finite false 11501568 (-17), none⟩, ⟨"express", .finite false 12845056 (-20), none⟩]⟩
    let f : Flag := ⟨"checkout", "", .variant, none, true, [r], [], none⟩
    let d : Document := ⟨⟨"", none⟩, [f]⟩
    let s : Snapshot := .ofDocument ⟨⟨"ns", none⟩, [f]⟩
    let request : Request := ⟨"checkout", ⟨"user-1423", ⟨[]⟩⟩⟩
    r.percentages = [Floating.ofDecimal false 8775 (-2), Floating.ofDecimal false 1225 (-2)] ∧
      Snapshot.build "ns" d = .ok s ∧ f ∈ d.flags ∧ r ∈ f.rules ∧ r.IsFull ∧
      First (Rule.Decides request.entity) r f.rules ∧
      r.operator.Holds r.segments request.entity ["everyone"] ∧
      Bucket.select (Bucket.bounds (r.shares.map (·.percentage)))
        (Bucket.ofVariant request.flag request.entity.id) = none ∧
      (Evaluator.new "ns" s).variant request =
        .ok ⟨false, ["everyone"], .unknown, "checkout", "", ""⟩ := by
  intro r f d s request
  have hfull : r.IsFull := by
    have hpositive : r.positive = r.distributions := by
      simp [Rule.positive, r, Floating.toRat_positive]
    simp only [Rule.IsFull, hpositive, r, List.map_cons, List.map_nil, List.sum_cons, List.sum_nil,
      Floating.toRat_positive]
    norm_num
  have hkeys := SegmentOperator.holds_everybody "everyone" .all request.entity
  exact ⟨by decide +kernel, by decide +kernel, List.mem_singleton_self f, List.mem_singleton_self r, hfull,
    .here (Or.inr ⟨_, hkeys⟩), hkeys, by decide +kernel, by decide +kernel⟩

end FeatureFlags
