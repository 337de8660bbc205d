/-
**The shares of a rule that is served fit into the buckets.**

A rule is served if the percentages that it distributes, summed in single precision, do not exceed 100
by more than a rounding error.  However many they are, no rounding of that sum can hide a share: the sum
stays below 128, so each addition is off by at most `2 ^ -17`, while a share of even one bucket adds
close to a tenth.  So the shares together are at most the thousand buckets, and the totals that are kept
of them never wrap around.

Main definitions:

* `Bucket.tenfold` — ten times a percentage, in single precision.

Main results:

* `Single.isPercentage_iff` — what a percentage is;
* `Bucket.share_eq_floor`, `Bucket.share_le`, `Bucket.lt_share_add_one` — a share is the whole part of ten
  times its percentage, at most that up to a rounding error, and less than one bucket short of it;
* `Single.add_share_le` — **an addition does not hide a share**;
* `Rule.sum_share_le` — **the shares of a rule that is served fit into the buckets.**
-/
import FeatureFlags.Document.Check
import FeatureFlags.Proofs.Arithmetic
import FeatureFlags.Proofs.Buckets

set_option autoImplicit false

namespace FeatureFlags

open Floating (Finite Representable RoundsTo)

/-! ### Percentages -/

namespace Single

theorem ofNat_hundred : (Floating.ofNat 100 : Single) = .finite false 13107200 (-17) := by decide

theorem ofNat_ten : (Floating.ofNat 10 : Single) = .finite false 10485760 (-20) := by decide

theorem mostTotal_eq : mostTotal = .finite false 13108511 (-17) := by decide +kernel

theorem finite_hundred : Finite (Floating.ofNat 100 : Single) := by
  rw [ofNat_hundred]
  exact .of ..

theorem finite_ten : Finite (Floating.ofNat 10 : Single) := by
  rw [ofNat_ten]
  exact .of ..

theorem finite_mostTotal : Finite mostTotal := by
  rw [mostTotal_eq]
  exact .of ..

theorem toRat_ofNat_zero : (Floating.ofNat 0 : Single).toRat = 0 := Floating.toRat_zero false

theorem toRat_hundred : (Floating.ofNat 100 : Single).toRat = 100 := by
  rw [ofNat_hundred, Floating.toRat_positive]
  norm_num

theorem toRat_ten : (Floating.ofNat 10 : Single).toRat = 10 := by
  rw [ofNat_ten, Floating.toRat_positive]
  norm_num

/-- The largest sum that passes for 100. -/
theorem toRat_mostTotal : mostTotal.toRat = 13108511 / 131072 := by
  rw [mostTotal_eq, Floating.toRat_positive]
  norm_num

/-- **A percentage is a finite number between 0 and 100.** -/
theorem isPercentage_iff (x : Single) :
    isPercentage x = true ↔ Finite x ∧ 0 ≤ x.toRat ∧ x.toRat ≤ 100 := by
  have hzero : Finite (Floating.ofNat 0 : Single) := .of ..
  rw [isPercentage, Bool.and_eq_true]
  cases x with
  | nan => exact iff_of_false (fun h => absurd h.1 (by decide)) fun h => nomatch h.1
  | infinite a =>
      refine iff_of_false (fun h => ?_) fun h => nomatch h.1
      cases a with
      | false => exact absurd h.2 (by decide)
      | true => exact absurd h.1 (by decide)
  | finite a m e =>
      have hx : Finite (.finite a m e : Single) := .of ..
      rw [Floating.le_iff hzero hx, Floating.le_iff hx finite_hundred, toRat_hundred,
        toRat_ofNat_zero]
      exact ⟨fun h => ⟨hx, h⟩, fun h => h.2⟩

end Single

/-! ### Roundings of small numbers -/

/-- Rounding a value below a small power of two does not leave the format. -/
theorem Floating.RoundsTo.single_representable {x : ℚ} {y : Single} (h : RoundsTo x y) (k : ℤ)
    (hk : k ≤ 100) (hx : x < 2 ^ (k + 1)) : Representable y := by
  refine h.representable (by decide) hx ?_
  simp only [Format.single]
  omega

/-- Rounding to single precision moves a value below a power of two by at most half of the place 24 bits
below it. -/
theorem Floating.RoundsTo.single_abs_sub_le {x : ℚ} {y : Single} (h : RoundsTo x y)
    (hy : Representable y) (k : ℤ) (hk : -126 ≤ k) (hx : x < 2 ^ (k + 1)) :
    |y.toRat - x| ≤ 2 ^ (k - 23) / 2 := by
  have hplace := h.abs_sub_le (by decide) hy hx
  have hmax : max Format.single.minExponent (k - ((Format.single.precision : ℤ) - 1)) = k - 23 := by
    simp only [Format.single]
    omega
  rwa [hmax] at hplace

/-! ### Shares -/

namespace Bucket

/-- Ten times a percentage, in single precision. -/
def tenfold (percentage : Single) : Single := percentage.mul (Floating.ofNat 10)

section

variable {p : Single} (hp : Single.isPercentage p = true)
include hp

theorem roundsTo_tenfold : RoundsTo (10 * p.toRat) (tenfold p) := by
  obtain ⟨hfinite, hlow, -⟩ := (Single.isPercentage_iff p).1 hp
  have h := Floating.roundsTo_mul hfinite Single.finite_ten
  rw [Single.toRat_ten, mul_comm] at h
  exact h (by linarith)

theorem tenfold_lt : 10 * p.toRat < 2 ^ ((9 : ℤ) + 1) := by
  obtain ⟨-, -, hhigh⟩ := (Single.isPercentage_iff p).1 hp
  norm_num
  linarith

theorem representable_tenfold : Representable (tenfold p) :=
  (roundsTo_tenfold hp).single_representable 9 (by norm_num) (tenfold_lt hp)

/-- Ten times a percentage is off by a rounding error. -/
theorem abs_tenfold_sub_le : |(tenfold p).toRat - 10 * p.toRat| ≤ 1 / 32768 := by
  have hnear := (roundsTo_tenfold hp).single_abs_sub_le (representable_tenfold hp) 9 (by norm_num)
    (tenfold_lt hp)
  have hhalf : (2 : ℚ) ^ ((9 : ℤ) - 23) / 2 = 1 / 32768 := by norm_num
  rwa [hhalf] at hnear

/-- A share is the whole part of ten times its percentage. -/
theorem share_eq_floor : share p = ⌊(tenfold p).toRat⌋₊ := by
  obtain ⟨-, -, hhigh⟩ := (Single.isPercentage_iff p).1 hp
  have hnonneg : 0 ≤ (tenfold p).toRat := (roundsTo_tenfold hp).toRat_nonneg (by decide)
  have hshare : share p = (tenfold p).truncate (2 ^ 32 - 1) := rfl
  rw [hshare, Floating.truncate_eq (representable_tenfold hp).isFinite hnonneg]
  -- a share is far below the largest number that the truncation can give
  refine min_eq_right (Nat.floor_le_of_le ?_)
  have hnear := abs_le.1 (abs_tenfold_sub_le hp)
  norm_num
  linarith [hnear.2]

/-- **A share is at most ten times its percentage, up to a rounding error.** -/
theorem share_le : (share p : ℚ) ≤ 10 * p.toRat + 1 / 32768 := by
  have hnonneg : 0 ≤ (tenfold p).toRat := (roundsTo_tenfold hp).toRat_nonneg (by decide)
  have hle : (share p : ℚ) ≤ (tenfold p).toRat := by
    rw [share_eq_floor hp]
    exact Nat.floor_le hnonneg
  have hnear := abs_le.1 (abs_tenfold_sub_le hp)
  linarith [hnear.2]

/-- **A share is less than one bucket short of ten times its percentage**: the rounding of the product
does not go below a whole number that the exact product reaches. -/
theorem lt_share_add_one : 10 * p.toRat < share p + 1 := by
  obtain ⟨-, hlow, hhigh⟩ := (Single.isPercentage_iff p).1 hp
  have hsmall : ⌊10 * p.toRat⌋₊ ≤ 1000 := Nat.floor_le_of_le (by push_cast; linarith)
  have hwhole : Representable (.finite false ⌊10 * p.toRat⌋₊ 0 : Single) :=
    .finite (lt_of_le_of_lt hsmall (by decide)) (by decide)
  have hvalue : (.finite false ⌊10 * p.toRat⌋₊ 0 : Single).toRat = ⌊10 * p.toRat⌋₊ := by
    rw [Floating.toRat_positive, zpow_zero, mul_one]
  have hreach := (roundsTo_tenfold hp).le (by decide) (representable_tenfold hp) hwhole (by
    rw [hvalue]
    exact Nat.floor_le (by linarith))
  rw [hvalue] at hreach
  have hfloor : ⌊10 * p.toRat⌋₊ ≤ share p := by
    rw [share_eq_floor hp]
    exact Nat.le_floor hreach
  calc 10 * p.toRat < ⌊10 * p.toRat⌋₊ + 1 := Nat.lt_floor_add_one _
    _ ≤ share p + 1 := by exact_mod_cast Nat.succ_le_succ hfloor

end

end Bucket

/-! ### Totals -/

namespace Single

/-- The sum of some percentages to which others are added is an infinity or a number of the format. -/
theorem add_percentage {t p : Single} (ht : Representable t) (hnonneg : 0 ≤ t.toRat)
    (hp : isPercentage p = true) : RoundsTo (t.toRat + p.toRat) (t.add p) := by
  obtain ⟨hfinite, hlow, -⟩ := (isPercentage_iff p).1 hp
  exact Floating.roundsTo_add ht.isFinite hfinite (by linarith)

/-- An addition of a percentage does not make a sum less. -/
theorem le_add {t p : Single} (ht : Representable t) (hnonneg : 0 ≤ t.toRat)
    (hp : isPercentage p = true) (hsum : Representable (t.add p)) :
    t.toRat ≤ (t.add p).toRat := by
  obtain ⟨-, hlow, -⟩ := (isPercentage_iff p).1 hp
  exact (add_percentage ht hnonneg hp).le (by decide) hsum ht (by linarith)

/-- **An addition does not hide a share**: a sum that stays small grows by nearly a tenth of each share
that is added. -/
theorem add_share_le {t p : Single} (ht : Representable t) (hnonneg : 0 ≤ t.toRat)
    (hp : isPercentage p = true) (hsum : Representable (t.add p)) (hsmall : (t.add p).toRat ≤ 101) :
    t.toRat + 4999 / 50000 * Bucket.share p ≤ (t.add p).toRat := by
  obtain ⟨-, hlow, hhigh⟩ := (isPercentage_iff p).1 hp
  have hmono := le_add ht hnonneg hp hsum
  have hshare := Bucket.share_le hp
  have hbound : t.toRat + p.toRat < 2 ^ ((7 : ℤ) + 1) := by
    norm_num
    linarith
  have hnear := abs_le.1 ((add_percentage ht hnonneg hp).single_abs_sub_le hsum 7 (by norm_num) hbound)
  have hhalf : (2 : ℚ) ^ ((7 : ℤ) - 23) / 2 = 1 / 131072 := by norm_num
  rw [hhalf] at hnear
  rcases Nat.eq_zero_or_pos (Bucket.share p) with hzero | hpos
  · rw [hzero]
    simpa using hmono
  · -- both rounding errors together are less than the part of one bucket that is left out
    have hone : (1 : ℚ) ≤ Bucket.share p := by exact_mod_cast hpos
    linarith [hnear.1]

/-- A sum that has become infinite stays so. -/
theorem foldl_infinite {ps : List Single} (h : ∀ p ∈ ps, isPercentage p = true) :
    ps.foldl Floating.add (.infinite false) = .infinite false := by
  induction ps with
  | nil => rfl
  | cons p ps ih =>
      obtain ⟨⟨_, _, _⟩, -⟩ := (isPercentage_iff p).1 (h p (List.mem_cons_self ..))
      exact ih fun q hq => h q (List.mem_cons_of_mem _ hq)

/-- A sum that is let pass exceeds 100 by no more than a rounding error. -/
theorem toRat_le_of_pass {t : Single} (ht : Representable t) (h : mostTotal.lt t = false) :
    t.toRat ≤ 13108511 / 131072 := by
  rw [← toRat_mostTotal]
  refine not_lt.1 fun hlt => ?_
  rw [(Floating.lt_iff finite_mostTotal ht.isFinite).2 hlt] at h
  cases h

/-- A sum that is let pass grows by nearly a tenth of each share. -/
theorem sum_share_le_foldl {ps : List Single} (hps : ∀ p ∈ ps, isPercentage p = true) :
    ∀ t : Single, Representable t → 0 ≤ t.toRat →
      mostTotal.lt (ps.foldl Floating.add t) = false →
      Representable (ps.foldl Floating.add t) ∧
        t.toRat + 4999 / 50000 * (ps.map Bucket.share).sum ≤ (ps.foldl Floating.add t).toRat := by
  induction ps with
  | nil =>
      intro t ht _ _
      exact ⟨ht, by simp⟩
  | cons p ps ih =>
      intro t ht hnonneg hpass
      have hp := hps p (List.mem_cons_self ..)
      have hrest : ∀ q ∈ ps, isPercentage q = true := fun q hq => hps q (List.mem_cons_of_mem _ hq)
      have hround := add_percentage ht hnonneg hp
      rw [List.foldl_cons] at hpass ⊢
      rcases hround.infinite_or_representable (by decide) with hinf | hsum
      · -- a sum that leaves the format never comes back, and would not have been let pass
        rw [hinf, foldl_infinite hrest] at hpass
        cases hpass
      · have hsum_nonneg : 0 ≤ (t.add p).toRat := hround.toRat_nonneg (by decide)
        obtain ⟨hfinal, hle⟩ := ih hrest (t.add p) hsum hsum_nonneg hpass
        -- what comes after only adds to this sum, so it is as small as the last one
        have hsmall : (t.add p).toRat ≤ 101 := by
          have hmost := toRat_le_of_pass hfinal hpass
          have hshares : (0 : ℚ) ≤ (ps.map Bucket.share).sum := Nat.cast_nonneg _
          linarith
        have hstep := add_share_le ht hnonneg hp hsum hsmall
        refine ⟨hfinal, ?_⟩
        rw [List.map_cons, List.sum_cons, Nat.cast_add]
        linarith

end Single

/-- The percentages of a rule that is served are percentages. -/
theorem isPercentage_of_check {flag : String} {ps : List Single}
    (h : checkPercentages flag ps = .ok ()) : ∀ p ∈ ps, Single.isPercentage p = true := by
  induction ps with
  | nil => exact fun p hp => nomatch hp
  | cons p ps ih =>
      rw [checkPercentages] at h
      split at h
      · next hp =>
          intro q hq
          rcases List.mem_cons.1 hq with rfl | hq
          · exact hp
          · exact ih h q hq
      · cases h

/-- What the check of a rule makes sure of. -/
theorem Rule.of_check {flag : String} {rank : ℕ} {r : Rule} (h : r.check flag rank = .ok ()) :
    (∀ p ∈ r.percentages, Single.isPercentage p = true) ∧
      Single.mostTotal.lt (Single.total r.percentages) = false := by
  rw [check] at h
  cases hps : checkPercentages flag r.percentages with
  | error f =>
      rw [hps] at h
      cases h
  | ok u =>
      rw [hps] at h
      refine ⟨isPercentage_of_check hps, ?_⟩
      cases hlt : Single.mostTotal.lt (Single.total r.percentages) with
      | false => rfl
      | true =>
          simp only [hlt, if_true] at h
          cases h

/-- **The shares of a rule that is served fit into the buckets.** -/
theorem Rule.sum_share_le {flag : String} {rank : ℕ} {r : Rule} (h : r.check flag rank = .ok ()) :
    (r.percentages.map Bucket.share).sum ≤ Bucket.count := by
  obtain ⟨hps, hpass⟩ := Rule.of_check h
  obtain ⟨hfinal, hle⟩ := Single.sum_share_le_foldl hps (Floating.ofNat 0)
    (Floating.representable_zero false) Single.toRat_ofNat_zero.ge hpass
  have hmost := Single.toRat_le_of_pass hfinal hpass
  rw [Single.toRat_ofNat_zero] at hle
  generalize (r.percentages.map Bucket.share).sum = sum at hle ⊢
  have hlt : (sum : ℚ) < (1001 : ℕ) := by
    push_cast
    linarith
  rw [Bucket.count]
  exact Nat.le_of_lt_succ (Nat.cast_lt.1 hlt)

end FeatureFlags
