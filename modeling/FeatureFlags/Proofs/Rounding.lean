/-
**The values of floating-point numbers, and how far rounding moves them.**

A finite number has a rational value.  The exponent of the last place is chosen so that a quotient fills
the significand, unless the format has no place that small; rounding then moves the quotient by at most
half of its last place, and never past a number that the format has.

Main definitions:

* `Floating.toRat` — the value of a finite number;
* `Floating.Representable` — the finite numbers that the format has;
* `Floating.RoundsTo` — a value that is not negative is rounded to a number.

Main results:

* `floorLog2_le`, `lt_floorLog2` — the power of two below a quotient;
* `Floating.RoundsTo.abs_sub_le` — **rounding moves a value by at most half of its last place**;
* `Floating.RoundsTo.le` — **rounding does not go below a number of the format.**
-/
import Mathlib.Algebra.Order.Field.Power
import Mathlib.Data.Rat.Cast.Order
import Mathlib.Tactic.FieldSimp
import Mathlib.Tactic.Linarith
import Mathlib.Tactic.Positivity
import Mathlib.Tactic.Ring
import FeatureFlags.Number.Floating

set_option autoImplicit false

namespace FeatureFlags

/-! ### Powers of two -/

/-- A power of two as a quotient of two whole ones, one of which is 1. -/
theorem two_zpow_eq (k : ℤ) : (2 : ℚ) ^ k = 2 ^ k.toNat / 2 ^ (-k).toNat := by
  rcases Int.le_total 0 k with hk | hk
  · have hneg : (-k).toNat = 0 := by omega
    rw [hneg, pow_zero, div_one, ← zpow_natCast, Int.toNat_of_nonneg hk]
  · have hpos : k.toNat = 0 := by omega
    have hcast : ((-k).toNat : ℤ) = -k := Int.toNat_of_nonneg (by omega)
    rw [hpos, pow_zero, ← zpow_natCast, hcast, zpow_neg, one_div, inv_inv]

theorem mul_zpow_eq_div (m : ℕ) (q : ℤ) :
    (m : ℚ) * 2 ^ q = (m * 2 ^ q.toNat : ℕ) / (2 ^ (-q).toNat : ℕ) := by
  rw [two_zpow_eq]
  push_cast
  ring

theorem two_zpow_pos (k : ℤ) : (0 : ℚ) < 2 ^ k := zpow_pos (by norm_num) k

theorem two_zpow_le {j k : ℤ} (h : j ≤ k) : (2 : ℚ) ^ j ≤ 2 ^ k :=
  zpow_le_zpow_right₀ (by norm_num) h

/-- Scaling both sides by powers of two that are whole compares with a power of any exponent. -/
theorem scaled_le_iff (num den : ℕ) (k : ℤ) :
    den * 2 ^ k.toNat ≤ num * 2 ^ (-k).toNat ↔ (2 : ℚ) ^ k * den ≤ num := by
  have hpos : (0 : ℚ) < 2 ^ (-k).toNat := by positivity
  rw [two_zpow_eq, div_mul_eq_mul_div, div_le_iff₀ hpos, mul_comm _ (den : ℚ)]
  exact_mod_cast Iff.rfl

section

variable {num den : ℕ}

theorem two_zpow_log2_le (h : 0 < num) : (2 : ℚ) ^ (num.log2 : ℤ) ≤ num := by
  rw [zpow_natCast]
  exact_mod_cast Nat.log2_self_le (Nat.pos_iff_ne_zero.1 h)

theorem lt_two_zpow_log2 (num : ℕ) : (num : ℚ) < 2 ^ ((num.log2 : ℤ) + 1) := by
  have h : num < 2 ^ (num.log2 + 1) := Nat.lt_log2_self
  exact_mod_cast h

theorem floorLog2_eq (num den : ℕ) :
    floorLog2 num den =
      if (2 : ℚ) ^ ((num.log2 : ℤ) - den.log2) * den ≤ num then (num.log2 : ℤ) - den.log2
      else (num.log2 : ℤ) - den.log2 - 1 := by
  simp only [floorLog2, Nat.pow_eq, scaled_le_iff]

theorem floorLog2_le (hnum : 0 < num) :
    (2 : ℚ) ^ floorLog2 num den * den ≤ num := by
  rw [floorLog2_eq]
  split
  · next h => exact h
  · have hlow := two_zpow_log2_le hnum
    have hhigh := (lt_two_zpow_log2 den).le
    calc (2 : ℚ) ^ ((num.log2 : ℤ) - den.log2 - 1) * den
        ≤ 2 ^ ((num.log2 : ℤ) - den.log2 - 1) * 2 ^ ((den.log2 : ℤ) + 1) :=
          mul_le_mul_of_nonneg_left hhigh (two_zpow_pos _).le
      _ = 2 ^ (num.log2 : ℤ) := by
          rw [← zpow_add₀ (by norm_num)]
          congr 1
          omega
      _ ≤ num := hlow

theorem lt_floorLog2 (hden : 0 < den) :
    (num : ℚ) < 2 ^ (floorLog2 num den + 1) * den := by
  rw [floorLog2_eq]
  split
  · have hlow := two_zpow_log2_le hden
    have hhigh := lt_two_zpow_log2 num
    calc (num : ℚ) < 2 ^ ((num.log2 : ℤ) + 1) := hhigh
      _ = 2 ^ ((num.log2 : ℤ) - den.log2 + 1) * 2 ^ (den.log2 : ℤ) := by
          rw [← zpow_add₀ (by norm_num)]
          congr 1
          omega
      _ ≤ 2 ^ ((num.log2 : ℤ) - den.log2 + 1) * den :=
          mul_le_mul_of_nonneg_left hlow (two_zpow_pos _).le
  · next h =>
      rw [sub_add_cancel]
      exact not_le.1 h

end

/-! ### Rounding to a whole number -/

/-- Rounding to a whole number moves a quotient by at most a half, counted in halves of the divisor. -/
theorem roundHalfEven_bounds (num : ℕ) {den : ℕ} (hden : 0 < den) :
    2 * num ≤ 2 * (roundHalfEven num den * den) + den ∧
      2 * (roundHalfEven num den * den) ≤ 2 * num + den := by
  have hdiv : num / den * den + num % den = num := by
    rw [Nat.mul_comm]
    exact Nat.div_add_mod num den
  have hmod : num % den < den := Nat.mod_lt num hden
  have hsucc : (num / den + 1) * den = num / den * den + den := Nat.succ_mul _ _
  simp only [roundHalfEven]
  split
  · omega
  · split
    · rw [hsucc]
      omega
    · split
      · omega
      · rw [hsucc]
        omega

theorem abs_roundHalfEven_sub_le (num : ℕ) {den : ℕ} (hden : 0 < den) :
    |(roundHalfEven num den : ℚ) - num / den| ≤ 1 / 2 := by
  obtain ⟨hlow, hhigh⟩ := roundHalfEven_bounds num hden
  have hpos : (0 : ℚ) < den := by exact_mod_cast hden
  have hlow : (2 : ℚ) * num ≤ 2 * (roundHalfEven num den * den) + den := by exact_mod_cast hlow
  have hhigh : (2 : ℚ) * (roundHalfEven num den * den) ≤ 2 * num + den := by exact_mod_cast hhigh
  have hcancel : (num : ℚ) / den * den = num := div_mul_cancel₀ _ hpos.ne'
  rw [abs_sub_le_iff]
  constructor
  · refine le_of_mul_le_mul_right ?_ hpos
    rw [sub_mul, hcancel]
    linarith
  · refine le_of_mul_le_mul_right ?_ hpos
    rw [sub_mul, hcancel]
    linarith

/-- Rounding to a whole number does not go below one that the quotient reaches. -/
theorem le_roundHalfEven {num den n : ℕ} (hden : 0 < den) (h : n * den ≤ num) :
    n ≤ roundHalfEven num den := by
  obtain ⟨hlow, -⟩ := roundHalfEven_bounds num hden
  by_contra hlt
  have hsucc : (roundHalfEven num den + 1) * den ≤ n * den := Nat.mul_le_mul_right den (by omega)
  rw [Nat.succ_mul] at hsucc
  omega

/-- Rounding to a whole number does not go above one that the quotient does not exceed. -/
theorem roundHalfEven_le {num den n : ℕ} (hden : 0 < den) (h : num ≤ n * den) :
    roundHalfEven num den ≤ n := by
  obtain ⟨-, hhigh⟩ := roundHalfEven_bounds num hden
  by_contra hlt
  have hsucc : (n + 1) * den ≤ roundHalfEven num den * den := Nat.mul_le_mul_right den (by omega)
  rw [Nat.succ_mul] at hsucc
  omega

/-! ### Values -/

namespace Floating

variable {f : Format}

/-- The value of a finite number; what is not finite counts as zero. -/
def toRat : Floating f → ℚ
  | .finite a m e => (if a then -(m : ℚ) else m) * 2 ^ e
  | _ => 0

/-- The finite numbers that the format has. -/
inductive Representable : Floating f → Prop
  | finite {a : Bool} {m : ℕ} {e : ℤ} : m < 2 ^ f.precision → f.minExponent ≤ e →
      Representable (.finite a m e)

@[simp] theorem toRat_zero (b : Bool) : (zero b : Floating f).toRat = 0 := by
  cases b <;> simp [zero, toRat]

theorem toRat_positive (m : ℕ) (e : ℤ) : (.finite false m e : Floating f).toRat = m * 2 ^ e := rfl

theorem toRat_negative_nonpos (m : ℕ) (e : ℤ) : (.finite true m e : Floating f).toRat ≤ 0 := by
  have hneg : (.finite true m e : Floating f).toRat = -((m : ℚ) * 2 ^ e) := by simp [toRat]
  rw [hneg]
  exact neg_nonpos.2 (mul_nonneg (Nat.cast_nonneg m) (two_zpow_pos e).le)

theorem representable_zero (b : Bool) : Representable (zero b : Floating f) :=
  .finite (by positivity) le_rfl

/-- A quotient counted in units of a power of two. -/
theorem scaled_div (num den : ℕ) (q : ℤ) :
    ((num * 2 ^ (-q).toNat : ℕ) : ℚ) / ((den * 2 ^ q.toNat : ℕ) : ℚ) = num / den / 2 ^ q := by
  rw [two_zpow_eq]
  push_cast
  field_simp

/-- The significand that a quotient is rounded to, in units of its last place. -/
def significand (f : Format) (num den : ℕ) : ℕ :=
  roundHalfEven (num * 2 ^ (-lastPlace f num den).toNat) (den * 2 ^ (lastPlace f num den).toNat)

section

variable {num den : ℕ}

theorem scaled_pos (h : 0 < den) (k : ℕ) : 0 < den * 2 ^ k := Nat.mul_pos h (by positivity)

/-- The quotient in units of its last place. -/
theorem significand_near (f : Format) (num : ℕ) (hden : 0 < den) :
    |(significand f num den : ℚ) - num / den / 2 ^ lastPlace f num den| ≤ 1 / 2 := by
  have h := abs_roundHalfEven_sub_le (num * 2 ^ (-lastPlace f num den).toNat)
    (scaled_pos hden (lastPlace f num den).toNat)
  rwa [scaled_div] at h

/-- A whole number of units that the quotient reaches is reached by the significand. -/
theorem le_significand (hden : 0 < den) {n : ℕ} (h : (n : ℚ) * 2 ^ lastPlace f num den ≤ num / den) :
    n ≤ significand f num den := by
  refine le_roundHalfEven (scaled_pos hden _) ?_
  have hpos : (0 : ℚ) < (den * 2 ^ (lastPlace f num den).toNat : ℕ) := by
    exact_mod_cast scaled_pos hden _
  have hn : (n : ℚ) ≤ num / den / 2 ^ lastPlace f num den := (le_div_iff₀ (two_zpow_pos _)).2 h
  rw [← scaled_div, le_div_iff₀ hpos] at hn
  exact_mod_cast hn

/-- The significand fits into its width, or is the least that does not. -/
theorem significand_le (f : Format) (num : ℕ) (hden : 0 < den) :
    significand f num den ≤ 2 ^ f.precision := by
  refine roundHalfEven_le (scaled_pos hden _) ?_
  have hpos : (0 : ℚ) < (den * 2 ^ (lastPlace f num den).toNat : ℕ) := by
    exact_mod_cast scaled_pos hden _
  have hplace : floorLog2 num den + 1 ≤ f.precision + lastPlace f num den := by
    unfold lastPlace
    omega
  have hquot : (num : ℚ) / den ≤ 2 ^ (f.precision : ℤ) * 2 ^ lastPlace f num den := by
    rw [div_le_iff₀ (by exact_mod_cast hden), ← zpow_add₀ (by norm_num)]
    exact (lt_floorLog2 hden).le.trans
      (mul_le_mul_of_nonneg_right (two_zpow_le hplace) (by positivity))
  have hscaled := (div_le_iff₀ (two_zpow_pos (lastPlace f num den))).2 hquot
  rw [← scaled_div, div_le_iff₀ hpos, zpow_natCast] at hscaled
  exact_mod_cast hscaled

/-- The last place of a value below a power of two. -/
theorem lastPlace_le (f : Format) (hnum : 0 < num) (hden : 0 < den) {k : ℤ}
    (hx : (num : ℚ) / den < 2 ^ (k + 1)) :
    lastPlace f num den ≤ max f.minExponent (k - ((f.precision : ℤ) - 1)) := by
  have hlog : floorLog2 num den < k + 1 := by
    refine (zpow_lt_zpow_iff_right₀ (a := (2 : ℚ)) (by norm_num)).1 (lt_of_le_of_lt ?_ hx)
    rw [le_div_iff₀ (by exact_mod_cast hden)]
    exact floorLog2_le hnum
  unfold lastPlace
  omega

/-- Rounding packs the significand and the exponent of the last place, perhaps after a carry. -/
theorem exists_round (hp : 0 < f.precision) (b : Bool) (hnum : 0 < num) (hden : 0 < den) :
    ∃ m e, (round b num den : Floating f) = pack b m e ∧ m < 2 ^ f.precision ∧
      f.minExponent ≤ e ∧ e ≤ lastPlace f num den + 1 ∧
      (m : ℚ) * 2 ^ e = significand f num den * 2 ^ lastPlace f num den := by
  have hle := significand_le f num hden
  have hmin : f.minExponent ≤ lastPlace f num den := le_max_left ..
  by_cases hcarry : significand f num den = 2 ^ f.precision
  · -- a carry out of the significand leaves half of it, one place further up
    refine ⟨2 ^ (f.precision - 1), lastPlace f num den + 1, ?_, ?_, by omega, le_rfl, ?_⟩
    · simp only [round, if_neg hnum.ne']
      exact if_pos hcarry
    · exact Nat.pow_lt_pow_right (by norm_num) (by omega)
    · have hpow : (2 : ℚ) ^ f.precision = 2 ^ (f.precision - 1) * 2 := by
        rw [← pow_succ, Nat.sub_add_cancel hp]
      rw [hcarry, zpow_add_one₀ (by norm_num)]
      push_cast
      rw [hpow]
      ring
  · refine ⟨significand f num den, lastPlace f num den, ?_, by omega, hmin, by omega, rfl⟩
    simp only [round, if_neg hnum.ne']
    exact if_neg hcarry

/-- The value of a rounded quotient is its significand in units of the last place. -/
theorem toRat_round (hp : 0 < f.precision) (hnum : 0 < num) (hden : 0 < den)
    (h : Representable (round false num den : Floating f)) :
    (round false num den : Floating f).toRat =
      significand f num den * 2 ^ lastPlace f num den := by
  obtain ⟨m, e, hround, -, -, -, hvalue⟩ := exists_round hp false hnum hden
  rw [hround, pack] at h ⊢
  split at h
  · cases h
  · next hmax => rw [if_neg hmax, toRat_positive, hvalue]

/-- A quotient fills the width of a significand if the format has smaller places than its last. -/
theorem full_le_of_lt (hp : 0 < f.precision) (hnum : 0 < num) (hden : 0 < den)
    (h : f.minExponent < lastPlace f num den) :
    ((2 ^ (f.precision - 1) : ℕ) : ℚ) * 2 ^ lastPlace f num den ≤ num / den := by
  -- above the least exponent the last place is where the width says, seen from the leading one
  have hplace : ((f.precision - 1 : ℕ) : ℤ) + lastPlace f num den = floorLog2 num den := by
    unfold lastPlace at h ⊢
    omega
  have hcast : ((2 ^ (f.precision - 1) : ℕ) : ℚ) = 2 ^ ((f.precision - 1 : ℕ) : ℤ) := by
    rw [zpow_natCast]
    push_cast
    rfl
  rw [hcast, ← zpow_add₀ (by norm_num), hplace, le_div_iff₀ (by exact_mod_cast hden)]
  exact floorLog2_le hnum

/-- The significand of a quotient fills its width if the format has smaller places than its last. -/
theorem le_significand_of_lt (hp : 0 < f.precision) (hnum : 0 < num) (hden : 0 < den)
    (h : f.minExponent < lastPlace f num den) :
    2 ^ (f.precision - 1) ≤ significand f num den :=
  le_significand hden (full_le_of_lt hp hnum hden h)

/-- A number of the format is a whole number of units, whatever the unit is, or no more than the least
significand that fills its width counts in such units. -/
theorem units_or_le_full (hp : 0 < f.precision) {m : ℕ} {e : ℤ} (hm : m < 2 ^ f.precision)
    (he : f.minExponent ≤ e) (q : ℤ) :
    (∃ n : ℕ, (m : ℚ) * 2 ^ e = n * 2 ^ q) ∨
      f.minExponent < q ∧ (m : ℚ) * 2 ^ e ≤ (2 ^ (f.precision - 1) : ℕ) * 2 ^ q := by
  rcases le_or_gt q e with hplace | hplace
  · refine Or.inl ⟨m * 2 ^ (e - q).toNat, ?_⟩
    have hcast : ((e - q).toNat : ℤ) = e - q := Int.toNat_of_nonneg (by omega)
    push_cast
    rw [← zpow_natCast, hcast, mul_assoc, ← zpow_add₀ (by norm_num), sub_add_cancel]
  · refine Or.inr ⟨lt_of_le_of_lt he hplace, ?_⟩
    have hwidth : (m : ℚ) ≤ 2 ^ (f.precision - 1) * 2 := by
      rw [← pow_succ, Nat.sub_add_cancel hp]
      exact_mod_cast hm.le
    have hdouble : (2 : ℚ) * 2 ^ e ≤ 2 ^ q := by
      rw [← zpow_one_add₀ (by norm_num)]
      exact two_zpow_le (by omega)
    push_cast
    calc (m : ℚ) * 2 ^ e ≤ 2 ^ (f.precision - 1) * 2 * 2 ^ e :=
          mul_le_mul_of_nonneg_right hwidth (two_zpow_pos e).le
      _ = 2 ^ (f.precision - 1) * (2 * 2 ^ e) := mul_assoc ..
      _ ≤ 2 ^ (f.precision - 1) * 2 ^ q := mul_le_mul_of_nonneg_left hdouble (by positivity)

end

/-! ### What a value is rounded to -/

/-- A value that is not negative is rounded to a number; a zero may have either sign. -/
inductive RoundsTo : ℚ → Floating f → Prop
  | zero (b : Bool) : RoundsTo 0 (zero b)
  | pos {num den : ℕ} : 0 < num → 0 < den → RoundsTo (num / den) (round false num den)

theorem roundsTo_round {b : Bool} {num den : ℕ} (hden : 0 < den) (hb : b = true → num = 0) :
    RoundsTo (num / den) (round b num den : Floating f) := by
  rcases Nat.eq_zero_or_pos num with rfl | hnum
  · rw [Nat.cast_zero, zero_div]
    exact .zero b
  · obtain rfl : b = false := Bool.eq_false_iff.2 fun h => hnum.ne' (hb h)
    exact .pos hnum hden

namespace RoundsTo

variable {x : ℚ} {y : Floating f}

/-- The rounded value is an infinity or a number of the format. -/
theorem infinite_or_representable (hp : 0 < f.precision) (h : RoundsTo x y) :
    y = .infinite false ∨ Representable y := by
  cases h with
  | zero b => exact Or.inr (representable_zero b)
  | pos hnum hden =>
      obtain ⟨m, e, hround, hm, he, -, -⟩ := exists_round hp false hnum hden
      rw [hround, pack]
      split
      · exact Or.inl rfl
      · exact Or.inr (.finite hm he)

/-- A value below a power of two that is in range is not rounded to an infinity. -/
theorem representable (hp : 0 < f.precision) (h : RoundsTo x y) {k : ℤ} (hx : x < 2 ^ (k + 1))
    (hk : max f.minExponent (k - ((f.precision : ℤ) - 1)) < f.maxExponent) : Representable y := by
  cases h with
  | zero b => exact representable_zero b
  | pos hnum hden =>
      obtain ⟨m, e, hround, hm, he, hplace, -⟩ := exists_round hp false hnum hden
      have := lastPlace_le f hnum hden hx
      rw [hround, pack, if_neg (by omega)]
      exact .finite hm he

theorem toRat_nonneg (hp : 0 < f.precision) (h : RoundsTo x y) : 0 ≤ y.toRat := by
  rcases h.infinite_or_representable hp with rfl | hy
  · exact le_rfl
  · cases h with
    | zero b => exact (toRat_zero b).ge
    | pos hnum hden =>
        rw [toRat_round hp hnum hden hy]
        exact mul_nonneg (Nat.cast_nonneg _) (two_zpow_pos _).le

/-- **Rounding moves a value below a power of two by at most half of the place that belongs to it.** -/
theorem abs_sub_le (hp : 0 < f.precision) (h : RoundsTo x y) (hy : Representable y) {k : ℤ}
    (hx : x < 2 ^ (k + 1)) :
    |y.toRat - x| ≤ 2 ^ max f.minExponent (k - ((f.precision : ℤ) - 1)) / 2 := by
  cases h with
  | zero b =>
      rw [toRat_zero, sub_zero, abs_zero]
      exact (half_pos (two_zpow_pos _)).le
  | @pos num den hnum hden =>
      -- in units of the last place the distance is that of rounding to a whole number
      have hplace := two_zpow_pos (lastPlace f num den)
      have hfactor : (significand f num den : ℚ) * 2 ^ lastPlace f num den - num / den =
          (significand f num den - num / den / 2 ^ lastPlace f num den) *
            2 ^ lastPlace f num den := by
        rw [sub_mul, div_mul_cancel₀ _ hplace.ne']
      rw [toRat_round hp hnum hden hy, hfactor, abs_mul, abs_of_pos hplace]
      calc _ ≤ 1 / 2 * (2 : ℚ) ^ lastPlace f num den :=
            mul_le_mul_of_nonneg_right (significand_near f num hden) hplace.le
        _ = 2 ^ lastPlace f num den / 2 := by ring
        _ ≤ _ := div_le_div_of_nonneg_right (two_zpow_le (lastPlace_le f hnum hden hx)) (by norm_num)

/-- **Rounding does not go below a number of the format.** -/
theorem le (hp : 0 < f.precision) (h : RoundsTo x y) (hy : Representable y) {z : Floating f}
    (hz : Representable z) (hle : z.toRat ≤ x) : z.toRat ≤ y.toRat := by
  cases h with
  | zero b =>
      rw [toRat_zero]
      exact hle
  | @pos num den hnum hden =>
      obtain @⟨a, m, e, hm, he⟩ := hz
      cases a with
      | true =>
          exact (toRat_negative_nonpos m e).trans (RoundsTo.toRat_nonneg hp (.pos hnum hden))
      | false =>
          rw [toRat_positive] at hle ⊢
          rw [toRat_round hp hnum hden hy]
          rcases units_or_le_full hp hm he (lastPlace f num den) with ⟨n, hn⟩ | ⟨hplace, hfull⟩
          · -- a whole number of units that the value reaches is reached by the significand
            rw [hn] at hle ⊢
            exact mul_le_mul_of_nonneg_right (by exact_mod_cast le_significand hden hle)
              (two_zpow_pos _).le
          · -- the number is smaller than every number whose significand fills its width
            refine hfull.trans (mul_le_mul_of_nonneg_right ?_ (two_zpow_pos _).le)
            exact_mod_cast le_significand_of_lt hp hnum hden hplace

end RoundsTo

end Floating

end FeatureFlags
