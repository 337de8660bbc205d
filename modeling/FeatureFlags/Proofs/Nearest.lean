/-
**Rounding finds the nearest number, and of two the even one.**

Rounding is computed from a significand and the exponent of a last place.  What it is for can be said
without either: no number of the format is nearer to the value, and if another one is as near, the one
taken is an even multiple of the distance between the two.

The numbers of a format are not evenly spaced, so that no number is nearer needs more than that no whole
number of units is.  It follows because between a number of the format and the value there is always a
whole number of units of the value's last place.

Main definitions:

* `Floating.IsNearest` — **the number of a format that is nearest to a value**.

Main results:

* `roundHalfEven_nearest`, `roundHalfEven_even` — the nearest whole number, and the even one of two;
* `Floating.Representable.exists_between` — a whole number of units lies between a number of the format and
  a value;
* `Floating.RoundsTo.isNearest` — **what a value is rounded to is nearest to it.**
-/
import Mathlib.Algebra.Group.Nat.Even
import FeatureFlags.Proofs.Rounding

set_option autoImplicit false

namespace FeatureFlags

/-! ### Whole numbers -/

/-- Different whole numbers are together at least one away from any value. -/
theorem one_le_abs_sub_add_abs_sub {m n : ℕ} (hne : n ≠ m) (x : ℚ) :
    1 ≤ |(n : ℚ) - x| + |(m : ℚ) - x| := by
  have hwhole : (1 : ℤ) ≤ |(n : ℤ) - m| := by
    refine Int.one_le_abs (sub_ne_zero.2 ?_)
    exact_mod_cast hne
  have hcast : (1 : ℚ) ≤ |(n : ℚ) - m| := by exact_mod_cast hwhole
  have htriangle := abs_sub_le (n : ℚ) x m
  rw [abs_sub_comm x] at htriangle
  exact hcast.trans htriangle

section

variable (num : ℕ) {den : ℕ} (hden : 0 < den)
include hden

/-- No whole number is nearer to a quotient than the one that it is rounded to. -/
theorem roundHalfEven_nearest (n : ℕ) :
    |(roundHalfEven num den : ℚ) - num / den| ≤ |(n : ℚ) - num / den| := by
  by_cases hne : n = roundHalfEven num den
  · rw [hne]
  · have hfar := one_le_abs_sub_add_abs_sub hne (num / den)
    have hnear := abs_roundHalfEven_sub_le num hden
    linarith

/-- A quotient in the middle of two whole numbers is rounded to the even one. -/
theorem roundHalfEven_even
    (h : 2 * num = 2 * (roundHalfEven num den * den) + den ∨
      2 * num + den = 2 * (roundHalfEven num den * den)) : Even (roundHalfEven num den) := by
  have hdiv : num / den * den + num % den = num := by
    rw [Nat.mul_comm]
    exact Nat.div_add_mod num den
  have hmod : num % den < den := Nat.mod_lt num hden
  have hsucc : (num / den + 1) * den = num / den * den + den := Nat.succ_mul _ _
  rw [Nat.even_iff]
  simp only [roundHalfEven] at h ⊢
  split at h
  · omega
  · split at h
    · rw [hsucc] at h
      omega
    · next hlow hhigh =>
        -- only the exact middle is left, and there the parity decides
        rw [if_neg hlow, if_neg hhigh]
        split
        · assumption
        · omega

/-- If another whole number is as near to a quotient, the two are neighbours and the one that the quotient
is rounded to is even. -/
theorem roundHalfEven_tie {n : ℕ} (hne : n ≠ roundHalfEven num den)
    (h : |(n : ℚ) - num / den| = |(roundHalfEven num den : ℚ) - num / den|) :
    |(n : ℚ) - roundHalfEven num den| = 1 ∧ Even (roundHalfEven num den) := by
  have hpos : (0 : ℚ) < den := by exact_mod_cast hden
  have hfar := one_le_abs_sub_add_abs_sub hne (num / den)
  have hnear := abs_roundHalfEven_sub_le num hden
  have hhalf : |(roundHalfEven num den : ℚ) - num / den| = 1 / 2 := by linarith
  have hne' : (n : ℚ) ≠ roundHalfEven num den := by exact_mod_cast hne
  rw [hhalf] at h
  have hcancel : (num : ℚ) / den * den = num := div_mul_cancel₀ _ hpos.ne'
  rcases eq_or_eq_neg_of_abs_eq hhalf with hr | hr
  · -- the quotient lies half a unit below what it is rounded to, so the other one lies below it
    rcases eq_or_eq_neg_of_abs_eq h with hn | hn
    · exact absurd (by linarith) hne'
    · refine ⟨by rw [abs_eq (by norm_num)]; right; linarith, roundHalfEven_even num hden (Or.inr ?_)⟩
      have hscaled : ((roundHalfEven num den : ℚ) - num / den) * den = 1 / 2 * den := by rw [hr]
      rw [sub_mul, hcancel] at hscaled
      have hrat : (2 : ℚ) * num + den = 2 * (roundHalfEven num den * den) := by linarith
      exact_mod_cast hrat
  · rcases eq_or_eq_neg_of_abs_eq h with hn | hn
    · refine ⟨by rw [abs_eq (by norm_num)]; left; linarith, roundHalfEven_even num hden (Or.inl ?_)⟩
      have hscaled : ((roundHalfEven num den : ℚ) - num / den) * den = -(1 / 2) * den := by rw [hr]
      rw [sub_mul, hcancel] at hscaled
      have hrat : (2 : ℚ) * num = 2 * (roundHalfEven num den * den) + den := by linarith
      exact_mod_cast hrat
    · exact absurd (by linarith) hne'

end

namespace Floating

variable {f : Format}

/-! ### Numbers of the format -/

/-- The number of a format that is nearest to a value.  If another one is as near, the value of the one
taken is an even multiple of the distance between the two. -/
structure IsNearest (x : ℚ) (y : Floating f) : Prop where
  representable : Representable y
  nearest : ∀ z : Floating f, Representable z → |y.toRat - x| ≤ |z.toRat - x|
  even : ∀ z : Floating f, Representable z → z.toRat ≠ y.toRat →
    |z.toRat - x| = |y.toRat - x| → ∃ k : ℕ, y.toRat = 2 * k * |z.toRat - y.toRat|

section

variable {num den : ℕ}

/-- Between a number of the format and a value there is a whole number of units of the value's last
place. -/
theorem Representable.exists_between (hp : 0 < f.precision) {z : Floating f} (hz : Representable z)
    (hnum : 0 < num) (hden : 0 < den) :
    ∃ n : ℕ, z.toRat ≤ n * 2 ^ lastPlace f num den ∧ n * 2 ^ lastPlace f num den ≤ (num : ℚ) / den ∨
      (num : ℚ) / den ≤ n * 2 ^ lastPlace f num den ∧ n * 2 ^ lastPlace f num den ≤ z.toRat := by
  have hnonneg : (0 : ℚ) ≤ num / den := by positivity
  obtain @⟨a, m, e, hm, he⟩ := hz
  cases a with
  | true =>
      refine ⟨0, Or.inl ⟨?_, ?_⟩⟩
      · simpa using toRat_negative_nonpos (f := f) m e
      · simpa using hnonneg
  | false =>
      rw [toRat_positive]
      rcases units_or_le_full hp hm he (lastPlace f num den) with ⟨n, hn⟩ | ⟨hplace, hfull⟩
      · rw [hn]
        refine ⟨n, ?_⟩
        rcases le_total ((n : ℚ) * 2 ^ lastPlace f num den) (num / den) with h | h
        · exact Or.inl ⟨le_rfl, h⟩
        · exact Or.inr ⟨h, le_rfl⟩
      · exact ⟨_, Or.inl ⟨hfull, full_le_of_lt hp hnum hden hplace⟩⟩

/-- The distance of a whole number of units of the last place, counted in such units. -/
theorem abs_units_sub (n num den : ℕ) :
    |(n : ℚ) * 2 ^ lastPlace f num den - num / den| =
      |(n : ℚ) - num / den / 2 ^ lastPlace f num den| * 2 ^ lastPlace f num den := by
  have hplace := two_zpow_pos (lastPlace f num den)
  rw [← abs_of_pos hplace, ← abs_mul, abs_of_pos hplace, sub_mul, div_mul_cancel₀ _ hplace.ne']

/-- No whole number of units of the last place is nearer than the significand. -/
theorem significand_nearest (f : Format) (num : ℕ) (hden : 0 < den) (n : ℕ) :
    |(significand f num den : ℚ) * 2 ^ lastPlace f num den - num / den| ≤
      |(n : ℚ) * 2 ^ lastPlace f num den - num / den| := by
  have h := roundHalfEven_nearest (num * 2 ^ (-lastPlace f num den).toNat)
    (scaled_pos hden (lastPlace f num den).toNat) n
  rw [scaled_div] at h
  rw [abs_units_sub, abs_units_sub]
  exact mul_le_mul_of_nonneg_right h (two_zpow_pos _).le

/-- If another whole number of units is as near, the two are neighbours and the significand is even. -/
theorem significand_tie (f : Format) (num : ℕ) (hden : 0 < den) {n : ℕ}
    (hne : n ≠ significand f num den)
    (h : |(n : ℚ) * 2 ^ lastPlace f num den - num / den| =
      |(significand f num den : ℚ) * 2 ^ lastPlace f num den - num / den|) :
    |(n : ℚ) - significand f num den| = 1 ∧ Even (significand f num den) := by
  rw [abs_units_sub, abs_units_sub] at h
  have h := mul_right_cancel₀ (two_zpow_pos (lastPlace f num den)).ne' h
  rw [← scaled_div] at h
  exact roundHalfEven_tie _ (scaled_pos hden _) hne h

end

/-- **What a value is rounded to is the number of the format that is nearest to it.** -/
theorem RoundsTo.isNearest (hp : 0 < f.precision) {x : ℚ} {y : Floating f} (h : RoundsTo x y)
    (hy : Representable y) : IsNearest x y := by
  cases h with
  | zero b =>
      refine ⟨hy, fun z _ => ?_, fun z _ hne heq => absurd ?_ hne⟩
      · simp
      · simpa using heq
  | @pos num den hnum hden =>
      have hvalue := toRat_round hp hnum hden hy
      refine ⟨hy, fun z hz => ?_, fun z hz hne heq => ?_⟩
      · -- the whole number of units between is no further away than the other number
        obtain ⟨n, hn⟩ := hz.exists_between hp hnum hden
        rw [hvalue]
        refine (significand_nearest f num hden n).trans ?_
        rcases hn with ⟨hlow, hhigh⟩ | ⟨hlow, hhigh⟩
        · rw [abs_of_nonpos (by linarith), abs_of_nonpos (by linarith)]
          linarith
        · rw [abs_of_nonneg (by linarith), abs_of_nonneg (by linarith)]
          linarith
      · -- as both are equally near, the whole number of units between is the other number itself
        obtain ⟨n, hn⟩ := hz.exists_between hp hnum hden
        have hnear := significand_nearest f num hden n
        rw [hvalue] at hne heq ⊢
        have hz : z.toRat = n * 2 ^ lastPlace f num den := by
          rw [← heq] at hnear
          rcases hn with ⟨hlow, hhigh⟩ | ⟨hlow, hhigh⟩
          · rw [abs_of_nonpos (by linarith), abs_of_nonpos (by linarith)] at hnear
            linarith
          · rw [abs_of_nonneg (by linarith), abs_of_nonneg (by linarith)] at hnear
            linarith
        rw [hz] at hne heq ⊢
        have hother : n ≠ significand f num den := by
          rintro rfl
          exact hne rfl
        obtain ⟨hone, k, hk⟩ := significand_tie f num hden hother heq
        refine ⟨k, ?_⟩
        rw [← sub_mul, abs_mul, hone, abs_of_pos (two_zpow_pos _), hk]
        push_cast
        ring

/-- A value that the format has is not changed by rounding. -/
theorem RoundsTo.toRat_eq (hp : 0 < f.precision) {y z : Floating f} (h : RoundsTo z.toRat y)
    (hy : Representable y) (hz : Representable z) : y.toRat = z.toRat := by
  have hnear := (h.isNearest hp hy).nearest z hz
  rw [sub_self, abs_zero, abs_nonpos_iff] at hnear
  exact sub_eq_zero.1 hnear

end Floating

end FeatureFlags
