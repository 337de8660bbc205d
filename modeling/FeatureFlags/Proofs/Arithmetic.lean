/-
**What the operations on floating-point numbers compute.**

Finite numbers are ordered as their values are, and a sum or a product of finite numbers is the exact
one, rounded.  The whole part of a number is that of its value.

Main results:

* `Floating.lt_iff`, `Floating.le_iff` — the order of finite numbers;
* `Floating.roundsTo_add`, `Floating.roundsTo_mul` — **sums and products are rounded once**;
* `Floating.truncate_eq` — the whole part.
-/
import Mathlib.Algebra.Order.Floor.Semifield
import Mathlib.Data.Rat.Floor
import FeatureFlags.Proofs.Rounding

set_option autoImplicit false

namespace FeatureFlags.Floating

variable {f : Format}

/-- A number that is neither an infinity nor no number at all. -/
inductive Finite : Floating f → Prop
  | of (a : Bool) (m : ℕ) (e : ℤ) : Finite (.finite a m e)

theorem Representable.isFinite {x : Floating f} (h : Representable x) : Finite x := by
  obtain ⟨_, _⟩ := h
  exact .of ..

/-! ### Order -/

/-- The value of a number in units of a power of two below its own. -/
theorem units_mul (a : Bool) (m : ℕ) {e q : ℤ} (h : q ≤ e) :
    (units a m e q : ℚ) * 2 ^ q = (.finite a m e : Floating f).toRat := by
  have hcast : ((e - q).toNat : ℤ) = e - q := Int.toNat_of_nonneg (by omega)
  have hpow : (2 : ℚ) ^ (e - q).toNat * 2 ^ q = 2 ^ e := by
    rw [← zpow_natCast, hcast, ← zpow_add₀ (by norm_num), sub_add_cancel]
  cases a with
  | false => simp [units, toRat, mul_assoc, hpow]
  | true => simp [units, toRat, mul_assoc, hpow]

/-- Finite numbers compare as their values. -/
theorem compare?_finite {x y : Floating f} (hx : Finite x) (hy : Finite y) :
    compare? x y = some (compare x.toRat y.toRat) := by
  obtain ⟨a, m, e⟩ := hx
  obtain ⟨b, n, g⟩ := hy
  -- both numbers are whole multiples of the smaller of their two units
  have hpos := two_zpow_pos (min e g)
  have hx := units_mul (f := f) a m (min_le_left e g)
  have hy := units_mul (f := f) b n (min_le_right e g)
  rw [compare?, ← hx, ← hy]
  refine congrArg some ?_
  rcases lt_trichotomy (units a m e (min e g)) (units b n g (min e g)) with h | h | h
  · have hcast : (units a m e (min e g) : ℚ) < units b n g (min e g) := by exact_mod_cast h
    rw [compare_lt_iff_lt.2 h, compare_lt_iff_lt.2 (mul_lt_mul_of_pos_right hcast hpos)]
  · rw [h, compare_eq_iff_eq.2 rfl, compare_eq_iff_eq.2 rfl]
  · have hcast : (units b n g (min e g) : ℚ) < units a m e (min e g) := by exact_mod_cast h
    rw [compare_gt_iff_gt.2 h, compare_gt_iff_gt.2 (mul_lt_mul_of_pos_right hcast hpos)]

theorem lt_iff {x y : Floating f} (hx : Finite x) (hy : Finite y) :
    lt x y = true ↔ x.toRat < y.toRat := by
  simp [lt, compare?_finite hx hy, compare_lt_iff_lt]

theorem le_iff {x y : Floating f} (hx : Finite x) (hy : Finite y) :
    le x y = true ↔ x.toRat ≤ y.toRat := by
  simp [le, lt, eqv, compare?_finite hx hy, compare_lt_iff_lt, le_iff_lt_or_eq]

/-! ### Sums and products -/

/-- A scaled whole number is rounded as its value. -/
theorem roundsTo_roundScaled {b : Bool} {m : ℕ} {q : ℤ} (hb : b = true → m = 0) :
    RoundsTo (m * 2 ^ q) (roundScaled b m q : Floating f) := by
  rw [mul_zpow_eq_div]
  exact roundsTo_round (by positivity) fun h => by rw [hb h, Nat.zero_mul]

theorem roundsTo_add {x y : Floating f} (hx : Finite x) (hy : Finite y)
    (h : 0 ≤ x.toRat + y.toRat) : RoundsTo (x.toRat + y.toRat) (add x y) := by
  obtain ⟨a, m, e⟩ := hx
  obtain ⟨b, n, g⟩ := hy
  have hpos := two_zpow_pos (min e g)
  have hx := units_mul (f := f) a m (min_le_left e g)
  have hy := units_mul (f := f) b n (min_le_right e g)
  rw [← hx, ← hy, ← add_mul, ← Int.cast_add] at h ⊢
  -- a sum that is not negative is its own absolute value, and its sign is only set if it is zero
  obtain ⟨s, hs⟩ : ∃ s : ℕ, units a m e (min e g) + units b n g (min e g) = s :=
    Int.eq_ofNat_of_zero_le (by exact_mod_cast nonneg_of_mul_nonneg_left h hpos)
  simp only [add, hs, Int.natAbs_natCast, Int.cast_natCast]
  refine roundsTo_roundScaled fun hsign => ?_
  by_contra hne
  rw [if_neg (by exact_mod_cast hne), decide_eq_true_iff] at hsign
  omega

theorem roundsTo_mul {x y : Floating f} (hx : Finite x) (hy : Finite y)
    (h : 0 ≤ x.toRat * y.toRat) : RoundsTo (x.toRat * y.toRat) (mul x y) := by
  obtain ⟨a, m, e⟩ := hx
  obtain ⟨b, n, g⟩ := hy
  have hvalue : (.finite a m e : Floating f).toRat * (.finite b n g : Floating f).toRat =
      (if a != b then -((m * n : ℕ) : ℚ) else (m * n : ℕ)) * 2 ^ (e + g) := by
    rw [zpow_add₀ (by norm_num)]
    cases a <;> cases b <;> simp [toRat] <;> ring
  have hpos := two_zpow_pos (e + g)
  rw [hvalue] at h ⊢
  rw [mul]
  cases hsign : a != b with
  | false => exact roundsTo_roundScaled fun h => absurd h Bool.false_ne_true
  | true =>
      -- a product with its sign set is not negative only if it is zero
      rw [hsign, if_pos rfl] at h
      have hzero : m * n = 0 := by
        have hle := nonneg_of_mul_nonneg_left h hpos
        have : ((m * n : ℕ) : ℚ) ≤ 0 := by linarith
        exact_mod_cast Nat.le_zero.1 (by exact_mod_cast this)
      have hround : RoundsTo (((m * n : ℕ) : ℚ) * 2 ^ (e + g))
          (roundScaled true (m * n) (e + g) : Floating f) := roundsTo_roundScaled fun _ => hzero
      rw [hzero] at hround ⊢
      simpa using hround

/-! ### Whole parts -/

theorem truncate_eq {x : Floating f} (hx : Finite x) (h : 0 ≤ x.toRat) (bound : ℕ) :
    truncate bound x = min bound ⌊x.toRat⌋₊ := by
  obtain ⟨a, m, e⟩ := hx
  rw [truncate]
  cases a with
  | false =>
      rw [toRat_positive, mul_zpow_eq_div, Nat.floor_div_eq_div]
      rfl
  | true =>
      rw [le_antisymm (toRat_negative_nonpos m e) h, Nat.floor_zero, Nat.min_zero]
      rfl

end FeatureFlags.Floating
