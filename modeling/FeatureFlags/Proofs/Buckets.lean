/-
**Who owns a bucket.**

The shares of a rule take the buckets one after the other: a share owns the buckets from the total of
the shares before it up to its own end.  The running totals never decrease, so bisecting them for a
bucket finds the first end above it, and that is the end of its owner.  All of this only holds as long
as the totals fit into their 32 bits.

Main definitions:

* `Bucket.Owns` — **a share owns a bucket**.

Main results:

* `Bucket.turns_bisect` — bisection finds the point at which a test turns;
* `Bucket.select_eq_some_iff`, `Bucket.select_eq_none_iff` — **the owner of a bucket is found**, and
  nobody if it lies past all shares.
-/
import Mathlib.Algebra.Order.BigOperators.Group.List
import Mathlib.Algebra.Order.Ring.Nat
import FeatureFlags.Bucket

set_option autoImplicit false

namespace FeatureFlags.Bucket

/-! ### Bisection -/

section

variable {test : ℕ → Bool} {base size : ℕ}

theorem bisect_of_true (h : 1 < size) (htest : test (base + size / 2) = true) :
    bisect test base size = bisect test (base + size / 2) (size - size / 2) := by
  rw [bisect, if_neg (Nat.not_le.2 h)]
  simp only [htest, if_true]

theorem bisect_of_false (h : 1 < size) (htest : test (base + size / 2) = false) :
    bisect test base size = bisect test base (size - size / 2) := by
  rw [bisect, if_neg (Nat.not_le.2 h)]
  simp only [htest, Bool.false_eq_true, if_false]

/-- A point at which a test turns, among the `size` places from `base` on: the test holds at every place
before it and at none from there on. -/
structure Turns (test : ℕ → Bool) (base size point : ℕ) : Prop where
  low : base ≤ point
  high : point ≤ base + size
  before : ∀ i, base ≤ i → i < point → test i = true
  after : ∀ i, point ≤ i → i < base + size → test i = false

/-- **Bisection finds the point at which a test turns**, if the test holds at every place before one at
which it holds. -/
theorem turns_bisect
    (hmono : ∀ i j, base ≤ i → i ≤ j → j < base + size → test j = true → test i = true) :
    Turns test base size (bisect test base size) := by
  induction size using Nat.strong_induction_on generalizing base with
  | _ size ih =>
      rcases Nat.lt_or_ge 1 size with hsize | hsize
      · cases htest : test (base + size / 2) with
        | true =>
            -- the point lies behind the middle, and every place before the middle passes the test
            have h : Turns test (base + size / 2) (size - size / 2) _ :=
              ih (size - size / 2) (by omega)
                fun i j hi hij hj => hmono i j (by omega) hij (by omega)
            rw [bisect_of_true hsize htest]
            refine ⟨by have := h.low; omega, by have := h.high; omega, fun i hi hlt => ?_,
              fun i hi hlt => h.after i hi (by omega)⟩
            rcases Nat.lt_or_ge i (base + size / 2) with hmid | hmid
            · exact hmono i (base + size / 2) hi hmid.le (by omega) htest
            · exact h.before i hmid hlt
        | false =>
            -- the point lies at or before the middle, and no place from there on passes the test
            have h : Turns test base (size - size / 2) _ :=
              ih (size - size / 2) (by omega) fun i j hi hij hj => hmono i j hi hij (by omega)
            rw [bisect_of_false hsize htest]
            refine ⟨h.low, by have := h.high; omega, h.before, fun i hi hlt => ?_⟩
            rcases Nat.lt_or_ge i (base + (size - size / 2)) with hmid | hmid
            · exact h.after i hi hmid
            · refine Bool.eq_false_iff.2 fun hi => ?_
              have := hmono (base + size / 2) i (by omega) (by omega) hlt hi
              rw [htest] at this
              cases this
      · rw [bisect, if_pos hsize]
        by_cases hone : size = 1 ∧ test base = true
        · rw [if_pos hone]
          obtain ⟨rfl, htest⟩ := hone
          refine ⟨by omega, by omega, fun i hi hlt => ?_, fun i hi hlt => by omega⟩
          obtain rfl : i = base := by omega
          exact htest
        · rw [if_neg hone]
          refine ⟨by omega, by omega, fun i hi hlt => by omega, fun i hi hlt => ?_⟩
          obtain rfl : i = base := by omega
          exact Bool.eq_false_iff.2 fun htest => hone ⟨by omega, htest⟩

end

/-! ### Running totals -/

/-- A share owns a bucket if the shares before it end at or before the bucket and it ends after it. -/
structure Owns (shares : List ℕ) (bucket i : ℕ) : Prop where
  lt_length : i < shares.length
  before : (shares.take i).sum ≤ bucket
  within : bucket < (shares.take (i + 1)).sum

theorem length_boundsFrom (total : ℕ) (ps : List Single) :
    (boundsFrom total ps).length = ps.length := by
  induction ps generalizing total with
  | nil => rfl
  | cons p ps ih => exact congrArg (· + 1) (ih _)

/-- The running totals are exact as long as they fit into their 32 bits. -/
theorem getD_boundsFrom {total : ℕ} {ps : List Single}
    (h : total + (ps.map share).sum < 2 ^ 32) {i : ℕ} (hi : i < ps.length) :
    (boundsFrom total ps).getD i 0 = total + ((ps.map share).take (i + 1)).sum := by
  induction ps generalizing total i with
  | nil => exact absurd hi (Nat.not_lt_zero i)
  | cons p ps ih =>
      rw [List.map_cons, List.sum_cons] at h
      have hnext : (total + share p) % 2 ^ 32 = total + share p := Nat.mod_eq_of_lt (by omega)
      rw [boundsFrom]
      simp only [Nat.pow_eq, hnext]
      cases i with
      | zero => simp
      | succ i =>
          rw [List.getD_cons_succ, ih (by omega) (Nat.lt_of_succ_lt_succ hi)]
          simp [Nat.add_assoc]

/-- Totals of more shares are not less. -/
theorem sum_take_mono (shares : List ℕ) {i j : ℕ} (h : i ≤ j) :
    (shares.take i).sum ≤ (shares.take j).sum :=
  ((List.take_prefix_take_left h).sublist).sum_le_sum fun _ _ => Nat.zero_le _

theorem sum_take_le (shares : List ℕ) (i : ℕ) : (shares.take i).sum ≤ shares.sum :=
  (List.take_sublist i shares).sum_le_sum fun _ _ => Nat.zero_le _

theorem Owns.not_lt {shares : List ℕ} {bucket i j : ℕ} (hi : Owns shares bucket i)
    (hj : Owns shares bucket j) : ¬i < j := by
  intro h
  have hle : (shares.take (i + 1)).sum ≤ (shares.take j).sum := sum_take_mono shares h
  have := hi.within
  have := hj.before
  omega

/-- No two shares own the same bucket. -/
theorem Owns.unique {shares : List ℕ} {bucket i j : ℕ} (hi : Owns shares bucket i)
    (hj : Owns shares bucket j) : i = j :=
  Nat.le_antisymm (Nat.not_lt.1 (hj.not_lt hi)) (Nat.not_lt.1 (hi.not_lt hj))

/-- A bucket that is owned does not lie past all shares. -/
theorem Owns.lt_sum {shares : List ℕ} {bucket i : ℕ} (h : Owns shares bucket i) :
    bucket < shares.sum :=
  h.within.trans_le (sum_take_le shares (i + 1))

/-! ### The owner of a bucket -/

section

variable {ps : List Single} (h : (ps.map share).sum < 2 ^ 32) (bucket : ℕ)
include h

/-- **Every bucket has an owner, which is selected, or lies past all shares.** -/
theorem select_owner_or_past :
    (∃ i, select (bounds ps) bucket = some i ∧ Owns (ps.map share) bucket i) ∨
      select (bounds ps) bucket = none ∧ (ps.map share).sum ≤ bucket := by
  have hlength : (bounds ps).length = ps.length := length_boundsFrom 0 ps
  have htotal : ∀ i, i < ps.length → (bounds ps).getD i 0 = ((ps.map share).take (i + 1)).sum := by
    intro i hi
    have := @getD_boundsFrom 0 ps (by omega) i hi
    rwa [Nat.zero_add] at this
  have hmono : ∀ i j, 0 ≤ i → i ≤ j → j < 0 + (bounds ps).length →
      decide ((bounds ps).getD j 0 ≤ bucket) = true → decide ((bounds ps).getD i 0 ≤ bucket) = true := by
    intro i j _ hij hj htest
    rw [decide_eq_true_iff, htotal j (by omega)] at htest
    rw [decide_eq_true_iff, htotal i (by omega)]
    exact (sum_take_mono _ (by omega)).trans htest
  have hturns := turns_bisect hmono
  simp only [select]
  generalize bisect (fun i => decide ((bounds ps).getD i 0 ≤ bucket)) 0 (bounds ps).length = k
    at hturns
  have hhigh : k ≤ ps.length := by
    have := hturns.high
    omega
  -- the shares before the place that is found end at or before the bucket, even if none is left
  have hbefore : ((ps.map share).take k).sum ≤ bucket := by
    cases k with
    | zero => exact Nat.zero_le bucket
    | succ k =>
        have htest := hturns.before k (Nat.zero_le k) (Nat.lt_succ_self k)
        rwa [decide_eq_true_iff, htotal k hhigh] at htest
  rw [hlength]
  rcases hhigh.lt_or_eq with hk | rfl
  · have hafter := hturns.after k le_rfl (by omega)
    rw [decide_eq_false_iff_not, htotal k hk, Nat.not_le] at hafter
    have hown : Owns (ps.map share) bucket k := ⟨by rwa [List.length_map], hbefore, hafter⟩
    exact Or.inl ⟨k, by rw [if_pos hk], hown⟩
  · rw [List.take_of_length_le (List.length_map share).le] at hbefore
    exact Or.inr ⟨by rw [if_neg (Nat.lt_irrefl _)], hbefore⟩

/-- **The share at a place owns a bucket exactly if this place is selected.** -/
theorem select_eq_some_iff (i : ℕ) :
    select (bounds ps) bucket = some i ↔ Owns (ps.map share) bucket i := by
  rcases select_owner_or_past h bucket with ⟨k, hk, hown⟩ | ⟨hnone, hpast⟩
  · rw [hk, Option.some.injEq]
    constructor
    · rintro rfl
      exact hown
    · exact fun hi => hown.unique hi
  · rw [hnone]
    exact iff_of_false (Option.some_ne_none i).symm fun hi => absurd hi.lt_sum (Nat.not_lt.2 hpast)

/-- **Nobody is selected exactly if the bucket lies past all shares.** -/
theorem select_eq_none_iff :
    select (bounds ps) bucket = none ↔ (ps.map share).sum ≤ bucket := by
  rcases select_owner_or_past h bucket with ⟨k, hk, hown⟩ | ⟨hnone, hpast⟩
  · rw [hk]
    exact iff_of_false (Option.some_ne_none k) (Nat.not_le.2 hown.lt_sum)
  · exact iff_of_true hnone hpast

end

end FeatureFlags.Bucket
