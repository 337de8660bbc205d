/-
**What is written is JSON.**

Every value has a tree, and its text holds this tree.  In it only the numbers need a look at their own
texts: a whole number is written with its digits, a number of a floating-point format with those of a
decimal, and one that is not finite by a name.  The digits of a decimal that stands for a number other than
zero are not zero, so that none of its forms begins with a zero too many or has an empty part.

Main definitions:

* `Json.Number.tree`, `Json.Value.tree` — the tree of a value.

Main results:

* `Floating.shortest_digits_ne_zero` — the digits of a number other than zero are not zero;
* `Json.Number.chars_null_or_numeral` — the text of a number is a numeral or a name;
* `Json.Value.spells` — **the text of a value holds its tree**;
* `Json.Value.visible` — no control character stands in the text of a value.
-/
import Mathlib.Tactic.SplitIfs
import FeatureFlags.Json.Value
import FeatureFlags.Proofs.Grammar

set_option autoImplicit false

namespace FeatureFlags

/-! ### Decimals other than zero -/

namespace Decimal

theorem strip_digits_ne_zero {d : Decimal} (h : d.digits ≠ 0) (fuel : Nat) :
    (strip fuel d).digits ≠ 0 := by
  induction fuel generalizing d with
  | zero => exact h
  | succ fuel ih =>
      rw [strip]
      split
      · next hzero =>
          apply ih
          show d.digits / 10 ≠ 0
          omega
      · exact h

end Decimal

namespace Floating

variable {f : Format} {m : Nat} {q : Int}

/-- Zero lies among the reals of no other number. -/
theorem digits_ne_zero_of_readsBack (hm : m ≠ 0) {d : Decimal} (h : readsBack f m q d = true) :
    d.digits ≠ 0 := by
  intro hzero
  have hend : 0 < lowerEnd f m q := by
    rw [lowerEnd]
    split <;> omega
  have hlow : 0 < lowerEnd f m q * (Nat.pow 2 q.toNat * Nat.pow 10 (-d.exponent).toNat) :=
    Nat.mul_pos hend (Nat.mul_pos (Nat.pow_pos (by decide)) (Nat.pow_pos (by decide)))
  simp only [readsBack, hzero, Nat.zero_mul, Nat.mul_zero] at h
  generalize lowerEnd f m q * _ = low at h hlow
  split at h
  · simp at h
    omega
  · simp at h

/-- Both neighbours on a grid are only taken if they read back. -/
theorem readsBack_of_onGrid? {tie : Tie} {grid : Int} {d : Decimal}
    (h : onGrid? f tie m q grid = some d) : readsBack f m q d = true := by
  simp only [onGrid?] at h
  split at h
  · cases h
  · next hlow _ => rwa [← Option.some.inj h]
  · next _ hhigh => rwa [← Option.some.inj h]
  · next hlow hhigh =>
      split at h
      · rwa [← Option.some.inj h]
      · split at h
        · rwa [← Option.some.inj h]
        · cases tie with
          | upward => rwa [← Option.some.inj h]
          | toEven =>
              simp only at h
              split at h
              · rwa [← Option.some.inj h]
              · rwa [← Option.some.inj h]

/-- **The digits of a number other than zero are not zero.** -/
theorem shortest_digits_ne_zero (hm : m ≠ 0) (tie : Tie) : (shortest f tie m q).digits ≠ 0 := by
  rw [shortest]
  apply Decimal.strip_digits_ne_zero
  cases hfound : (List.range (maxDigits f)).findSome? fun n : Nat =>
    onGrid? f tie m q (decimalScale (m * Nat.pow 2 q.toNat) (Nat.pow 2 (-q).toNat) - ((n : Int) + 1)) with
  | none =>
      have htwos : Nat.pow 2 q.toNat ≠ 0 := Nat.pos_iff_ne_zero.1 (Nat.pow_pos (by decide))
      have hfives : Nat.pow 5 (-q).toNat ≠ 0 := Nat.pos_iff_ne_zero.1 (Nat.pow_pos (by decide))
      exact Nat.mul_ne_zero (Nat.mul_ne_zero hm htwos) hfives
  | some d =>
      obtain ⟨n, -, hn⟩ := List.exists_of_findSome?_eq_some hfound
      exact digits_ne_zero_of_readsBack hm (readsBack_of_onGrid? hn)

end Floating

namespace Json

/-! ### The digits of numbers -/

namespace Spelling

/-- The digits of a number do not begin with a zero, unless the number is zero. -/
theorem ofDigits_toDigits (n : Nat) :
    ∃ d ds, OfDigits (Nat.toDigits 10 n) (d :: ds) ∧ (n ≠ 0 → d ≠ 0) := by
  induction n using Nat.strongRecOn with
  | ind n ih =>
      by_cases hn : n < 10
      · rw [Nat.toDigits_of_lt_base hn]
        exact ⟨n, [], .last hn, id⟩
      · obtain ⟨d, ds, h, hd⟩ := ih (n / 10) (by omega)
        rw [Nat.toDigits_of_base_le (by decide) (by omega)]
        exact ⟨d, _, h.append (.last (Nat.mod_lt _ (by decide))), fun _ => hd (by omega)⟩

theorem ofWhole_toDigits (n : Nat) : ∃ ds, OfWhole (Nat.toDigits 10 n) ds := by
  by_cases hn : n = 0
  · subst hn
    exact ⟨_, .zero⟩
  · obtain ⟨d, ds, h, hd⟩ := ofDigits_toDigits n
    exact ⟨_, .digits (hd hn) h⟩

/-- Zeros may be put behind digits. -/
theorem OfDigits.zeros {s : List Char} {ds : List Nat} (h : OfDigits s ds) (n : Nat) :
    OfDigits (s ++ List.replicate n '0') (ds ++ List.replicate n 0) := by
  induction n with
  | zero =>
      rw [List.replicate_zero, List.replicate_zero, List.append_nil, List.append_nil]
      exact h
  | succ n ih =>
      rw [List.replicate_succ', List.replicate_succ', ← List.append_assoc, ← List.append_assoc]
      exact ih.append .zero

/-- Zeros may be put before the digits of a fraction. -/
theorem OfDigits.zerosBefore {s : List Char} {ds : List Nat} (h : OfDigits s ds) (n : Nat) :
    OfDigits (List.replicate n '0' ++ s) (List.replicate n 0 ++ ds) := by
  induction n with
  | zero => exact h
  | succ n ih => exact OfDigits.zero.append ih

/-- Digits may be cut in two. -/
theorem OfDigits.cut {s : List Char} {ds : List Nat} (h : OfDigits s ds) {n : Nat} (hpos : 0 < n)
    (hn : n < s.length) : OfDigits (s.take n) (ds.take n) ∧ OfDigits (s.drop n) (ds.drop n) := by
  rw [ofDigits_iff] at h
  obtain ⟨-, hds, rfl⟩ := h
  rw [List.length_map] at hn
  rw [ofDigits_iff, ofDigits_iff, List.map_take, List.map_drop]
  refine ⟨⟨?_, fun d hd => hds d (List.mem_of_mem_take hd), rfl⟩,
    ⟨?_, fun d hd => hds d (List.mem_of_mem_drop hd), rfl⟩⟩
  · rw [Ne, List.take_eq_nil_iff, not_or]
    refine ⟨Nat.pos_iff_ne_zero.1 hpos, fun hnil => ?_⟩
    rw [hnil] at hn
    exact Nat.not_lt_zero n hn
  · rw [Ne, List.drop_eq_nil_iff]
    omega

theorem OfNumeral.ofWhole {s : List Char} {ds : List Nat} (h : OfWhole s ds) :
    OfNumeral s ⟨false, ds, none, none⟩ := by
  have h := OfNumeral.positive h .none .none
  rwa [List.append_nil, List.append_nil] at h

theorem OfNumeral.neg {s : List Char} {whole : List Nat} {fraction : Option (List Nat)}
    {exponent : Option (Bool × List Nat)} (h : OfNumeral s ⟨false, whole, fraction, exponent⟩) :
    OfNumeral ('-' :: s) ⟨true, whole, fraction, exponent⟩ := by
  cases h with
  | positive hw hf he => exact .negative hw hf he

/-- A number with a point. -/
theorem OfNumeral.point {s t : List Char} {ds es : List Nat} (h : OfWhole s ds) (h' : OfDigits t es) :
    OfNumeral (s ++ '.' :: t) ⟨false, ds, some es, none⟩ := by
  have h := OfNumeral.positive h (.some h') .none
  rwa [List.append_nil] at h

end Spelling

open Spelling

/-! ### The texts of numbers -/

namespace Layout

variable {d : Decimal}

/-- A decimal with a fraction. -/
theorem exists_positional (hd : d.digits ≠ 0) (hexp : d.exponent < 0) :
    ∃ whole fraction, OfNumeral d.positional ⟨false, whole, some fraction, none⟩ := by
  obtain ⟨a, as, has, ha⟩ := ofDigits_toDigits d.digits
  rw [Decimal.positional, if_neg (by omega)]
  simp only []
  split
  · next hplaces =>
      -- some digits go before the point, the first of which is not zero
      have hlength : d.chars.length - (-d.exponent).toNat < d.chars.length := by omega
      have hpos : 0 < d.chars.length - (-d.exponent).toNat := by omega
      generalize d.chars.length - (-d.exponent).toNat = n at hlength hpos
      obtain ⟨n, rfl⟩ := Nat.exists_eq_add_of_le' hpos
      obtain ⟨hwhole, hfraction⟩ := has.cut hpos hlength
      exact ⟨_, _, .point (.digits (ha hd) hwhole) hfraction⟩
  · next hplaces => exact ⟨_, _, .point .zero (has.zerosBefore _)⟩

/-- A decimal without a fraction, which is written with one. -/
theorem exists_whole (hd : d.digits ≠ 0) (hexp : 0 ≤ d.exponent) :
    ∃ whole, OfNumeral (d.positional ++ ['.', '0']) ⟨false, whole, some [0], none⟩ := by
  obtain ⟨a, as, has, ha⟩ := ofDigits_toDigits d.digits
  rw [Decimal.positional, if_pos hexp]
  exact ⟨_, .point (.digits (ha hd) (has.zeros _)) .zero⟩

/-- A decimal in scientific notation. -/
theorem exists_scientific (hd : d.digits ≠ 0) :
    ∃ whole fraction exponent, OfNumeral (scientific d) ⟨false, whole, fraction, some exponent⟩ := by
  obtain ⟨a, as, has, ha⟩ := ofDigits_toDigits d.digits
  obtain ⟨b, bs, hbs, -⟩ := ofDigits_toDigits d.leading.natAbs
  have hexponent : ∃ exponent, OfExponent ('e' :: (if d.leading < 0 then '-' else '+') ::
      Nat.toDigits 10 d.leading.natAbs) (some exponent) := by
    split
    · exact ⟨_, .minus (Or.inl rfl) hbs⟩
    · exact ⟨_, .plus (Or.inl rfl) hbs⟩
  obtain ⟨exponent, hexponent⟩ := hexponent
  rw [scientific]
  change OfDigits d.chars (a :: as) at has
  generalize d.chars = cs at has
  cases has with
  | last hlast =>
      exact ⟨_, _, _, .positive (.digits (ha hd) (.last hlast)) .none hexponent⟩
  | @cons s _ _ hcons hrest =>
      obtain ⟨c, cs, rfl⟩ := List.exists_cons_of_ne_nil hrest.ne_nil
      exact ⟨_, _, _, .positive (.digits (ha hd) (.last hcons)) (.some hrest) hexponent⟩

/-- Every decimal that is not zero is a numeral. -/
theorem exists_write (l : Layout) (hd : d.digits ≠ 0) :
    ∃ whole fraction exponent, OfNumeral (l.write d) ⟨false, whole, fraction, exponent⟩ := by
  rw [write]
  split
  · split
    · next hexp =>
        obtain ⟨whole, h⟩ := exists_whole hd hexp
        exact ⟨whole, _, _, h⟩
    · next hexp =>
        obtain ⟨whole, fraction, h⟩ := exists_positional hd (by omega)
        exact ⟨whole, _, _, h⟩
  · obtain ⟨whole, fraction, exponent, h⟩ := exists_scientific hd
    exact ⟨whole, fraction, _, h⟩

/-- **The text of a floating-point number is a numeral, or a name.** -/
theorem chars_null_or_numeral (l : Layout) {f : Format} (x : Floating f) :
    l.chars x = ['n', 'u', 'l', 'l'] ∨ ∃ n, OfNumeral (l.chars x) n := by
  cases x with
  | nan | infinite => exact .inl rfl
  | finite b m q =>
      have hdigits : ∃ whole fraction exponent, OfNumeral
          (if m = 0 then ['0', '.', '0'] else l.write (Floating.shortest f .toEven m q))
          ⟨false, whole, fraction, exponent⟩ := by
        split
        · exact ⟨_, _, _, .point .zero .zero⟩
        · next hm => exact l.exists_write (Floating.shortest_digits_ne_zero hm .toEven)
      obtain ⟨whole, fraction, exponent, h⟩ := hdigits
      rw [chars]
      cases b with
      | false => exact .inr ⟨_, h⟩
      | true => exact .inr ⟨_, h.neg⟩

end Layout

namespace Number

/-- **The text of a number is a numeral, or a name.** -/
theorem chars_null_or_numeral (n : Number) :
    n.chars = ['n', 'u', 'l', 'l'] ∨ ∃ m, OfNumeral n.chars m := by
  cases n with
  | integer i =>
      obtain ⟨ds, h⟩ := ofWhole_toDigits i.natAbs
      rw [chars, intChars]
      split
      · exact .inr ⟨_, (OfNumeral.ofWhole h).neg⟩
      · exact .inr ⟨_, .ofWhole h⟩
  | single x => exact Layout.chars_null_or_numeral _ x
  | double x => exact Layout.chars_null_or_numeral _ x

theorem exists_tree (n : Number) : ∃ t, OfTree n.chars t := by
  rcases n.chars_null_or_numeral with hnull | ⟨m, h⟩
  · rw [hnull]
    exact ⟨_, .null⟩
  · exact ⟨_, .number h⟩

theorem visible (n : Number) : Visible n.chars := by
  rcases n.chars_null_or_numeral with hnull | ⟨m, h⟩
  · rw [hnull]
    simp
  · exact h.visible

/-- What the text of a number holds. -/
noncomputable def tree (n : Number) : Tree := n.exists_tree.choose

theorem spells (n : Number) : OfTree n.chars n.tree := n.exists_tree.choose_spec

end Number

/-! ### The texts of strings -/

namespace Value

/-- A character is written so that it spells itself. -/
theorem ofChar_escapeChar (c : Char) : OfChar (escapeChar c) c := by
  have hchar : ∀ {n : Nat} {d : Char}, c.toNat = n → d.toNat = n → c = d :=
    fun hc hd => Char.toNat_inj.1 (hc.trans hd.symm)
  rw [escapeChar]
  split_ifs with hquote hslash hback hfeed hline hreturn htab hcontrol
  · rw [hquote]
    exact .short (by decide)
  · rw [hslash]
    exact .short (by decide)
  · rw [hchar hback (d := '\x08') rfl]
    exact .short (by decide)
  · rw [hchar hfeed (d := '\x0C') rfl]
    exact .short (by decide)
  · rw [hline]
    exact .short (by decide)
  · rw [hreturn]
    exact .short (by decide)
  · rw [htab]
    exact .short (by decide)
  · -- the other control characters are written by their numbers
    have hdigit : ∀ n < 16, HexDigit n.digitChar n := fun n hn => ⟨hn, Or.inl rfl⟩
    have hfour := FourDigits.of (hdigit 0 (by decide)) (hdigit 0 (by decide))
      (hdigit (c.toNat / 16) (by omega)) (hdigit (c.toNat % 16) (by omega))
    have hvalue : ((0 * 16 + 0) * 16 + c.toNat / 16) * 16 + c.toNat % 16 = c.toNat := by omega
    rw [hvalue] at hfour
    have hunit := OfChar.unit hfour (by omega)
    rwa [Char.ofNat_toNat] at hunit
  · refine .plain ⟨by omega, hquote, hslash⟩

theorem ofString_stringChars (s : String) : OfString (stringChars s) s := by
  refine .of ?_
  generalize s.toList = cs
  induction cs with
  | nil => exact .nil
  | cons c cs ih => exact .cons (ofChar_escapeChar c) ih

/-! ### The texts of values -/

section

variable {k s u : List Char} {name : String} {t : Tree} {ms : List (String × Tree)}

/-- A member without blanks. -/
theorem lastMember_plain (hk : OfString k name) (h : OfTree s t) :
    OfPart (k ++ ':' :: s) (.members [(name, t)]) := by
  have hnone : Blanks [] := by decide
  have hmember := OfPart.lastMember hnone hk hnone h
  rwa [List.nil_append, List.append_nil] at hmember

theorem member_plain (hk : OfString k name) (h : OfTree s t) (hms : OfPart u (.members ms)) :
    OfPart (k ++ ':' :: s ++ ',' :: u) (.members ((name, t) :: ms)) := by
  have hnone : Blanks [] := by decide
  have hmember := OfPart.member hnone hk hnone h hms
  rwa [List.nil_append, List.append_nil] at hmember

end

mutual

/-- What the text of a value holds. -/
noncomputable def tree : Value → Tree
  | .null => .null
  | .bool b => .bool b
  | .number n => n.tree
  | .string s => .string s
  | .array vs => .array (trees vs)
  | .object ms => .object (memberTrees ms)

/-- What the texts of some items hold. -/
noncomputable def trees : List Value → List Tree
  | [] => []
  | v :: vs => tree v :: trees vs

/-- What the texts of some members hold. -/
noncomputable def memberTrees : List (String × Value) → List (String × Tree)
  | [] => []
  | (name, v) :: ms => (name, tree v) :: memberTrees ms

end

mutual

/-- **The text of a value holds its tree.** -/
theorem spells : ∀ v : Value, OfTree v.chars v.tree
  | .null => .null
  | .bool true => .true
  | .bool false => .false
  | .number n => n.spells
  | .string s => .string (ofString_stringChars s)
  | .array [] => .noItems (s := []) (by decide)
  | .array (v :: vs) => by
      obtain ⟨s, hs, h⟩ := spells_items vs (spells v)
      have harray : chars (.array (v :: vs)) = '[' :: s ++ [']'] := by
        rw [chars, List.cons_append, hs, List.cons_append]
      rw [OfTree, harray]
      exact .array h
  | .object [] => .noMembers (s := []) (by decide)
  | .object ((name, v) :: ms) => by
      obtain ⟨s, hs, h⟩ := spells_members ms (ofString_stringChars name) (spells v)
      have hobject : chars (.object ((name, v) :: ms)) = '\x7b' :: s ++ ['\x7d'] := by
        rw [chars, List.cons_append, List.cons_append, List.cons_append, ← hs]
      rw [OfTree, hobject]
      exact .object h

/-- The items behind one that was written. -/
theorem spells_items : ∀ (vs : List Value) {s : List Char} {t : Tree}, OfTree s t →
    ∃ u, s ++ itemChars vs = u ++ [']'] ∧ OfPart u (.items (t :: trees vs))
  | [], s, _, h => ⟨s, rfl, .lastItem h⟩
  | v :: vs, s, t, h => by
      obtain ⟨u, hu, hitems⟩ := spells_items vs (spells v)
      refine ⟨s ++ ',' :: u, ?_, .item h hitems⟩
      rw [itemChars, List.cons_append, hu]
      simp

/-- The members behind one that was written. -/
theorem spells_members : ∀ (ms : List (String × Value)) {k s : List Char} {name : String} {t : Tree},
    OfString k name → OfTree s t →
    ∃ u, k ++ ':' :: s ++ memberChars ms = u ++ ['\x7d'] ∧
      OfPart u (.members ((name, t) :: memberTrees ms))
  | [], k, s, _, _, hk, h => ⟨k ++ ':' :: s, rfl, lastMember_plain hk h⟩
  | (name', v) :: ms, k, s, name, t, hk, h => by
      obtain ⟨u, hu, hmembers⟩ := spells_members ms (ofString_stringChars name') (spells v)
      refine ⟨k ++ ':' :: s ++ ',' :: u, ?_, member_plain hk h hmembers⟩
      rw [memberChars, List.cons_append, List.cons_append, hu]
      simp

end

mutual

/-- **No control character stands in the text of a value**, and so it is a single line. -/
theorem visible : ∀ v : Value, Visible v.chars
  | .null => by simp [chars]
  | .bool true => by simp [chars]
  | .bool false => by simp [chars]
  | .number n => n.visible
  | .string s => (ofString_stringChars s).visible
  | .array [] => by simp [chars]
  | .array (v :: vs) => by simp [chars, visible v, visible_items vs]
  | .object [] => by simp [chars]
  | .object ((name, v) :: ms) => by
      simp [chars, (ofString_stringChars name).visible, visible v, visible_members ms]

theorem visible_items : ∀ vs : List Value, Visible (itemChars vs)
  | [] => by simp [itemChars]
  | v :: vs => by simp [itemChars, visible v, visible_items vs]

theorem visible_members : ∀ ms : List (String × Value), Visible (memberChars ms)
  | [] => by simp [memberChars]
  | (name, v) :: ms => by
      simp [memberChars, (ofString_stringChars name).visible, visible v, visible_members ms]

end

end Value

end Json

end FeatureFlags
