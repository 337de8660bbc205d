/-
**Every spelling of a number is cut into its digits.**

The digits of a number stand in a text up to a byte that is none.  So a number whose text is followed by
neither a digit nor a letter nor a point is cut into the digits that it was spelled with, sign, whole part,
fraction and exponent each for itself.

Main definitions:

* `Json.Delimited` — what follows a value.

Main results:

* `Json.spanDigits_spelling`, `Json.someDigits_spelling` — runs of digits;
* `Json.scanNumeral_spelling` — **every spelling of a number is cut into its digits.**
-/
import FeatureFlags.Proofs.Grammar

set_option autoImplicit false

namespace FeatureFlags.Json

open Spelling

/-- A value is followed by nothing, a blank, a comma or a closing bracket. -/
def Delimited (rest : List UInt8) : Prop :=
  ∀ b ∈ rest.head?, b = 0x20 ∨ b = 0x09 ∨ b = 0x0A ∨ b = 0x0D ∨ b = 0x2C ∨ b = 0x5D ∨ b = 0x7D

/-- No digit stands next. -/
def NoDigit (rest : List UInt8) : Prop := ∀ b ∈ rest.head?, digit? b = none

theorem Delimited.noDigit {rest : List UInt8} (h : Delimited rest) : NoDigit rest := by
  intro b hb
  rcases h b hb with rfl | rfl | rfl | rfl | rfl | rfl | rfl <;> decide

theorem Delimited.ne_point {rest : List UInt8} (h : Delimited rest) : ∀ b ∈ rest.head?, b ≠ 0x2E := by
  intro b hb
  rcases h b hb with rfl | rfl | rfl | rfl | rfl | rfl | rfl <;> decide

theorem Delimited.ne_letter {rest : List UInt8} (h : Delimited rest) :
    ∀ b ∈ rest.head?, b ≠ 0x65 ∧ b ≠ 0x45 := by
  intro b hb
  rcases h b hb with rfl | rfl | rfl | rfl | rfl | rfl | rfl <;> decide

/-- A comma or a closing bracket comes next. -/
theorem Delimited.cons {b : UInt8} (h : b = 0x2C ∨ b = 0x5D ∨ b = 0x7D) (rest : List UInt8) :
    Delimited (b :: rest) := by
  rintro c ⟨⟩
  exact .inr (.inr (.inr (.inr h)))

/-- The byte of a decimal digit. -/
theorem encodeChar_digitChar {d : Nat} (hd : d < 10) :
    String.utf8EncodeChar d.digitChar = [UInt8.ofNat (d + 0x30)] ∧
      digit? (UInt8.ofNat (d + 0x30)) = some d := by
  revert d
  decide

/-- The bytes of digits are digits, and these digits. -/
theorem Spelling.OfDigits.bytes {s : List Char} {ds : List Nat} (h : OfDigits s ds) :
    (∀ b ∈ Utf8.encodeChars s, (digit? b).isSome = true) ∧
      (Utf8.encodeChars s).filterMap digit? = ds := by
  induction h with
  | last hd =>
      obtain ⟨hbyte, hdigit⟩ := encodeChar_digitChar hd
      rw [Utf8.encodeChars_cons, hbyte, List.singleton_append, List.forall_mem_cons,
        List.filterMap_cons_some hdigit]
      exact ⟨⟨by rw [hdigit]; rfl, fun b hb => nomatch hb⟩, rfl⟩
  | cons hd _ ih =>
      obtain ⟨hbyte, hdigit⟩ := encodeChar_digitChar hd
      rw [Utf8.encodeChars_cons, hbyte, List.singleton_append, List.forall_mem_cons,
        List.filterMap_cons_some hdigit, ih.2]
      exact ⟨⟨by rw [hdigit]; rfl, ih.1⟩, rfl⟩

section

variable {s t u : List Char} {ds : List Nat} {rest : List UInt8}

theorem spanDigits_spelling (h : OfDigits s ds) (hrest : NoDigit rest) (offset : Nat) :
    spanDigits ⟨offset, Utf8.encodeChars s ++ rest⟩ =
      (ds, ⟨offset + (Utf8.encodeChars s).length, rest⟩) := by
  obtain ⟨hall, hdigits⟩ := h.bytes
  have htake : (Utf8.encodeChars s ++ rest).takeWhile (fun b => (digit? b).isSome) =
      Utf8.encodeChars s := by
    rw [List.takeWhile_append_of_pos hall]
    cases rest with
    | nil => simp
    | cons b rest => simp [hrest b rfl]
  simp only [spanDigits, htake, hdigits, List.drop_left]

theorem someDigits_spelling (h : OfDigits s ds) (hrest : NoDigit rest) (offset : Nat) :
    someDigits ⟨offset, Utf8.encodeChars s ++ rest⟩ =
      .ok (ds, ⟨offset + (Utf8.encodeChars s).length, rest⟩) := by
  rw [someDigits, spanDigits_spelling h hrest]
  cases h <;> rfl

theorem wholeDigits_spelling (h : OfWhole s ds) (hrest : NoDigit rest) (offset : Nat) :
    wholeDigits ⟨offset, Utf8.encodeChars s ++ rest⟩ =
      .ok (ds, ⟨offset + (Utf8.encodeChars s).length, rest⟩) := by
  cases h with
  | zero =>
      rw [wholeDigits, someDigits_spelling OfDigits.zero hrest]
      rfl
  | @digits _ d ds hd h =>
      rw [wholeDigits, someDigits_spelling h hrest]
      split
      · next heq => cases heq
      · next heq =>
          -- digits that begin with a zero would not have been a whole part
          cases heq
          exact absurd rfl hd
      · next heq =>
          cases heq
          rfl

theorem Cursor.past?_self (b : UInt8) (offset : Nat) (rest : List UInt8) :
    past? b ⟨offset, b :: rest⟩ = some ⟨offset + 1, rest⟩ := if_pos rfl

theorem Cursor.past?_eq_none {b : UInt8} {rest : List UInt8} (h : ∀ x ∈ rest.head?, x ≠ b)
    (offset : Nat) : past? b ⟨offset, rest⟩ = none := by
  cases rest with
  | nil => rfl
  | cons x rest => exact if_neg (h x rfl)

end

/-! ### The parts of a number -/

section

variable {s t u : List Char} {rest : List UInt8} (offset : Nat)

theorem Spelling.OfWhole.ofDigits {ds : List Nat} (h : OfWhole s ds) : OfDigits s ds := by
  cases h with
  | zero => exact OfDigits.zero
  | digits _ h => exact h

/-- No byte but a digit stands where digits begin. -/
theorem past?_digits {b : UInt8} (hb : digit? b = none) {ds : List Nat} (h : OfDigits s ds) :
    Cursor.past? b ⟨offset, Utf8.encodeChars s ++ rest⟩ = none := by
  refine Cursor.past?_eq_none (fun x hx => ?_) offset
  have hfirst : ∀ {d : Nat} {s : List Char}, d < 10 →
      x ∈ (Utf8.encodeChars (d.digitChar :: s) ++ rest).head? → digit? x = some d := by
    intro d s hd hx
    obtain ⟨hbyte, hdigit⟩ := encodeChar_digitChar hd
    rw [Utf8.encodeChars_cons, hbyte] at hx
    cases hx
    exact hdigit
  rintro rfl
  cases h with
  | last hd => exact nomatch hb.symm.trans (hfirst hd hx)
  | cons hd _ => exact nomatch hb.symm.trans (hfirst hd hx)

/-- After the whole part stands no digit. -/
theorem Spelling.OfFraction.noDigit {f : Option (List Nat)} (h : OfFraction s f) (hrest : NoDigit rest) :
    NoDigit (Utf8.encodeChars s ++ rest) := by
  cases h with
  | none => exact hrest
  | some _ =>
      rintro b ⟨⟩
      decide

/-- After the fraction stands neither a digit nor a point. -/
theorem Spelling.OfExponent.noDigit {e : Option (Bool × List Nat)} (h : OfExponent s e)
    (hrest : Delimited rest) :
    ∀ b ∈ (Utf8.encodeChars s ++ rest).head?, digit? b = .none ∧ b ≠ 0x2E := by
  cases h with
  | none => exact fun b hb => ⟨hrest.noDigit b hb, hrest.ne_point b hb⟩
  | unsigned he _ | plus he _ | minus he _ =>
      intro b hb
      rcases he with rfl | rfl <;>
        · cases hb
          decide

theorem fractionDigits_spelling {f : Option (List Nat)} (h : OfFraction s f)
    (hrest : ∀ b ∈ rest.head?, digit? b = none ∧ b ≠ 0x2E) :
    fractionDigits ⟨offset, Utf8.encodeChars s ++ rest⟩ =
      .ok (f, ⟨offset + (Utf8.encodeChars s).length, rest⟩) := by
  cases h with
  | none =>
      have hpast := Cursor.past?_eq_none (fun b hb => (hrest b hb).2) offset
      rw [fractionDigits]
      simp only [Utf8.encodeChars, List.flatMap_nil, List.nil_append, hpast]
      rfl
  | @some s ds h =>
      have hbytes : Utf8.encodeChars ('.' :: s) ++ rest = 0x2E :: (Utf8.encodeChars s ++ rest) := rfl
      have hlength : (Utf8.encodeChars ('.' :: s)).length = 1 + (Utf8.encodeChars s).length :=
        Nat.add_comm _ 1
      simp only [fractionDigits, hbytes, Cursor.past?_self,
        someDigits_spelling h (fun b hb => (hrest b hb).1), hlength, Nat.add_assoc]

theorem exponentSign_digits {ds : List Nat} (h : OfDigits s ds) :
    exponentSign ⟨offset, Utf8.encodeChars s ++ rest⟩ =
      (false, ⟨offset, Utf8.encodeChars s ++ rest⟩) := by
  rw [exponentSign, past?_digits offset (by decide) h, past?_digits offset (by decide) h]

/-- The letter of an exponent. -/
theorem past?_letter {e : Char} (he : e = 'e' ∨ e = 'E') (tail : List UInt8) :
    (Cursor.past? 0x65 ⟨offset, String.utf8EncodeChar e ++ tail⟩).or
      (Cursor.past? 0x45 ⟨offset, String.utf8EncodeChar e ++ tail⟩) = some ⟨offset + 1, tail⟩ := by
  rcases he with rfl | rfl <;> rfl

/-- An exponent is its sign and the digits after it. -/
theorem exponentDigits_of_sign {e : Char} (he : e = 'e' ∨ e = 'E') {negative : Bool} {mid : Nat}
    {ds : List Nat} (h : OfDigits t ds) (hrest : NoDigit rest)
    (hsign : exponentSign ⟨offset + 1, Utf8.encodeChars s ++ rest⟩ =
      (negative, ⟨mid, Utf8.encodeChars t ++ rest⟩)) :
    exponentDigits ⟨offset, Utf8.encodeChars (e :: s) ++ rest⟩ =
      .ok (some (negative, ds), ⟨mid + (Utf8.encodeChars t).length, rest⟩) := by
  have hpast := past?_letter offset he (Utf8.encodeChars s ++ rest)
  rw [exponentDigits, Utf8.encodeChars_cons, List.append_assoc, hpast]
  simp only [hsign, someDigits_spelling h hrest]

theorem length_letter {e : Char} (he : e = 'e' ∨ e = 'E') (s : List Char) :
    (Utf8.encodeChars (e :: s)).length = (Utf8.encodeChars s).length + 1 := by
  rcases he with rfl | rfl <;> rfl

theorem exponentDigits_spelling {e : Option (Bool × List Nat)} (h : OfExponent s e)
    (hrest : Delimited rest) :
    exponentDigits ⟨offset, Utf8.encodeChars s ++ rest⟩ =
      .ok (e, ⟨offset + (Utf8.encodeChars s).length, rest⟩) := by
  cases h with
  | none =>
      have hsmall := Cursor.past?_eq_none (fun b hb => (hrest.ne_letter b hb).1) offset
      have hlarge := Cursor.past?_eq_none (fun b hb => (hrest.ne_letter b hb).2) offset
      rw [exponentDigits]
      simp only [Utf8.encodeChars, List.flatMap_nil, List.nil_append, hsmall, hlarge]
      rfl
  | @unsigned c s ds hc h =>
      rw [exponentDigits_of_sign offset hc h hrest.noDigit (exponentSign_digits _ h), length_letter hc,
        Nat.add_right_comm, Nat.add_assoc]
  | @plus c s ds hc h =>
      have hsign : exponentSign ⟨offset + 1, Utf8.encodeChars ('+' :: s) ++ rest⟩ =
          (false, ⟨offset + 2, Utf8.encodeChars s ++ rest⟩) := rfl
      rw [exponentDigits_of_sign offset hc h hrest.noDigit hsign, length_letter hc, Nat.add_right_comm]
      rfl
  | @minus c s ds hc h =>
      have hsign : exponentSign ⟨offset + 1, Utf8.encodeChars ('-' :: s) ++ rest⟩ =
          (true, ⟨offset + 2, Utf8.encodeChars s ++ rest⟩) := rfl
      rw [exponentDigits_of_sign offset hc h hrest.noDigit hsign, length_letter hc, Nat.add_right_comm]
      rfl

/-- A number is its sign and the parts after it. -/
theorem scanNumeral_of_sign {c : Cursor} {negative : Bool} {mid : Nat} {whole : List Nat}
    {fraction : Option (List Nat)} {exponent : Option (Bool × List Nat)} (hw : OfWhole s whole)
    (hf : OfFraction t fraction) (he : OfExponent u exponent) (hrest : Delimited rest)
    (hsign : minusSign c = (negative, ⟨mid, Utf8.encodeChars (s ++ t ++ u) ++ rest⟩)) :
    scanNumeral c = .ok (⟨negative, whole, fraction, exponent⟩,
      ⟨mid + (Utf8.encodeChars (s ++ t ++ u)).length, rest⟩) := by
  have hafter := he.noDigit hrest
  have hwhole := wholeDigits_spelling hw (hf.noDigit fun b hb => (hafter b hb).1) mid
  rw [scanNumeral, hsign]
  simp only [Utf8.encodeChars_append, List.append_assoc, hwhole, fractionDigits_spelling _ hf hafter,
    exponentDigits_spelling _ he hrest, List.length_append, Nat.add_assoc]

/-- **Every spelling of a number is cut into its digits.** -/
theorem scanNumeral_spelling {n : Numeral} (h : OfNumeral s n) (hrest : Delimited rest) :
    scanNumeral ⟨offset, Utf8.encodeChars s ++ rest⟩ =
      .ok (n, ⟨offset + (Utf8.encodeChars s).length, rest⟩) := by
  cases h with
  | @positive s t u _ _ _ hw hf he =>
      have hsign : minusSign ⟨offset, Utf8.encodeChars (s ++ t ++ u) ++ rest⟩ =
          (false, ⟨offset, Utf8.encodeChars (s ++ t ++ u) ++ rest⟩) := by
        rw [minusSign, List.append_assoc, Utf8.encodeChars_append, List.append_assoc,
          past?_digits offset (by decide) hw.ofDigits]
      exact scanNumeral_of_sign hw hf he hrest hsign
  | @negative s t u _ _ _ hw hf he =>
      have hsign : minusSign ⟨offset, Utf8.encodeChars ('-' :: s ++ t ++ u) ++ rest⟩ =
          (true, ⟨offset + 1, Utf8.encodeChars (s ++ t ++ u) ++ rest⟩) := rfl
      rw [scanNumeral_of_sign hw hf he hrest hsign, Nat.add_assoc, Nat.add_comm 1]
      rfl

end

end FeatureFlags.Json
