/-
**Characters survive the way through bytes.**

The bytes of a character are found again at the head of any list of bytes that begins with them, so a
text is split off whole and the bytes of a text decode to this text.  Nothing else decodes: a form of one
to four bytes is the form of the character that it is read as.  Of the characters that take one byte, none
shows up inside the bytes of another: every byte of a longer form is at least `0x80`.

Main results:

* `Utf8.split_encodeChars_append` — **the characters of a beginning are split off as they are**;
* `Utf8.decode?_encodeChars` — the bytes of a text decode to it;
* `Utf8.decode?_eq_some_iff` — only the bytes of a text decode, and to this text;
* `Utf8.mem_encodeChars_iff` — a byte below `0x80` occurs exactly if its character does.
-/
import FeatureFlags.Text.Utf8

set_option autoImplicit false

namespace FeatureFlags.Utf8

/-! ### The forms of one to four bytes -/

theorem toNat_ofNat {n : Nat} (h : n < 256) : (UInt8.ofNat n).toNat = n := by
  rw [UInt8.toNat_ofNat']
  exact Nat.mod_eq_of_lt h

/-- A continuation byte carries the six bits that were put into it. -/
theorem continuation?_ofNat (n : Nat) :
    continuation? (UInt8.ofNat (n % 0x40 + 0x80)) = some (n % 0x40) := by
  unfold continuation?
  rw [toNat_ofNat (by omega), if_pos (by omega)]
  exact congrArg some (by omega)

/-- A greater leading byte begins no form of two bytes. -/
theorem two?_eq_none {a : UInt8} (h : 0xDF < a.toNat) (b : UInt8) : two? a b = none := by
  unfold two?
  cases continuation? b with
  | none => rfl
  | some y => exact if_neg (by omega)

/-- A greater leading byte begins no form of three bytes. -/
theorem three?_eq_none {a : UInt8} (h : 0xEF < a.toNat) (b c : UInt8) : three? a b c = none := by
  unfold three?
  cases continuation? b with
  | none => rfl
  | some y =>
      cases continuation? c with
      | none => rfl
      | some z => exact if_neg (by omega)

theorem encodeChar_eq (c : Char) :
    String.utf8EncodeChar c =
      if c.toNat ≤ 0x7F then [UInt8.ofNat c.toNat]
      else if c.toNat ≤ 0x7FF then
        [UInt8.ofNat (c.toNat / 64 % 0x20 + 0xC0), UInt8.ofNat (c.toNat % 0x40 + 0x80)]
      else if c.toNat ≤ 0xFFFF then
        [UInt8.ofNat (c.toNat / 4096 % 0x10 + 0xE0), UInt8.ofNat (c.toNat / 64 % 0x40 + 0x80),
          UInt8.ofNat (c.toNat % 0x40 + 0x80)]
      else
        [UInt8.ofNat (c.toNat / 262144 % 0x08 + 0xF0), UInt8.ofNat (c.toNat / 4096 % 0x40 + 0x80),
          UInt8.ofNat (c.toNat / 64 % 0x40 + 0x80), UInt8.ofNat (c.toNat % 0x40 + 0x80)] := rfl

section

variable {c : Char} (s : List UInt8)

theorem encodeChar_of_le (h : c.toNat ≤ 0x7F) :
    String.utf8EncodeChar c = [UInt8.ofNat c.toNat] := if_pos h

theorem split_one (h : c.toNat ≤ 0x7F) :
    split (String.utf8EncodeChar c ++ s) = push c (split s) := by
  have hlead : (UInt8.ofNat c.toNat).toNat = c.toNat := toNat_ofNat (by omega)
  rw [encodeChar_of_le h, List.singleton_append, split.eq_def]
  simp only [hlead, Char.ofNat_toNat]
  rw [if_pos (by omega)]

theorem split_two (h1 : 0x7F < c.toNat) (h2 : c.toNat ≤ 0x7FF) :
    split (String.utf8EncodeChar c ++ s) = push c (split s) := by
  have hlead : (UInt8.ofNat (c.toNat / 64 % 0x20 + 0xC0)).toNat = c.toNat / 64 % 0x20 + 0xC0 :=
    toNat_ofNat (by omega)
  have hvalue : (c.toNat / 64 % 0x20 + 0xC0 - 0xC0) * 64 + c.toNat % 0x40 = c.toNat := by omega
  rw [encodeChar_eq, if_neg (by omega), if_pos h2, split.eq_def]
  simp only [List.cons_append, List.nil_append, hlead, two?, continuation?_ofNat, Option.bind_eq_bind,
    Option.bind_some, hvalue, Char.ofNat_toNat]
  rw [if_neg (by omega), if_pos (by omega)]

theorem split_three (h2 : 0x7FF < c.toNat) (h3 : c.toNat ≤ 0xFFFF) :
    split (String.utf8EncodeChar c ++ s) = push c (split s) := by
  have hlead : (UInt8.ofNat (c.toNat / 4096 % 0x10 + 0xE0)).toNat = c.toNat / 4096 % 0x10 + 0xE0 :=
    toNat_ofNat (by omega)
  have htwo := two?_eq_none (a := UInt8.ofNat (c.toNat / 4096 % 0x10 + 0xE0)) (by omega)
  have hvalue : (c.toNat / 4096 % 0x10 + 0xE0 - 0xE0) * 4096 + c.toNat / 64 % 0x40 * 64 +
      c.toNat % 0x40 = c.toNat := by omega
  -- there is no code point for a surrogate, so the one found is not among them
  have hvalid : c.toNat < 0xD800 ∨ (0xDFFF < c.toNat ∧ c.toNat < 0x110000) := c.valid
  rw [encodeChar_eq, if_neg (by omega), if_neg (by omega), if_pos h3, split.eq_def]
  simp only [List.cons_append, List.nil_append, hlead, htwo, three?, continuation?_ofNat,
    Option.bind_eq_bind, Option.bind_some, hvalue, Char.ofNat_toNat]
  rw [if_neg (by omega), if_pos (by omega)]

theorem split_four (h3 : 0xFFFF < c.toNat) :
    split (String.utf8EncodeChar c ++ s) = push c (split s) := by
  have hvalid : c.toNat < 0xD800 ∨ (0xDFFF < c.toNat ∧ c.toNat < 0x110000) := c.valid
  have hlead : (UInt8.ofNat (c.toNat / 262144 % 0x08 + 0xF0)).toNat =
      c.toNat / 262144 % 0x08 + 0xF0 := toNat_ofNat (by omega)
  have htwo := two?_eq_none (a := UInt8.ofNat (c.toNat / 262144 % 0x08 + 0xF0)) (by omega)
  have hthree := three?_eq_none (a := UInt8.ofNat (c.toNat / 262144 % 0x08 + 0xF0)) (by omega)
  have hvalue : (c.toNat / 262144 % 0x08 + 0xF0 - 0xF0) * 262144 + c.toNat / 4096 % 0x40 * 4096 +
      c.toNat / 64 % 0x40 * 64 + c.toNat % 0x40 = c.toNat := by omega
  rw [encodeChar_eq, if_neg (by omega), if_neg (by omega), if_neg (by omega), split.eq_def]
  simp only [List.cons_append, List.nil_append, hlead, htwo, hthree, four?, continuation?_ofNat,
    Option.bind_eq_bind, Option.bind_some, hvalue, Char.ofNat_toNat]
  rw [if_neg (by omega), if_pos (by omega)]

end

/-! ### Texts -/

/-- The character whose bytes stand at the head is split off. -/
theorem split_encodeChar_append (c : Char) (s : List UInt8) :
    split (String.utf8EncodeChar c ++ s) = push c (split s) := by
  by_cases h1 : c.toNat ≤ 0x7F
  · exact split_one s h1
  · by_cases h2 : c.toNat ≤ 0x7FF
    · exact split_two s (by omega) h2
    · by_cases h3 : c.toNat ≤ 0xFFFF
      · exact split_three s (by omega) h3
      · exact split_four s (by omega)

theorem encodeChars_cons (c : Char) (cs : List Char) :
    encodeChars (c :: cs) = String.utf8EncodeChar c ++ encodeChars cs := List.flatMap_cons

theorem encodeChars_append (cs ds : List Char) :
    encodeChars (cs ++ ds) = encodeChars cs ++ encodeChars ds := List.flatMap_append

/-- A character takes at least one byte. -/
theorem length_le_encodeChars (cs : List Char) : cs.length ≤ (encodeChars cs).length := by
  induction cs with
  | nil => exact Nat.le_refl 0
  | cons c cs ih =>
      have hpos : 0 < (String.utf8EncodeChar c).length := by
        rw [String.length_utf8EncodeChar]
        exact c.utf8Size_pos
      rw [encodeChars_cons, List.length_append, List.length_cons]
      omega

/-- **The characters whose bytes stand at the head are split off as they are.** -/
theorem split_encodeChars_append (cs : List Char) (s : List UInt8) :
    split (encodeChars cs ++ s) = (cs ++ (split s).1, (split s).2) := by
  induction cs with
  | nil => rfl
  | cons c cs ih => rw [encodeChars_cons, List.append_assoc, split_encodeChar_append, ih]; rfl

theorem decode?_encodeChars (cs : List Char) :
    decode? (encodeChars cs) = some (String.ofList cs) := by
  have hsplit : split (encodeChars cs) = (cs, []) := by
    simpa [split.eq_def []] using split_encodeChars_append cs []
  rw [decode?, decodeChars?, hsplit]
  rfl

/-! ### Bytes that are those of a text -/

theorem continuation?_eq_some {b : UInt8} {n : Nat} (h : continuation? b = some n) :
    b.toNat = n + 0x80 ∧ n < 0x40 := by
  unfold continuation? at h
  split at h
  · cases h
    omega
  · cases h

/-- The code point of a character that is made of one. -/
theorem toNat_charOfNat {n : Nat} (h : n < 0xD800 ∨ 0xDFFF < n ∧ n < 0x110000) :
    (Char.ofNat n).toNat = n := by
  have hvalid : n.isValidChar := h
  unfold Char.ofNat
  rw [dif_pos hvalid]
  rfl

theorem ofNat_eq (a : UInt8) {n : Nat} (h : n = a.toNat) : UInt8.ofNat n = a := by
  rw [h, UInt8.ofNat_toNat]

theorem encodeChar_of_two? {a b : UInt8} {c : Char} (h : two? a b = some c) :
    String.utf8EncodeChar c = [a, b] := by
  obtain ⟨y, hy, h⟩ := Option.bind_eq_some_iff.1 h
  obtain ⟨hb, hy⟩ := continuation?_eq_some hy
  obtain ⟨hlead, hchar⟩ := Option.ite_none_right_eq_some.1 h
  rw [← Option.some.inj hchar, encodeChar_eq, toNat_charOfNat (by omega), if_neg (by omega),
    if_pos (by omega), ofNat_eq a (by omega), ofNat_eq b (by omega)]

theorem encodeChar_of_three? {a b c : UInt8} {d : Char} (h : three? a b c = some d) :
    String.utf8EncodeChar d = [a, b, c] := by
  obtain ⟨y, hy, h⟩ := Option.bind_eq_some_iff.1 h
  obtain ⟨z, hz, h⟩ := Option.bind_eq_some_iff.1 h
  obtain ⟨hb, hy⟩ := continuation?_eq_some hy
  obtain ⟨hc, hz⟩ := continuation?_eq_some hz
  obtain ⟨hlead, hchar⟩ := Option.ite_none_right_eq_some.1 h
  rw [← Option.some.inj hchar, encodeChar_eq, toNat_charOfNat (by omega), if_neg (by omega),
    if_neg (by omega), if_pos (by omega), ofNat_eq a (by omega), ofNat_eq b (by omega),
    ofNat_eq c (by omega)]

theorem encodeChar_of_four? {a b c d : UInt8} {e : Char} (h : four? a b c d = some e) :
    String.utf8EncodeChar e = [a, b, c, d] := by
  obtain ⟨x, hx, h⟩ := Option.bind_eq_some_iff.1 h
  obtain ⟨y, hy, h⟩ := Option.bind_eq_some_iff.1 h
  obtain ⟨z, hz, h⟩ := Option.bind_eq_some_iff.1 h
  obtain ⟨hb, hx⟩ := continuation?_eq_some hx
  obtain ⟨hc, hy⟩ := continuation?_eq_some hy
  obtain ⟨hd, hz⟩ := continuation?_eq_some hz
  obtain ⟨hlead, hchar⟩ := Option.ite_none_right_eq_some.1 h
  rw [← Option.some.inj hchar, encodeChar_eq, toNat_charOfNat (by omega), if_neg (by omega),
    if_neg (by omega), if_neg (by omega), ofNat_eq a (by omega), ofNat_eq b (by omega),
    ofNat_eq c (by omega), ofNat_eq d (by omega)]

/-- **Nothing is lost when characters are split off**: their bytes and the rest are what there was. -/
theorem encodeChars_split (bytes : List UInt8) :
    encodeChars (split bytes).1 ++ (split bytes).2 = bytes := by
  fun_induction split bytes with
  | case1 => rfl
  | case2 a s ha ih =>
      have hone : String.utf8EncodeChar (Char.ofNat a.toNat) = [a] := by
        rw [encodeChar_eq, toNat_charOfNat (by omega), if_pos (by omega), ofNat_eq a rfl]
      rw [push, encodeChars_cons, hone, List.append_assoc, ih]
      rfl
  | case4 a ha b t c hc ih =>
      rw [push, encodeChars_cons, encodeChar_of_two? hc, List.append_assoc, ih]
      rfl
  | case6 a ha b c u _ d hd ih =>
      rw [push, encodeChars_cons, encodeChar_of_three? hd, List.append_assoc, ih]
      rfl
  | case8 a ha b c d v _ _ e he ih =>
      rw [push, encodeChars_cons, encodeChar_of_four? he, List.append_assoc, ih]
      rfl
  | case3 | case5 | case7 | case9 => rfl

/-- **Bytes are well formed exactly if they are those of a text**, and they are read as this text. -/
theorem decode?_eq_some_iff {bytes : List UInt8} {s : String} :
    decode? bytes = some s ↔ bytes = encode s := by
  constructor
  · intro h
    obtain ⟨cs, hcs, rfl⟩ := Option.map_eq_some_iff.1 h
    have hall := encodeChars_split bytes
    rw [decodeChars?] at hcs
    split at hcs
    · next hsplit =>
        cases hcs
        rw [hsplit, List.append_nil] at hall
        rw [encode, String.toList_ofList, hall]
    · cases hcs
  · rintro rfl
    rw [encode, decode?_encodeChars, String.ofList_toList]

/-! ### Characters of one byte -/

/-- Every byte of a longer form is at least `0x80`. -/
theorem le_of_mem_encodeChar {c : Char} (h : 0x7F < c.toNat) {b : UInt8}
    (hb : b ∈ String.utf8EncodeChar c) : 0x80 ≤ b.toNat := by
  -- leading bytes of longer forms start at `0xC0`, continuation bytes at `0x80`
  rw [encodeChar_eq, if_neg (by omega)] at hb
  split at hb
  · simp only [List.mem_cons, List.not_mem_nil, or_false] at hb
    rcases hb with rfl | rfl <;> rw [toNat_ofNat (by omega)] <;> omega
  · split at hb
    · simp only [List.mem_cons, List.not_mem_nil, or_false] at hb
      rcases hb with rfl | rfl | rfl <;> rw [toNat_ofNat (by omega)] <;> omega
    · simp only [List.mem_cons, List.not_mem_nil, or_false] at hb
      rcases hb with rfl | rfl | rfl | rfl <;> rw [toNat_ofNat (by omega)] <;> omega

theorem mem_encodeChar_iff {a : Char} (ha : a.toNat ≤ 0x7F) (c : Char) :
    UInt8.ofNat a.toNat ∈ String.utf8EncodeChar c ↔ c = a := by
  have hlead : (UInt8.ofNat a.toNat).toNat = a.toNat := toNat_ofNat (by omega)
  by_cases hc : c.toNat ≤ 0x7F
  · have hother : (UInt8.ofNat c.toNat).toNat = c.toNat := toNat_ofNat (by omega)
    rw [encodeChar_of_le hc, List.mem_singleton, ← UInt8.toNat_inj, hlead, hother]
    exact ⟨fun h => Char.toNat_inj.1 h.symm, fun h => by rw [h]⟩
  · refine iff_of_false (fun h => ?_) (by rintro rfl; exact hc ha)
    have := le_of_mem_encodeChar (by omega) h
    omega

/-- **A byte below `0x80` occurs exactly if its character does.** -/
theorem mem_encodeChars_iff {a : Char} (ha : a.toNat ≤ 0x7F) (cs : List Char) :
    UInt8.ofNat a.toNat ∈ encodeChars cs ↔ a ∈ cs := by
  rw [encodeChars, List.mem_flatMap]
  constructor
  · rintro ⟨c, hc, hmem⟩
    rwa [← (mem_encodeChar_iff ha c).1 hmem]
  · exact fun h => ⟨a, h, (mem_encodeChar_iff ha a).2 rfl⟩

end FeatureFlags.Utf8
