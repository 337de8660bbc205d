/-
**How strings may be spelled, and that every spelling is read.**

A string may be written in many ways: a character stands for itself, unless it is a quotation mark, a
backslash or a control character; eight letters after a backslash stand for characters; and any
character can be written with one escape of four hexadecimal digits, or with two that form a surrogate
pair.  The relations below say which texts spell a string, without regard to how such a text is read.
The automaton then passes over each spelling, whether the string is read or skipped, and when it is read
its content is the string.

Main definitions:

* `Json.Spelling.OfChar`, `Json.Spelling.OfChars` — **the spellings of characters inside of a string**;
* `Json.Spelling.OfString` — those of a string with its marks;
* `Json.Spelling.Skipped` — characters that are skipped as the inside of a string;
* `Json.Scan.Passes` — the automaton goes over some bytes from one state to another.

Main results:

* `Json.Scan.passes_spelling` — the automaton goes over every spelling;
* `Json.readString_of_spelling`, `Json.skipped_of_spelling` — **every spelling of a string is read as
  this string, and skipped**.
-/
import FeatureFlags.Json.Lexical
import FeatureFlags.Proofs.Utf8

set_option autoImplicit false

namespace FeatureFlags.Json

/-! ### Spellings -/

namespace Spelling

/-- A hexadecimal digit of this value, in either case. -/
def HexDigit (c : Char) (n : Nat) : Prop := n < 16 ∧ (c = n.digitChar ∨ c = n.digitChar.toUpper)

/-- Four hexadecimal digits of this value. -/
inductive FourDigits : List Char → Nat → Prop
  | of {a b c d : Char} {w x y z : Nat} : HexDigit a w → HexDigit b x → HexDigit c y → HexDigit d z →
      FourDigits [a, b, c, d] (((w * 16 + x) * 16 + y) * 16 + z)

/-- The letters after a backslash, and the characters that they stand for. -/
def shortEscapes : List (Char × Char) :=
  [('"', '"'), ('\\', '\\'), ('/', '/'), ('b', '\x08'), ('f', '\x0C'), ('n', '\n'), ('r', '\r'),
    ('t', '\t')]

/-- A character that may stand for itself: no control character and no mark. -/
def Plain (c : Char) : Prop := 0x20 ≤ c.toNat ∧ c ≠ '"' ∧ c ≠ '\\'

instance : DecidablePred Plain := fun c =>
  inferInstanceAs (Decidable (0x20 ≤ c.toNat ∧ c ≠ '"' ∧ c ≠ '\\'))

/-- The spellings of a character inside of a string. -/
inductive OfChar : List Char → Char → Prop
  | plain {c : Char} : Plain c → OfChar [c] c
  | short {l c : Char} : (l, c) ∈ shortEscapes → OfChar ['\\', l] c
  | unit {ds : List Char} {n : Nat} : FourDigits ds n → ¬(0xD800 ≤ n ∧ n ≤ 0xDFFF) →
      OfChar ('\\' :: 'u' :: ds) (Char.ofNat n)
  | pair {ds es : List Char} {m n : Nat} : FourDigits ds m → FourDigits es n →
      0xD800 ≤ m → m ≤ 0xDBFF → 0xDC00 ≤ n → n ≤ 0xDFFF →
      OfChar ('\\' :: 'u' :: ds ++ '\\' :: 'u' :: es)
        (Char.ofNat ((m - 0xD800) * 0x400 + (n - 0xDC00) + 0x10000))

/-- The spellings of a list of characters inside of a string. -/
inductive OfChars : List Char → List Char → Prop
  | nil : OfChars [] []
  | cons {s ss : List Char} {c : Char} {cs : List Char} : OfChar s c → OfChars ss cs →
      OfChars (s ++ ss) (c :: cs)

/-- The spellings of a string, with its marks. -/
inductive OfString : List Char → String → Prop
  | of {ss : List Char} {v : String} : OfChars ss v.toList → OfString ('"' :: ss ++ ['"']) v

/-- Blanks may stand before and after every word. -/
def Blanks (s : List Char) : Prop := ∀ c ∈ s, c = ' ' ∨ c = '\t' ∨ c = '\n' ∨ c = '\r'

instance : DecidablePred Blanks := fun s =>
  List.decidableBAll (fun c => c = ' ' ∨ c = '\t' ∨ c = '\n' ∨ c = '\r') s

/-- Characters that may stand for themselves spell themselves. -/
theorem OfChars.plain {cs : List Char} (h : cs.all fun c => Plain c) : OfChars cs cs := by
  induction cs with
  | nil => exact .nil
  | cons c cs ih =>
      rw [List.all_cons, Bool.and_eq_true, decide_eq_true_iff] at h
      exact .cons (.plain h.1) (ih h.2)

end Spelling

/-! ### Runs of the automaton -/

namespace Scan

/-- From one state the automaton goes over some bytes to another state, and these bytes are added to the
content. -/
def Passes (strict : Bool) (s : State) (bytes : List UInt8) (t : State) (content : List UInt8) :
    Prop :=
  ∀ offset rest, run strict s offset (bytes ++ rest) =
    match run strict t (offset + bytes.length) rest with
    | .ok (more, c) => .ok (content ++ more, c)
    | .error f => .error f

variable {strict : Bool} {s t u : State} {content more : List UInt8}

namespace Passes

theorem refl (strict : Bool) (s : State) : Passes strict s [] s [] := by
  intro offset rest
  rw [List.nil_append, List.length_nil, Nat.add_zero]
  cases run strict s offset rest with
  | error f => rfl
  | ok r => rfl

/-- One byte that does not end the string. -/
theorem of_step {b : UInt8} (h : step strict s b = .more t content) :
    Passes strict s [b] t content := by
  intro offset rest
  rw [List.singleton_append, run, h]
  rfl

theorem trans {bytes bytes' : List UInt8} (h : Passes strict s bytes t content)
    (h' : Passes strict t bytes' u more) :
    Passes strict s (bytes ++ bytes') u (content ++ more) := by
  intro offset rest
  rw [List.append_assoc, h, h', List.length_append, Nat.add_assoc]
  cases run strict u (offset + (bytes.length + bytes'.length)) rest with
  | error f => rfl
  | ok r => exact congrArg (fun l => Except.ok (l, r.2)) (List.append_assoc ..).symm

theorem cons {b : UInt8} {bytes : List UInt8} (h : step strict s b = .more t content)
    (h' : Passes strict t bytes u more) : Passes strict s (b :: bytes) u (content ++ more) :=
  (of_step h).trans h'

end Passes

/-- Bytes that are neither control characters nor marks stand for themselves. -/
theorem passes_plain {bytes : List UInt8}
    (h : ∀ b ∈ bytes, 0x20 ≤ b.toNat ∧ b ≠ 0x22 ∧ b ≠ 0x5C) :
    Passes strict .plain bytes .plain bytes := by
  induction bytes with
  | nil => exact Passes.refl strict .plain
  | cons b bytes ih =>
      obtain ⟨hlow, hquote, hslash⟩ := h b (List.mem_cons_self ..)
      have hstep : step strict .plain b = .more .plain [b] := by
        rw [step, if_neg hquote, if_neg hslash, if_neg]
        rw [UInt8.lt_iff_toNat_lt]
        exact Nat.not_lt.2 hlow
      exact Passes.cons hstep (ih fun d hd => h d (List.mem_cons_of_mem _ hd))

/-- The byte of a hexadecimal digit. -/
theorem hexDigit?_of_hexDigit {c : Char} {n : Nat} (h : Spelling.HexDigit c n) :
    ∃ b, String.utf8EncodeChar c = [b] ∧ hexDigit? b = some n := by
  obtain ⟨hn, hc⟩ := h
  have hlower : ∀ n < 16, String.utf8EncodeChar n.digitChar = [UInt8.ofNat n.digitChar.toNat] ∧
      hexDigit? (UInt8.ofNat n.digitChar.toNat) = some n := by decide
  have hupper : ∀ n < 16, String.utf8EncodeChar n.digitChar.toUpper =
      [UInt8.ofNat n.digitChar.toUpper.toNat] ∧
      hexDigit? (UInt8.ofNat n.digitChar.toUpper.toNat) = some n := by decide
  rcases hc with rfl | rfl
  · exact ⟨_, hlower n hn⟩
  · exact ⟨_, hupper n hn⟩

/-- A hexadecimal digit that is not the last of its group. -/
theorem passes_digit {lead : Option Nat} {c : Char} {n : Nat} (due value : Nat)
    (h : Spelling.HexDigit c n) :
    Passes strict (.hex lead (due + 2) (some value)) (String.utf8EncodeChar c)
      (.hex lead (due + 1) (some (value * 16 + n))) [] := by
  obtain ⟨b, hbytes, hb⟩ := hexDigit?_of_hexDigit h
  rw [hbytes]
  refine Passes.of_step ?_
  simp [step, hb]

/-- The last hexadecimal digit of a group does what the group does. -/
theorem passes_lastDigit {lead : Option Nat} {c : Char} {n value : Nat}
    (h : Spelling.HexDigit c n) (hunit : unit strict lead (value * 16 + n) = .more t content) :
    Passes strict (.hex lead 1 (some value)) (String.utf8EncodeChar c) t content := by
  obtain ⟨b, hbytes, hb⟩ := hexDigit?_of_hexDigit h
  rw [hbytes]
  refine Passes.of_step ?_
  simpa [step, hb] using hunit

/-- Four hexadecimal digits do what their value does. -/
theorem passes_fourDigits {lead : Option Nat} {ds : List Char} {n : Nat}
    (h : Spelling.FourDigits ds n) (hunit : unit strict lead n = .more t content) :
    Passes strict (.hex lead 4 (some 0)) (Utf8.encodeChars ds) t content := by
  obtain ⟨ha, hb, hc, hd⟩ := h
  have ha : Passes strict (.hex lead 4 (some 0)) _ (.hex lead 3 _) [] := passes_digit 2 0 ha
  rw [Nat.zero_mul, Nat.zero_add] at ha
  simp only [Utf8.encodeChars_cons]
  exact ha.trans ((passes_digit 1 _ hb).trans ((passes_digit 0 _ hc).trans
    (by simpa [Utf8.encodeChars] using passes_lastDigit hd hunit)))

theorem step_backslash (strict : Bool) : step strict .plain 0x5C = .more .escape [] := rfl

theorem step_numbered (strict : Bool) : step strict .escape 0x75 = .more (.hex none 4 (some 0)) [] := rfl

/-- An escape by number. -/
theorem passes_escape {ds : List Char} {n : Nat} (h : Spelling.FourDigits ds n)
    (hunit : unit strict none n = .more t content) :
    Passes strict .plain (Utf8.encodeChars ('\\' :: 'u' :: ds)) t content :=
  Passes.cons (step_backslash strict) (Passes.cons (step_numbered strict) (passes_fourDigits h hunit))

/-- The second escape of a surrogate pair. -/
theorem passes_trailing {lead : Nat} {ds : List Char} {n : Nat} (h : Spelling.FourDigits ds n)
    (hunit : unit strict (some lead) n = .more t content) :
    Passes strict (.pairBackslash lead) (Utf8.encodeChars ('\\' :: 'u' :: ds)) t content := by
  have hslash : step strict (.pairBackslash lead) 0x5C = .more (.pairLetter lead) [] := rfl
  have hletter : step strict (.pairLetter lead) 0x75 = .more (.hex (some lead) 4 (some 0)) [] := rfl
  exact Passes.cons hslash (Passes.cons hletter (passes_fourDigits h hunit))

/-! ### A character -/

/-- A character below `0x80` other than a mark or a control character, and every other one, is written
in bytes that stand for themselves. -/
theorem plain_bytes {c : Char} (h : Spelling.Plain c) :
    ∀ b ∈ String.utf8EncodeChar c, 0x20 ≤ b.toNat ∧ b ≠ 0x22 ∧ b ≠ 0x5C := by
  obtain ⟨hlow, hquote, hslash⟩ := h
  intro b hb
  -- the marks take one byte each, and this byte stands in the form of no other character
  refine ⟨?_, ?_, ?_⟩
  · by_cases hc : c.toNat ≤ 0x7F
    · rw [Utf8.encodeChar_of_le hc, List.mem_singleton] at hb
      rw [hb, Utf8.toNat_ofNat (by omega)]
      exact hlow
    · have := Utf8.le_of_mem_encodeChar (by omega) hb
      omega
  · rintro rfl
    exact hquote ((Utf8.mem_encodeChar_iff (a := '"') (by decide) c).1 hb)
  · rintro rfl
    exact hslash ((Utf8.mem_encodeChar_iff (a := '\\') (by decide) c).1 hb)

/-- The letter of a short escape. -/
theorem passes_short {l c : Char} (h : (l, c) ∈ Spelling.shortEscapes) :
    Passes strict .plain (Utf8.encodeChars ['\\', l]) .plain (String.utf8EncodeChar c) := by
  simp only [Spelling.shortEscapes, List.mem_cons, Prod.mk.injEq, List.not_mem_nil, or_false] at h
  rcases h with ⟨rfl, rfl⟩ | ⟨rfl, rfl⟩ | ⟨rfl, rfl⟩ | ⟨rfl, rfl⟩ | ⟨rfl, rfl⟩ | ⟨rfl, rfl⟩ |
    ⟨rfl, rfl⟩ | ⟨rfl, rfl⟩
  all_goals exact Passes.cons (step_backslash strict) (Passes.of_step rfl)

theorem unit_of_not_surrogate {n : Nat} (h : ¬(0xD800 ≤ n ∧ n ≤ 0xDFFF)) :
    unit true none n = .more .plain (codePoint n) := by
  simp only [unit]
  rw [if_neg (by decide), if_neg (by omega), if_neg (by omega)]

/-- **The automaton goes over every spelling of a character**, and a strict one adds the character. -/
theorem passes_spelling {s : List Char} {c : Char} (h : Spelling.OfChar s c) :
    Passes true .plain (Utf8.encodeChars s) .plain (String.utf8EncodeChar c) ∧
      ∃ content, Passes false .plain (Utf8.encodeChars s) .plain content := by
  have hsingle (c : Char) : Utf8.encodeChars [c] = String.utf8EncodeChar c := List.append_nil _
  cases h with
  | plain h =>
      have hbytes := plain_bytes h
      rw [hsingle]
      exact ⟨passes_plain hbytes, _, passes_plain hbytes⟩
  | short hl => exact ⟨passes_short hl, _, passes_short hl⟩
  | @unit ds n hds hn =>
      refine ⟨?_, _, passes_escape hds rfl⟩
      have hunit := unit_of_not_surrogate hn
      rw [codePoint, hsingle] at hunit
      exact passes_escape hds hunit
  | @pair ds es m n hds hes hm hm' hn hn' =>
      have hlead : unit true none m = .more (.pairBackslash m) [] := by
        simp only [unit]
        rw [if_neg (by decide), if_neg (by omega), if_pos ⟨hm, hm'⟩]
      have htrail : unit true (some m) n =
          .more .plain (codePoint ((m - 0xD800) * 0x400 + (n - 0xDC00) + 0x10000)) := by
        simp only [unit]
        rw [if_neg (by decide), if_pos ⟨hn, hn'⟩]
      rw [codePoint, hsingle] at htrail
      have hread := (passes_escape hds hlead).trans (passes_trailing hes htrail)
      rw [List.nil_append] at hread
      rw [Utf8.encodeChars_append]
      -- the automaton that skips knows no pairs: to it these are two escapes, one after the other
      exact ⟨hread, _, (passes_escape hds rfl).trans (passes_escape hes rfl)⟩

/-- The automaton goes over every spelling of some characters. -/
theorem passes_spellings {ss : List Char} {cs : List Char} (h : Spelling.OfChars ss cs) :
    Passes true .plain (Utf8.encodeChars ss) .plain (Utf8.encodeChars cs) ∧
      ∃ content, Passes false .plain (Utf8.encodeChars ss) .plain content := by
  induction h with
  | nil => exact ⟨Passes.refl true .plain, _, Passes.refl false .plain⟩
  | cons hc _ ih =>
      obtain ⟨hread, _, hskip⟩ := passes_spelling hc
      obtain ⟨ihread, _, ihskip⟩ := ih
      rw [Utf8.encodeChars_append, Utf8.encodeChars_cons]
      exact ⟨hread.trans ihread, _, hskip.trans ihskip⟩

end Scan

/-! ### Strings -/

/-- Some characters are skipped as the inside of a string, wherever they stand. -/
def Spelling.Skipped (ss : List Char) : Prop :=
  ∀ (offset : Nat) (rest : List UInt8), skipString ⟨offset, Utf8.encodeChars ss ++ 0x22 :: rest⟩ =
    .ok ⟨offset + (Utf8.encodeChars ss).length + 1, rest⟩

/-- What the automaton goes over is skipped. -/
theorem Spelling.Skipped.of_passes {ss : List Char} {content : List UInt8}
    (h : Scan.Passes false .plain (Utf8.encodeChars ss) .plain content) : Skipped ss := by
  intro offset rest
  rw [skipString, h]
  rfl

section

variable {ss : List Char} {v : String} (offset : Nat) (rest : List UInt8)

/-- **Every spelling of a string is skipped.** -/
theorem skipped_of_spelling (h : Spelling.OfChars ss v.toList) : Spelling.Skipped ss := by
  obtain ⟨-, content, hskip⟩ := Scan.passes_spellings h
  exact .of_passes hskip

/-- **Every spelling of a string is read as this string**, with a backslash taken for a sign that an
escape was needed. -/
theorem readString_of_spelling (h : Spelling.OfChars ss v.toList) :
    readString ⟨offset, Utf8.encodeChars ss ++ 0x22 :: rest⟩ =
      .ok (⟨v, '\\' ∈ ss⟩, ⟨offset + (Utf8.encodeChars ss).length + 1, rest⟩) := by
  obtain ⟨hread, -⟩ := Scan.passes_spellings h
  have hrun : Scan.run true .plain offset (Utf8.encodeChars ss ++ 0x22 :: rest) =
      .ok (Utf8.encodeChars v.toList, ⟨offset + (Utf8.encodeChars ss).length + 1, rest⟩) := by
    rw [hread, Scan.run]
    simp [Scan.step]
  have hlength : offset + (Utf8.encodeChars ss).length + 1 - offset - 1 =
      (Utf8.encodeChars ss).length := by omega
  have hescaped : (Utf8.encodeChars ss).contains 0x5C = decide ('\\' ∈ ss) := by
    rw [Bool.eq_iff_iff, List.contains_iff_mem, decide_eq_true_iff]
    exact Utf8.mem_encodeChars_iff (a := '\\') (by decide) ss
  simp only [readString, hrun, Utf8.decode?_encodeChars, String.ofList_toList, hlength,
    List.take_left, hescaped]

end

end FeatureFlags.Json
