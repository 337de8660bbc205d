/-
**What is found of a spelling, wherever it stands.**

The descent finds the same in a text wherever the text stands: at whatever place, under whatever bound that
is not less than its length, and whatever follows it that a value may be followed by.  What can be said of
a value is therefore put together from what can be said of its parts, and only the words, which have no
parts, need a look at the place they stand at.

Main definitions:

* `Json.Finding` — what the descent finds;
* `Json.Outline.FoundValue`, `Json.Outline.FoundItems`, `Json.Outline.FoundMembers` — **what is found of a
  value, of items or of members, wherever they stand**.

Main results:

* `Json.Outline.foundValue_null`, …, `Json.Outline.foundValue_quoted` — what is found of words;
* `Json.Outline.foundValue_array`, `Json.Outline.foundItems_cons`, … — what is found of lists;
* `Json.Outline.foundValue_object`, `Json.Outline.foundMembers_cons`, … — what is found of objects.
-/
import FeatureFlags.Proofs.Descent
import FeatureFlags.Proofs.Numerals

set_option autoImplicit false

namespace FeatureFlags.Json

open Spelling

/-- What the descent finds: a value, or the items or members between two brackets. -/
inductive Finding where
  | value (n : Node)
  | items (ns : List Node)
  | members (fs : List (Field Node))

theorem Delimited.blanks {u : List Char} {rest : List UInt8} (hu : Blanks u) (h : Delimited rest) :
    Delimited (Utf8.encodeChars u ++ rest) := by
  cases u with
  | nil => exact h
  | cons c u =>
      intro b hb
      rw [Utf8.encodeChars_cons, List.append_assoc] at hb
      rcases hu c (List.mem_cons_self ..) with rfl | rfl | rfl | rfl <;>
        · cases hb
          decide

/-- A number begins with a minus sign or a digit. -/
theorem Spelling.OfNumeral.head {s : List Char} {n : Numeral} (h : OfNumeral s n) :
    ∃ b tail, Utf8.encodeChars s = b :: tail ∧ (b = 0x2D ∨ (digit? b).isSome = true) := by
  cases h with
  | @positive s t u whole fraction exponent hw _ _ =>
      have hdigits : ∃ d s', d < 10 ∧ s = Nat.digitChar d :: s' := by
        cases hw.ofDigits with
        | last hd => exact ⟨_, _, hd, rfl⟩
        | cons hd _ => exact ⟨_, _, hd, rfl⟩
      obtain ⟨d, s', hd, rfl⟩ := hdigits
      obtain ⟨hbyte, hdigit⟩ := encodeChar_digitChar hd
      rw [List.append_assoc, List.cons_append, Utf8.encodeChars_cons, hbyte]
      exact ⟨_, _, rfl, .inr (by rw [hdigit]; rfl)⟩
  | negative _ _ _ => exact ⟨_, _, rfl, .inl rfl⟩

theorem Spelling.OfNumeral.length_pos {s : List Char} {n : Numeral} (h : OfNumeral s n) :
    0 < s.length := by
  obtain ⟨b, tail, hbytes, -⟩ := h.head
  refine List.length_pos_iff.2 ?_
  rintro rfl
  cases hbytes

namespace Outline

/-- A value with a property is found, wherever the text stands. -/
def FoundValue (s : List Char) (P : Node → Prop) : Prop :=
  ∀ (bound offset : Nat) (rest : List UInt8), s.length ≤ bound → Delimited rest →
    ∃ n mid u, value bound ⟨offset, Utf8.encodeChars s ++ rest⟩ = (n, ⟨mid, Utf8.encodeChars u ++ rest⟩) ∧
      Blanks u ∧ n.break? = none ∧ P n

/-- Items with a property are found before a bracket, wherever the text stands. -/
def FoundItems (s : List Char) (P : List Node → Prop) : Prop :=
  ∀ (bound offset : Nat) (rest : List UInt8), s.length ≤ bound → ∃ ns stop,
    ItemsAt bound ⟨offset, Utf8.encodeChars s ++ 0x5D :: rest⟩ ns stop rest ∧ P ns

/-- Members with a property are found before a brace, wherever the text stands. -/
def FoundMembers (s : List Char) (P : List (Field Node) → Prop) : Prop :=
  ∀ (bound offset : Nat) (rest : List UInt8), s.length ≤ bound → ∃ fs stop,
    MembersAt bound ⟨offset, Utf8.encodeChars s ++ 0x7D :: rest⟩ fs stop rest ∧ P fs

theorem FoundValue.imp {s : List Char} {P Q : Node → Prop} (h : FoundValue s P)
    (hPQ : ∀ n, P n → Q n) : FoundValue s Q := by
  intro bound offset rest hbound hrest
  obtain ⟨n, mid, u, hvalue, hu, hbreak, hn⟩ := h bound offset rest hbound hrest
  exact ⟨n, mid, u, hvalue, hu, hbreak, hPQ n hn⟩

/-- What is found has both of two properties that are found. -/
theorem FoundValue.and {s : List Char} {P Q : Node → Prop} (h : FoundValue s P) (h' : FoundValue s Q) :
    FoundValue s fun n => P n ∧ Q n := by
  intro bound offset rest hbound hrest
  obtain ⟨n, mid, u, hvalue, hu, hbreak, hn⟩ := h bound offset rest hbound hrest
  obtain ⟨n', mid', u', hvalue', -, -, hn'⟩ := h' bound offset rest hbound hrest
  obtain ⟨rfl, -⟩ := Prod.mk.inj (hvalue.symm.trans hvalue')
  exact ⟨n, mid, u, hvalue, hu, hbreak, hn, hn'⟩

section

variable {s t u : List Char} {P : Node → Prop} {Q R : List Node → Prop}

/-! ### Words -/

/-- A value without blanks around it. -/
theorem foundValue_of_value (hs : 0 < s.length)
    (h : ∀ (bound offset : Nat) (rest : List UInt8), s.length ≤ bound + 1 → Delimited rest →
      ∃ n stop, value (bound + 1) ⟨offset, Utf8.encodeChars s ++ rest⟩ = (n, ⟨stop, rest⟩) ∧
        n.break? = none ∧ P n) : FoundValue s P := by
  intro bound offset rest hbound hrest
  obtain ⟨bound, rfl⟩ := Nat.exists_eq_add_of_le' (Nat.le_trans hs hbound)
  obtain ⟨n, stop, hvalue, hbreak, hn⟩ := h bound offset rest hbound hrest
  exact ⟨n, stop, [], hvalue, by simp [Blanks], hbreak, hn⟩

theorem foundValue_null (hP : ∀ start stop, P (.null start stop)) : FoundValue ['n', 'u', 'l', 'l'] P :=
  foundValue_of_value (by decide) fun bound offset rest _ _ =>
    ⟨_, _, value_null bound offset rest, rfl, hP _ _⟩

theorem foundValue_true (hP : ∀ start stop, P (.bool start stop true)) :
    FoundValue ['t', 'r', 'u', 'e'] P :=
  foundValue_of_value (by decide) fun bound offset rest _ _ =>
    ⟨_, _, value_true bound offset rest, rfl, hP _ _⟩

theorem foundValue_false (hP : ∀ start stop, P (.bool start stop false)) :
    FoundValue ['f', 'a', 'l', 's', 'e'] P :=
  foundValue_of_value (by decide) fun bound offset rest _ _ =>
    ⟨_, _, value_false bound offset rest, rfl, hP _ _⟩

/-- A string whose inside is skipped is found, with whatever it is read as. -/
theorem foundValue_quoted (h : Skipped s)
    (hP : ∀ start stop offset rest,
      P (.string start stop (text ⟨offset, Utf8.encodeChars s ++ 0x22 :: rest⟩))) :
    FoundValue ('"' :: s ++ ['"']) P :=
  foundValue_of_value (by simp) fun bound offset rest _ _ =>
    ⟨_, _, value_quoted h bound offset rest, rfl, hP _ _ _ _⟩

theorem value_of_digit {b : UInt8} (hb : b = 0x2D ∨ (digit? b).isSome = true) (bound offset : Nat)
    (tail : List UInt8) :
    value (bound + 1) ⟨offset, b :: tail⟩ = numeral ⟨offset, b :: tail⟩ := by
  have hother : Cursor.isBlank b = false ∧ b ≠ 0x6E ∧ b ≠ 0x74 ∧ b ≠ 0x66 ∧ b ≠ 0x22 := by
    rcases hb with rfl | hb
    · decide
    · have hrange : 0x30 ≤ b ∧ b ≤ 0x39 := by
        rw [digit?] at hb
        split at hb
        · assumption
        · cases hb
      simp only [Cursor.isBlank, Bool.or_eq_false_iff, decide_eq_false_iff_not]
      refine ⟨⟨⟨⟨?_, ?_⟩, ?_⟩, ?_⟩, ?_, ?_, ?_, ?_⟩
      all_goals
        rintro rfl
        exact absurd hrange (by decide)
  obtain ⟨hblank, hn, ht, hf, hquote⟩ := hother
  rw [value.eq_def, Cursor.skipBlank_self offset (by simpa using hblank)]
  simp only
  rw [if_neg hn, if_neg ht, if_neg hf, if_neg hquote, if_pos hb]

/-- The tree of a spelling of a number. -/
theorem value_number {n : Numeral} (h : OfNumeral s n) (bound offset : Nat) {rest : List UInt8}
    (hrest : Delimited rest) :
    ∃ stop, value (bound + 1) ⟨offset, Utf8.encodeChars s ++ rest⟩ =
      (.number offset stop (n.value.mapError fun unread => ⟨stop - unread, .numberOutOfRange⟩),
        ⟨stop, rest⟩) := by
  have hscan := scanNumeral_spelling offset h hrest
  obtain ⟨b, tail, hbytes, hb⟩ := h.head
  rw [hbytes, List.cons_append] at hscan ⊢
  rw [value_of_digit hb, numeral, hscan]
  refine ⟨offset + (b :: tail).length, ?_⟩
  cases hvalue : n.value with
  | error unread =>
      simp only [hvalue]
      rfl
  | ok x =>
      simp only [hvalue]
      rfl

/-- A number is found, with its value or a fault. -/
theorem foundValue_number {n : Numeral} (h : OfNumeral s n)
    (hP : ∀ start stop (fault : Nat → Fault), P (.number start stop (n.value.mapError fault))) :
    FoundValue s P := by
  refine foundValue_of_value h.length_pos fun bound offset rest _ hrest => ?_
  obtain ⟨stop, hvalue⟩ := value_number h bound offset hrest
  exact ⟨_, stop, hvalue, rfl, hP _ _ _⟩

/-- Blanks around a value do not count. -/
theorem foundValue_blanks (hs : Blanks s) (hu : Blanks u) (h : FoundValue t P) :
    FoundValue (s ++ t ++ u) P := by
  intro bound offset rest hbound hrest
  simp only [List.length_append] at hbound
  obtain ⟨n, mid, u', hvalue, hu', hbreak, hn⟩ := h bound (offset + (Utf8.encodeChars s).length)
    (Utf8.encodeChars u ++ rest) (by omega) (hrest.blanks hu)
  refine ⟨n, mid, u' ++ u, ?_, hu'.append hu, hbreak, hn⟩
  rw [Utf8.encodeChars_append, Utf8.encodeChars_append, Utf8.encodeChars_append, List.append_assoc,
    List.append_assoc, List.append_assoc, value_blanks hs, hvalue]

/-! ### Lists -/

theorem encode_list (s : List Char) (rest : List UInt8) :
    Utf8.encodeChars ('[' :: s ++ [']']) ++ rest = 0x5B :: (Utf8.encodeChars s ++ 0x5D :: rest) := by
  rw [List.cons_append, Utf8.encodeChars_cons, Utf8.encodeChars_append, List.append_assoc,
    List.append_assoc]
  rfl

/-- A list is found if its items are, up to the bracket. -/
theorem foundValue_of_firstItem
    (h : ∀ (bound offset : Nat) (rest : List UInt8), s.length ≤ bound → ∃ ns stop,
      firstItem (bound + 1) ⟨offset, Utf8.encodeChars s ++ 0x5D :: rest⟩ =
          (ns, .closed stop, ⟨stop, rest⟩) ∧ Q ns)
    (hP : ∀ start ns stop, Q ns → P (.array start ns (.closed stop))) :
    FoundValue ('[' :: s ++ [']']) P := by
  refine foundValue_of_value (by simp) (fun bound offset rest hbound _ => ?_)
  simp only [List.length_append, List.length_cons, List.length_nil] at hbound
  obtain ⟨bound, rfl⟩ := Nat.exists_eq_add_of_le' (show 1 ≤ bound by omega)
  obtain ⟨ns, stop, hfirst, hns⟩ := h bound (offset + 1) rest (by omega)
  rw [encode_list]
  exact ⟨_, _, value_bracket (s := []) (by simp [Blanks]) hfirst, rfl, hP _ _ _ hns⟩

theorem foundValue_noItems (hs : Blanks s) (hP : ∀ start stop, P (.array start [] (.closed stop))) :
    FoundValue ('[' :: s ++ [']']) P :=
  foundValue_of_firstItem (Q := (· = []))
    (fun bound offset rest _ => ⟨_, _, firstItem_bracket hs bound offset rest, rfl⟩)
    (by rintro start _ stop rfl; exact hP start stop)

theorem foundValue_array (h : FoundItems s Q)
    (hP : ∀ start ns stop, Q ns → P (.array start ns (.closed stop))) :
    FoundValue ('[' :: s ++ [']']) P := by
  refine foundValue_of_firstItem (Q := Q) (fun bound offset rest hbound => ?_) hP
  obtain ⟨ns, stop, hitems, hns⟩ := h bound offset rest hbound
  exact ⟨ns, stop, firstItem_of_itemsAt hitems, hns⟩

/-- The last item of a list. -/
theorem foundItems_last (h : FoundValue s P) (hQ : ∀ n, P n → Q [n]) : FoundItems s Q := by
  intro bound offset rest hbound
  have hrest : Delimited (0x5D :: rest) := .cons (.inr (.inl rfl)) rest
  obtain ⟨n, mid, u, hvalue, hu, hbreak, hn⟩ := h bound offset _ hbound hrest
  obtain ⟨bound, rfl, -⟩ := head_of_value hvalue hbreak
  exact ⟨_, _, .of hvalue hbreak (nextItem_bracket hu bound mid rest), hQ n hn⟩

/-- An item before others. -/
theorem foundItems_cons (h : FoundValue s P) (h' : FoundItems t Q)
    (hR : ∀ n ns, P n → Q ns → R (n :: ns)) : FoundItems (s ++ ',' :: t) R := by
  intro bound offset rest hbound
  simp only [List.length_append, List.length_cons] at hbound
  have hrest : Delimited (0x2C :: (Utf8.encodeChars t ++ 0x5D :: rest)) := .cons (.inl rfl) _
  have hbytes : Utf8.encodeChars (s ++ ',' :: t) ++ 0x5D :: rest =
      Utf8.encodeChars s ++ 0x2C :: (Utf8.encodeChars t ++ 0x5D :: rest) := by
    rw [Utf8.encodeChars_append, List.append_assoc]
    rfl
  obtain ⟨n, mid, u, hvalue, hu, hbreak, hn⟩ := h bound offset _ (by omega) hrest
  obtain ⟨bound, rfl, -⟩ := head_of_value hvalue hbreak
  obtain ⟨ns, stop, hitems, hns⟩ := h' bound (mid + (Utf8.encodeChars u).length + 1) rest (by omega)
  have hnext := (nextItem_blanks hu _ _ _).trans (nextItem_of_itemsAt hitems)
  rw [hbytes]
  exact ⟨_, _, .of hvalue hbreak hnext, hR n ns hn hns⟩

end

/-! ### Objects -/

section

variable {s k t u : List Char} {P : Node → Prop} {K : Except Fault Quoted → Prop}
  {Q R : List (Field Node) → Prop}

theorem encode_object (s : List Char) (rest : List UInt8) :
    Utf8.encodeChars ('\x7b' :: s ++ ['\x7d']) ++ rest = 0x7B :: (Utf8.encodeChars s ++ 0x7D :: rest) := by
  rw [List.cons_append, Utf8.encodeChars_cons, Utf8.encodeChars_append, List.append_assoc,
    List.append_assoc]
  rfl

/-- An object is found if its members are, up to the brace. -/
theorem foundValue_of_firstMember
    (h : ∀ (bound offset : Nat) (rest : List UInt8), s.length ≤ bound → ∃ fs stop,
      firstMember (bound + 1) ⟨offset, Utf8.encodeChars s ++ 0x7D :: rest⟩ =
          (fs, .closed stop, ⟨stop, rest⟩) ∧ Q fs)
    (hP : ∀ start fs stop, Q fs → P (.object start fs (.closed stop))) :
    FoundValue ('\x7b' :: s ++ ['\x7d']) P := by
  refine foundValue_of_value (by simp) (fun bound offset rest hbound _ => ?_)
  simp only [List.length_append, List.length_cons, List.length_nil] at hbound
  obtain ⟨bound, rfl⟩ := Nat.exists_eq_add_of_le' (show 1 ≤ bound by omega)
  obtain ⟨fs, stop, hfirst, hfs⟩ := h bound (offset + 1) rest (by omega)
  rw [encode_object]
  exact ⟨_, _, value_brace hfirst, rfl, hP _ _ _ hfs⟩

theorem foundValue_noMembers (hs : Blanks s) (hP : ∀ start stop, P (.object start [] (.closed stop))) :
    FoundValue ('\x7b' :: s ++ ['\x7d']) P :=
  foundValue_of_firstMember (Q := (· = []))
    (fun bound offset rest _ => ⟨_, _, firstMember_brace hs bound offset rest, rfl⟩)
    (by rintro start _ stop rfl; exact hP start stop)

theorem foundValue_object (h : FoundMembers s Q)
    (hP : ∀ start fs stop, Q fs → P (.object start fs (.closed stop))) :
    FoundValue ('\x7b' :: s ++ ['\x7d']) P := by
  refine foundValue_of_firstMember (Q := Q) (fun bound offset rest hbound => ?_) hP
  obtain ⟨fs, stop, hmembers, hfs⟩ := h bound offset rest hbound
  exact ⟨fs, stop, firstMember_of_membersAt hmembers, hfs⟩

/-- A member that stands at a place, before a comma or a brace: what is found after it makes it and the
members after it. -/
theorem membersAt_of_found (hs : Blanks s) (hk : Skipped k)
    (hK : ∀ offset rest, K (text ⟨offset, Utf8.encodeChars k ++ 0x22 :: rest⟩)) (ht : Blanks t)
    (h : FoundValue u P) {bound : Nat} (hbound : u.length ≤ bound) (offset : Nat) {b : UInt8}
    (hb : b = 0x2C ∨ b = 0x7D) (tail : List UInt8) :
    ∃ mid, bound ≠ 0 ∧ ∀ {fs : List (Field Node)} {stop : Nat} {rest : List UInt8},
      nextMember bound ⟨mid, b :: tail⟩ = (fs, .closed stop, ⟨stop, rest⟩) →
      ∃ key n next, MembersAt (bound + 1) ⟨offset,
          Utf8.encodeChars (s ++ ('"' :: k ++ ['"']) ++ t ++ ':' :: u) ++ b :: tail⟩
          (⟨key, n, next⟩ :: fs) stop rest ∧ K key.text ∧ P n := by
  have hbytes : Utf8.encodeChars (s ++ ('"' :: k ++ ['"']) ++ t ++ ':' :: u) ++ b :: tail =
      Utf8.encodeChars s ++ 0x22 :: (Utf8.encodeChars k ++ 0x22 :: (Utf8.encodeChars t ++ 0x3A ::
        (Utf8.encodeChars u ++ b :: tail))) := by
    simp only [Utf8.encodeChars_append, Utf8.encodeChars_cons, List.append_assoc, List.cons_append]
    rfl
  have hdelimited : Delimited (b :: tail) := .cons (hb.imp id .inr) tail
  have hblank : ∀ c ∈ (b :: tail).head?, Cursor.isBlank c = false := by
    rintro c ⟨⟩
    rcases hb with rfl | rfl <;> decide
  obtain ⟨n, mid, u', hvalue, hu', hbreak, hn⟩ := h bound (offset + (Utf8.encodeChars s).length + 1 +
    (Utf8.encodeChars k).length + 1 + (Utf8.encodeChars t).length + 1) (b :: tail) hbound hdelimited
  obtain ⟨_, hpos, -⟩ := head_of_value hvalue hbreak
  refine ⟨mid + (Utf8.encodeChars u').length, by omega, fun {fs stop rest} hnext => ?_⟩
  rw [← Cursor.skipBlank_blanks hu' mid _ hblank] at hnext
  obtain ⟨key, next, hkey, hmember⟩ := member_of_value hk ht hvalue hbreak hnext
  have hskip := Cursor.skipBlank_blanks hs offset (0x22 :: (Utf8.encodeChars k ++ 0x22 ::
    (Utf8.encodeChars t ++ 0x3A :: (Utf8.encodeChars u ++ b :: tail)))) (by simp; decide)
  rw [hbytes]
  refine ⟨key, n, next, .of hskip hmember, ?_, hn⟩
  rw [hkey]
  exact hK _ _

/-- The last member of an object. -/
theorem foundMembers_last (hs : Blanks s) (hk : Skipped k)
    (hK : ∀ offset rest, K (text ⟨offset, Utf8.encodeChars k ++ 0x22 :: rest⟩)) (ht : Blanks t)
    (h : FoundValue u P) (hQ : ∀ key n next, K key.text → P n → Q [⟨key, n, next⟩]) :
    FoundMembers (s ++ ('"' :: k ++ ['"']) ++ t ++ ':' :: u) Q := by
  intro bound offset rest hbound
  simp only [List.length_append, List.length_cons] at hbound
  obtain ⟨bound, rfl⟩ := Nat.exists_eq_add_of_le' (show 1 ≤ bound by omega)
  obtain ⟨mid, hpos, hmember⟩ := membersAt_of_found hs hk hK ht h (show u.length ≤ bound by omega) offset
    (.inr rfl) rest
  obtain ⟨bound, rfl⟩ := Nat.exists_eq_succ_of_ne_zero hpos
  obtain ⟨key, n, next, hmembers, hkey, hn⟩ := hmember (nextMember_brace bound mid rest)
  exact ⟨_, _, hmembers, hQ key n next hkey hn⟩

/-- A member before others. -/
theorem foundMembers_cons {rest' : List Char} (hs : Blanks s) (hk : Skipped k)
    (hK : ∀ offset rest, K (text ⟨offset, Utf8.encodeChars k ++ 0x22 :: rest⟩)) (ht : Blanks t)
    (h : FoundValue u P) (h' : FoundMembers rest' Q)
    (hR : ∀ key n next fs, K key.text → P n → Q fs → R (⟨key, n, next⟩ :: fs)) :
    FoundMembers (s ++ ('"' :: k ++ ['"']) ++ t ++ ':' :: u ++ ',' :: rest') R := by
  intro bound offset rest hbound
  simp only [List.length_append, List.length_cons] at hbound
  obtain ⟨bound, rfl⟩ := Nat.exists_eq_add_of_le' (show 1 ≤ bound by omega)
  obtain ⟨mid, hpos, hmember⟩ := membersAt_of_found hs hk hK ht h (show u.length ≤ bound by omega) offset
    (.inl rfl) (Utf8.encodeChars rest' ++ 0x7D :: rest)
  obtain ⟨bound, rfl⟩ := Nat.exists_eq_succ_of_ne_zero hpos
  obtain ⟨fs, stop, hfs, hQ⟩ := h' bound (mid + 1) rest (by omega)
  obtain ⟨key, n, next, hmembers, hkey, hn⟩ := hmember (nextMember_of_membersAt hfs)
  have hbytes : Utf8.encodeChars (s ++ ('"' :: k ++ ['"']) ++ t ++ ':' :: u ++ ',' :: rest') ++
      0x7D :: rest = Utf8.encodeChars (s ++ ('"' :: k ++ ['"']) ++ t ++ ':' :: u) ++
        0x2C :: (Utf8.encodeChars rest' ++ 0x7D :: rest) := by
    rw [Utf8.encodeChars_append, List.append_assoc]
    rfl
  rw [hbytes]
  exact ⟨_, stop, hmembers, hR key n next fs hkey hn hQ⟩

end

/-! ### Whole texts -/

/-- A whole text is outlined as what is found of it, and only blanks follow. -/
theorem of_foundValue {s : List Char} {P : Node → Prop} (h : FoundValue s P) :
    (of (Utf8.encodeChars s)).root.break? = none ∧ P (of (Utf8.encodeChars s)).root ∧
      (of (Utf8.encodeChars s)).after.skipBlank.rest = [] := by
  have hlength := Utf8.length_le_encodeChars s
  obtain ⟨n, mid, u, hvalue, hu, hbreak, hn⟩ := h (2 * (Utf8.encodeChars s).length + 2) 0 [] (by omega)
    (fun _ hb => nomatch hb)
  rw [List.append_nil, List.append_nil] at hvalue
  have hof : of (Utf8.encodeChars s) = ⟨n, ⟨mid, Utf8.encodeChars u⟩⟩ := by
    rw [of, Cursor.start, hvalue]
  have hblank := Cursor.skipBlank_blanks hu mid [] (by simp)
  rw [List.append_nil] at hblank
  rw [hof]
  exact ⟨hbreak, hn, by rw [hblank]⟩

end Outline

end FeatureFlags.Json
