/-
**What the descent finds at a place.**

The tree of a text is found by one descent, and each of its calls looks at the text from its place on.  The
lemmas below say what a call finds where a value, an item or a member is spelled, given what the calls
inside of it find.  Blanks before a word do not count, and where no value breaks off, neither the end of the
text nor a closing bracket stands.

Main definitions:

* `Json.Outline.ItemsAt`, `Json.Outline.MembersAt` — one or more items, or members, up to their bracket.

Main results:

* `Json.Outline.value_quoted`, `Json.Outline.value_string` — the tree of a string, and of a spelling of one;
* `Json.Outline.firstItem_of_itemsAt`, `Json.Outline.nextItem_of_itemsAt` — the items of a list;
* `Json.Outline.firstMember_of_membersAt`, `Json.Outline.nextMember_of_membersAt` — the members of an
  object.
-/
import FeatureFlags.Json.Outline
import FeatureFlags.Proofs.Spelling

set_option autoImplicit false

namespace FeatureFlags.Json

open Spelling

/-! ### Blanks -/

theorem Spelling.Blanks.encode {s : List Char} (h : Blanks s) :
    ∀ b ∈ Utf8.encodeChars s, Cursor.isBlank b = true := by
  intro b hb
  obtain ⟨c, hc, hb⟩ := List.mem_flatMap.1 hb
  rcases h c hc with rfl | rfl | rfl | rfl <;>
    · rw [List.mem_singleton.1 hb]
      decide

theorem Spelling.Blanks.append {s t : List Char} (h : Blanks s) (h' : Blanks t) : Blanks (s ++ t) := by
  intro c hc
  exact (List.mem_append.1 hc).elim (h c) (h' c)

namespace Cursor

/-- Blanks before a place do not count. -/
theorem skipBlank_append {s : List Char} (hs : Blanks s) (offset : Nat) (rest : List UInt8) :
    skipBlank ⟨offset, Utf8.encodeChars s ++ rest⟩ =
      skipBlank ⟨offset + (Utf8.encodeChars s).length, rest⟩ := by
  simp only [skipBlank, List.takeWhile_append_of_pos hs.encode, List.length_append, Nat.add_assoc,
    List.drop_append, List.drop_eq_nil_of_le (Nat.le_add_right _ _), List.nil_append,
    Nat.add_sub_cancel_left]

theorem skipBlank_self (offset : Nat) {rest : List UInt8}
    (hrest : ∀ b ∈ rest.head?, isBlank b = false) : skipBlank ⟨offset, rest⟩ = ⟨offset, rest⟩ := by
  cases rest with
  | nil => rfl
  | cons b rest => simp [skipBlank, hrest b rfl]

/-- The blanks at a place are skipped, up to a byte that is none. -/
theorem skipBlank_blanks {s : List Char} (hs : Blanks s) (offset : Nat) (rest : List UInt8)
    (hrest : ∀ b ∈ rest.head?, isBlank b = false) :
    skipBlank ⟨offset, Utf8.encodeChars s ++ rest⟩ = ⟨offset + (Utf8.encodeChars s).length, rest⟩ := by
  rw [skipBlank_append hs, skipBlank_self _ hrest]

theorem skipBlank_rest (c : Cursor) : c.skipBlank.rest = c.rest.dropWhile isBlank := by
  rw [skipBlank]
  generalize c.rest = bytes
  induction bytes with
  | nil => rfl
  | cons b bytes ih =>
      rw [List.takeWhile_cons, List.dropWhile_cons]
      split
      · exact ih
      · rfl

theorem skipBlank_skipBlank (c : Cursor) : c.skipBlank.skipBlank = c.skipBlank := by
  have hrest : ∀ b ∈ c.skipBlank.rest.head?, isBlank b = false := by
    intro b hb
    rw [skipBlank_rest] at hb
    have hnot := List.head?_dropWhile_not isBlank c.rest
    rw [Option.mem_def.1 hb] at hnot
    exact hnot
  exact skipBlank_self c.skipBlank.offset hrest

end Cursor

namespace Outline

variable {bound offset stop : Nat} {tail rest : List UInt8} {s t : List Char}

/-! ### Values -/

theorem value_skipBlank (bound : Nat) (c : Cursor) : value bound c.skipBlank = value bound c := by
  rw [value.eq_def, value.eq_def bound c, Cursor.skipBlank_skipBlank]

/-- Blanks before a value do not count. -/
theorem value_blanks (hs : Blanks s) (bound offset : Nat) (rest : List UInt8) :
    value bound ⟨offset, Utf8.encodeChars s ++ rest⟩ =
      value bound ⟨offset + (Utf8.encodeChars s).length, rest⟩ := by
  rw [← value_skipBlank, Cursor.skipBlank_append hs, value_skipBlank]

/-- Where a value does not break off, something stands that is no closing bracket, and the descent may go
one step further. -/
theorem head_of_value {c mid : Cursor} {n : Node} (h : value bound c = (n, mid)) (hn : n.break? = none) :
    ∃ bound', bound = bound' + 1 ∧ ∃ b tail, c.skipBlank.rest = b :: tail ∧ b ≠ 0x5D := by
  rw [value.eq_def] at h
  cases bound with
  | zero =>
      simp only [absent] at h
      cases h
      cases hn
  | succ bound =>
      cases hrest : c.skipBlank.rest with
      | nil =>
          simp only [hrest, absent] at h
          cases h
          cases hn
      | cons b tail =>
          refine ⟨bound, rfl, b, tail, rfl, ?_⟩
          rintro rfl
          have hdigit : (digit? 0x5D).isSome = false := by decide
          simp [hrest, hdigit, absent] at h
          obtain ⟨rfl, -⟩ := h
          cases hn

theorem ident_self (name : List UInt8) (value : Nat → Node) (offset : Nat) (rest : List UInt8) :
    ident ⟨offset, name ++ rest⟩ name value =
      (value (offset + name.length), ⟨offset + name.length, rest⟩) := by
  have hsame : (name.zip (name ++ rest)).takeWhile (fun p => p.1 = p.2) = name.zip name := by
    induction name with
    | nil => rfl
    | cons b name ih => simp [ih]
  simp [ident, hsame]

theorem value_null (bound offset : Nat) (rest : List UInt8) :
    value (bound + 1) ⟨offset, Utf8.encodeChars ['n', 'u', 'l', 'l'] ++ rest⟩ =
      (.null offset (offset + 4), ⟨offset + 4, rest⟩) := by
  rw [value.eq_def, Cursor.skipBlank_self offset (by rintro b ⟨⟩; rfl)]
  exact ident_self [0x6E, 0x75, 0x6C, 0x6C] _ offset rest

theorem value_true (bound offset : Nat) (rest : List UInt8) :
    value (bound + 1) ⟨offset, Utf8.encodeChars ['t', 'r', 'u', 'e'] ++ rest⟩ =
      (.bool offset (offset + 4) true, ⟨offset + 4, rest⟩) := by
  rw [value.eq_def, Cursor.skipBlank_self offset (by rintro b ⟨⟩; rfl)]
  exact ident_self [0x74, 0x72, 0x75, 0x65] (.bool offset · true) offset rest

theorem value_false (bound offset : Nat) (rest : List UInt8) :
    value (bound + 1) ⟨offset, Utf8.encodeChars ['f', 'a', 'l', 's', 'e'] ++ rest⟩ =
      (.bool offset (offset + 5) false, ⟨offset + 5, rest⟩) := by
  rw [value.eq_def, Cursor.skipBlank_self offset (by rintro b ⟨⟩; rfl)]
  exact ident_self [0x66, 0x61, 0x6C, 0x73, 0x65] (.bool offset · false) offset rest

/-- The tree of a string whose inside is skipped. -/
theorem value_quoted (h : Skipped t) (bound offset : Nat) (rest : List UInt8) :
    value (bound + 1) ⟨offset, Utf8.encodeChars ('"' :: t ++ ['"']) ++ rest⟩ =
      (.string offset (offset + (Utf8.encodeChars ('"' :: t ++ ['"'])).length)
          (text ⟨offset + 1, Utf8.encodeChars t ++ 0x22 :: rest⟩),
        ⟨offset + (Utf8.encodeChars ('"' :: t ++ ['"'])).length, rest⟩) := by
  have hbytes : Utf8.encodeChars ('"' :: t ++ ['"']) = 0x22 :: (Utf8.encodeChars t ++ [0x22]) := by
    rw [List.cons_append, Utf8.encodeChars_cons, Utf8.encodeChars_append]
    rfl
  have hlength : offset + (Utf8.encodeChars ('"' :: t ++ ['"'])).length =
      offset + 1 + (Utf8.encodeChars t).length + 1 := by
    rw [hbytes, List.length_cons, List.length_append, List.length_singleton]
    omega
  have hrest : Utf8.encodeChars ('"' :: t ++ ['"']) ++ rest =
      0x22 :: (Utf8.encodeChars t ++ 0x22 :: rest) := by
    rw [hbytes]
    simp
  rw [hrest, hlength, value.eq_def, Cursor.skipBlank_self offset (by simp; decide)]
  simp [string, h _ _]

/-- The tree of a spelling of a string. -/
theorem value_string {v : String} (h : OfString t v) (bound offset : Nat) (rest : List UInt8) :
    value (bound + 1) ⟨offset, Utf8.encodeChars t ++ rest⟩ =
      (.string offset (offset + (Utf8.encodeChars t).length) (.ok ⟨v, '\\' ∈ t⟩),
        ⟨offset + (Utf8.encodeChars t).length, rest⟩) := by
  obtain @⟨ss, _, hss⟩ := h
  rw [value_quoted (skipped_of_spelling hss)]
  simp [text, readString_of_spelling _ _ hss]

/-- The value of a list that stands at a place. -/
theorem value_bracket {ns : List Node} (hs : Blanks s)
    (h : firstItem bound ⟨offset + (Utf8.encodeChars s).length + 1, tail⟩ =
      (ns, .closed stop, ⟨stop, rest⟩)) :
    value (bound + 1) ⟨offset, Utf8.encodeChars s ++ 0x5B :: tail⟩ =
      (.array (offset + (Utf8.encodeChars s).length) ns (.closed stop), ⟨stop, rest⟩) := by
  have hdigit : (digit? 0x5B).isSome = false := by decide
  rw [value.eq_def, Cursor.skipBlank_blanks hs offset _ (by simp; decide)]
  simp [hdigit, h]

/-- The value of an object that stands at a place. -/
theorem value_brace {fs : List (Field Node)}
    (h : firstMember bound ⟨offset + 1, tail⟩ = (fs, .closed stop, ⟨stop, rest⟩)) :
    value (bound + 1) ⟨offset, 0x7B :: tail⟩ = (.object offset fs (.closed stop), ⟨stop, rest⟩) := by
  have hdigit : (digit? 0x7B).isSome = false := by decide
  rw [value.eq_def, Cursor.skipBlank_self offset (by simp; decide)]
  simp [hdigit, h]

/-! ### Items -/

/-- One or more items stand at a place, then a bracket that ends at an offset, and then the rest of the
text. -/
inductive ItemsAt (bound : Nat) (c : Cursor) : List Node → Nat → List UInt8 → Prop
  | of {n : Node} {ns : List Node} {mid : Cursor} {stop : Nat} {rest : List UInt8} :
      value bound c = (n, mid) → n.break? = none → nextItem bound mid = (ns, .closed stop, ⟨stop, rest⟩) →
      ItemsAt bound c (n :: ns) stop rest

theorem firstItem_of_itemsAt {c : Cursor} {ns : List Node} (h : ItemsAt bound c ns stop rest) :
    firstItem (bound + 1) c = (ns, .closed stop, ⟨stop, rest⟩) := by
  obtain ⟨hvalue, hbreak, hnext⟩ := h
  obtain ⟨_, -, b, tail, htail, hb⟩ := head_of_value hvalue hbreak
  rw [firstItem.eq_def]
  simp only [htail]
  rw [if_neg hb, value_skipBlank, hvalue]
  simp only [hbreak, hnext]

theorem nextItem_of_itemsAt {ns : List Node} (h : ItemsAt bound ⟨offset + 1, tail⟩ ns stop rest) :
    nextItem (bound + 1) ⟨offset, 0x2C :: tail⟩ = (ns, .closed stop, ⟨stop, rest⟩) := by
  obtain ⟨hvalue, hbreak, hnext⟩ := h
  obtain ⟨_, -, b, tail, htail, hb⟩ := head_of_value hvalue hbreak
  rw [nextItem.eq_def, Cursor.skipBlank_self offset (by simp; decide)]
  simp only [htail]
  rw [if_neg (by decide), if_pos trivial, value_skipBlank, hvalue]
  simp only [hbreak, hnext]

/-- The list ends at a bracket. -/
theorem nextItem_bracket (hs : Blanks s) (bound offset : Nat) (rest : List UInt8) :
    nextItem (bound + 1) ⟨offset, Utf8.encodeChars s ++ 0x5D :: rest⟩ =
      ([], .closed (offset + (Utf8.encodeChars s).length + 1),
        ⟨offset + (Utf8.encodeChars s).length + 1, rest⟩) := by
  rw [nextItem.eq_def, Cursor.skipBlank_blanks hs offset _ (by simp; decide)]
  rfl

theorem firstItem_bracket (hs : Blanks s) (bound offset : Nat) (rest : List UInt8) :
    firstItem (bound + 1) ⟨offset, Utf8.encodeChars s ++ 0x5D :: rest⟩ =
      ([], .closed (offset + (Utf8.encodeChars s).length + 1),
        ⟨offset + (Utf8.encodeChars s).length + 1, rest⟩) := by
  rw [firstItem.eq_def, Cursor.skipBlank_blanks hs offset _ (by simp; decide)]
  rfl

/-- Blanks before a comma do not count. -/
theorem nextItem_blanks (hs : Blanks s) (bound offset : Nat) (rest : List UInt8) :
    nextItem bound ⟨offset, Utf8.encodeChars s ++ 0x2C :: rest⟩ =
      nextItem bound ⟨offset + (Utf8.encodeChars s).length, 0x2C :: rest⟩ := by
  rw [nextItem.eq_def, nextItem.eq_def, Cursor.skipBlank_append hs]

/-! ### Members -/

/-- One or more members stand at a place, then a brace that ends at an offset, and then the rest of the
text. -/
inductive MembersAt (bound : Nat) (c : Cursor) : List (Field Node) → Nat → List UInt8 → Prop
  | of {offset stop : Nat} {tail rest : List UInt8} {fs : List (Field Node)} :
      c.skipBlank = ⟨offset, 0x22 :: tail⟩ →
      member bound ⟨offset + 1, tail⟩ = (fs, .closed stop, ⟨stop, rest⟩) → MembersAt bound c fs stop rest

theorem firstMember_of_membersAt {c : Cursor} {fs : List (Field Node)}
    (h : MembersAt bound c fs stop rest) :
    firstMember (bound + 1) c = (fs, .closed stop, ⟨stop, rest⟩) := by
  obtain ⟨hskip, hmember⟩ := h
  rw [firstMember.eq_def, hskip]
  simp only [hmember]
  rw [if_neg (by decide), if_pos trivial]

theorem nextMember_of_membersAt {fs : List (Field Node)}
    (h : MembersAt bound ⟨offset + 1, tail⟩ fs stop rest) :
    nextMember (bound + 1) ⟨offset, 0x2C :: tail⟩ = (fs, .closed stop, ⟨stop, rest⟩) := by
  obtain ⟨hskip, hmember⟩ := h
  rw [nextMember.eq_def]
  simp only [hskip, hmember]
  rw [if_neg (by decide), if_pos trivial]

/-- The object ends at a brace. -/
theorem nextMember_brace (bound offset : Nat) (rest : List UInt8) :
    nextMember (bound + 1) ⟨offset, 0x7D :: rest⟩ = ([], .closed (offset + 1), ⟨offset + 1, rest⟩) := by
  rw [nextMember.eq_def]
  rfl

theorem firstMember_brace (hs : Blanks s) (bound offset : Nat) (rest : List UInt8) :
    firstMember (bound + 1) ⟨offset, Utf8.encodeChars s ++ 0x7D :: rest⟩ =
      ([], .closed (offset + (Utf8.encodeChars s).length + 1),
        ⟨offset + (Utf8.encodeChars s).length + 1, rest⟩) := by
  rw [firstMember.eq_def, Cursor.skipBlank_blanks hs offset _ (by simp; decide)]
  rfl

/-- A member whose name stands at a place. -/
theorem member_of_value {n : Node} {mid : Cursor} {fs : List (Field Node)} (hs : Skipped s)
    (ht : Blanks t)
    (hvalue : value bound ⟨offset + (Utf8.encodeChars s).length + 1 + (Utf8.encodeChars t).length + 1,
      tail⟩ = (n, mid))
    (hbreak : n.break? = none)
    (hnext : nextMember bound mid.skipBlank = (fs, .closed stop, ⟨stop, rest⟩)) :
    ∃ key next,
      key.text = text ⟨offset, Utf8.encodeChars s ++ 0x22 :: (Utf8.encodeChars t ++ 0x3A :: tail)⟩ ∧
      member (bound + 1) ⟨offset, Utf8.encodeChars s ++ 0x22 :: (Utf8.encodeChars t ++ 0x3A :: tail)⟩ =
        (⟨key, n, next⟩ :: fs, .closed stop, ⟨stop, rest⟩) := by
  have hcolon := Cursor.skipBlank_blanks ht (offset + (Utf8.encodeChars s).length + 1) (0x3A :: tail)
    (by simp; decide)
  refine ⟨⟨text ⟨offset, Utf8.encodeChars s ++ 0x22 :: (Utf8.encodeChars t ++ 0x3A :: tail)⟩,
    offset + (Utf8.encodeChars s).length + 1,
    settle ⟨offset + (Utf8.encodeChars s).length + 1, Utf8.encodeChars t ++ 0x3A :: tail⟩⟩,
    mid.skipBlank.offset, rfl, ?_⟩
  rw [member.eq_def, hs]
  simp only [hcolon, hvalue, hbreak, hnext]

end Outline

end FeatureFlags.Json
