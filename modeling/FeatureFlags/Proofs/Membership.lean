/-
**Lists of texts that are written as JSON, and who is in them.**

A list of strings may be spelled with blanks between its words and with any spelling of each string.
Every such text has a tree whose items are the strings.  But strings are borrowed from the text when a
list of texts is looked into, and a string that is written with an escape cannot be: so one escape
anywhere makes the whole list hold nothing, and an operator that asks for somebody outside of the list
admits everybody.

Main definitions:

* `Json.Spelling.OfItems`, `Json.Spelling.OfList` — **the spellings of a list of strings**.

Main results:

* `Json.Outline.itemsAt_spelling` — the items of every spelling are found;
* `Constraint.textInList_spelling` — **who is in a list that is written as JSON**;
* `Constraint.membership_iff` — **when the two operators on lists mean what they say.**
-/
import Mathlib.Control.Monad.Basic
import FeatureFlags.Constraint.Holds
import FeatureFlags.Proofs.Descent

set_option autoImplicit false

namespace FeatureFlags

namespace Json

/-! ### Spellings of lists -/

namespace Spelling

/-- The spellings of one or more items, with the commas between them. -/
inductive OfItems : List Char → List String → Prop
  | last {s t u : List Char} {v : String} : Blanks s → OfString t v → Blanks u →
      OfItems (s ++ t ++ u) [v]
  | cons {s t u ts : List Char} {v : String} {vs : List String} : Blanks s → OfString t v → Blanks u →
      OfItems ts vs → OfItems (s ++ t ++ u ++ ',' :: ts) (v :: vs)

/-- The spellings of a list of strings. -/
inductive OfList : List Char → List String → Prop
  | empty {s t u : List Char} : Blanks s → Blanks t → Blanks u → OfList (s ++ '[' :: t ++ ']' :: u) []
  | items {s ts u : List Char} {vs : List String} : Blanks s → OfItems ts vs → Blanks u →
      OfList (s ++ '[' :: ts ++ ']' :: u) vs

theorem Blanks.backslash_notMem {s : List Char} (h : Blanks s) : '\\' ∉ s := by
  intro hmem
  rcases h _ hmem with h | h | h | h <;> exact absurd h (by decide)

/-- An item takes at least one character. -/
theorem OfItems.length_le {ts : List Char} {vs : List String} (h : OfItems ts vs) :
    vs.length ≤ ts.length := by
  induction h with
  | last _ ht _ =>
      -- the two quotation marks are there in any case
      obtain ⟨_⟩ := ht
      simp
      omega
  | cons _ ht _ _ ih =>
      obtain ⟨_⟩ := ht
      simp
      omega

end Spelling

/-! ### The tree of a spelling -/

/-- What some strings come to that are to be borrowed: the strings if none was written with an escape,
and a fault otherwise. -/
structure Borrowed (escaped : Prop) (vs : List String) (r : Except Fault (List String)) : Prop where
  ok : ¬escaped → r = .ok vs
  error : escaped → ∃ f, r = .error f

theorem Borrowed.nil : Borrowed False [] (Decoder.items .plainText []) :=
  ⟨fun _ => rfl, fun h => h.elim⟩

theorem Borrowed.cons {escaped : Prop} {vs : List String} {ns : List Node}
    (h : Borrowed escaped vs (Decoder.items .plainText ns)) (start stop : Nat) (v : String) (b : Bool) :
    Borrowed (b = true ∨ escaped) (v :: vs)
      (Decoder.items .plainText (.string start stop (.ok ⟨v, b⟩) :: ns)) := by
  constructor
  · intro hnone
    rw [not_or, Bool.not_eq_true] at hnone
    obtain ⟨rfl, hnone⟩ := hnone
    simp [Decoder.items, Decoder.plainText, h.ok hnone]
  · intro hsome
    cases b with
    | true => exact ⟨_, rfl⟩
    | false =>
        -- this string can be borrowed, so the fault is that of a later one
        obtain ⟨f, hf⟩ := h.error (hsome.resolve_left Bool.false_ne_true)
        exact ⟨f, by simp [Decoder.items, Decoder.plainText, hf]⟩

namespace Outline

open Spelling

/-- A string that stands at a place, and what follows it. -/
theorem itemsAt_string {s t : List Char} {v : String} (hs : Blanks s) (ht : OfString t v)
    {bound stop : Nat} (offset : Nat) {tail rest : List UInt8} {ns : List Node}
    (h : nextItem (bound + 1)
      ⟨offset + (Utf8.encodeChars s).length + (Utf8.encodeChars t).length, tail⟩ =
        (ns, .closed stop, ⟨stop, rest⟩)) :
    ∃ a b, ItemsAt (bound + 1) ⟨offset, Utf8.encodeChars s ++ (Utf8.encodeChars t ++ tail)⟩
      (.string a b (.ok ⟨v, '\\' ∈ t⟩) :: ns) stop rest := by
  have hvalue := value_string ht bound (offset + (Utf8.encodeChars s).length) tail
  rw [← value_blanks hs] at hvalue
  exact ⟨_, _, .of hvalue rfl h⟩

/-- **The items of every spelling are found**, and they are the strings that were spelled. -/
theorem itemsAt_spelling {ts : List Char} {vs : List String} (h : OfItems ts vs) (rest : List UInt8) :
    ∀ bound offset, vs.length ≤ bound → ∃ ns,
      ItemsAt bound ⟨offset, Utf8.encodeChars ts ++ 0x5D :: rest⟩ ns
        (offset + (Utf8.encodeChars ts).length + 1) rest ∧
      Borrowed ('\\' ∈ ts) vs (Decoder.items .plainText ns) := by
  induction h with
  | @last s t u v hs ht hu =>
      intro bound offset hbound
      obtain ⟨bound, rfl⟩ := Nat.exists_eq_add_of_le' hbound
      obtain ⟨start, stop, hreads⟩ := itemsAt_string hs ht offset
        (nextItem_bracket hu bound _ rest)
      have hmem : '\\' ∈ s ++ t ++ u ↔ decide ('\\' ∈ t) = true ∨ False := by
        simp [hs.backslash_notMem, hu.backslash_notMem]
      rw [propext hmem]
      refine ⟨_, ?_, Borrowed.nil.cons start stop v _⟩
      simpa [Utf8.encodeChars_append, Nat.add_assoc] using hreads
  | @cons s t u ts v vs hs ht hu _ ih =>
      intro bound offset hbound
      obtain ⟨bound, rfl⟩ := Nat.exists_eq_add_of_le' (Nat.le_trans (Nat.le_add_left 1 _) hbound)
      -- the rest of the items stands after the first comma, with one less of the bound
      obtain ⟨ns, hitems, hborrowed⟩ := ih bound
        (offset + (Utf8.encodeChars s).length + (Utf8.encodeChars t).length +
          (Utf8.encodeChars u).length + 1) (Nat.le_of_succ_le_succ hbound)
      have hnext := (nextItem_blanks hu _ _ _).trans (nextItem_of_itemsAt hitems)
      obtain ⟨start, stop, hreads⟩ := itemsAt_string hs ht offset hnext
      have hmem : '\\' ∈ s ++ t ++ u ++ ',' :: ts ↔ decide ('\\' ∈ t) = true ∨ '\\' ∈ ts := by
        simp [hs.backslash_notMem, hu.backslash_notMem]
      rw [propext hmem]
      refine ⟨_, ?_, hborrowed.cons start stop v _⟩
      have hcomma : Utf8.encodeChars (',' :: ts) = 0x2C :: Utf8.encodeChars ts := rfl
      simpa [Utf8.encodeChars_append, hcomma, Nat.add_assoc, Nat.add_comm, Nat.add_left_comm] using hreads

theorem encode_brackets (s t u : List Char) : Utf8.encodeChars (s ++ '[' :: t ++ ']' :: u) =
    Utf8.encodeChars s ++ 0x5B :: (Utf8.encodeChars t ++ 0x5D :: Utf8.encodeChars u) := by
  rw [List.append_assoc, Utf8.encodeChars_append, List.cons_append, Utf8.encodeChars_cons,
    Utf8.encodeChars_append]
  rfl

/-- **The tree of every spelling of a list** is a list of its strings, and only blanks stand after it. -/
theorem of_spelling {ts : List Char} {vs : List String} (h : OfList ts vs) :
    ∃ start ns stop u, Outline.of (Utf8.encodeChars ts) =
        ⟨.array start ns (.closed stop), ⟨stop, Utf8.encodeChars u⟩⟩ ∧ Blanks u ∧
      Borrowed ('\\' ∈ ts) vs (Decoder.items .plainText ns) := by
  cases h with
  | @empty s t u hs ht hu =>
      have hmem : '\\' ∈ s ++ '[' :: t ++ ']' :: u ↔ False := by
        simp [hs.backslash_notMem, ht.backslash_notMem, hu.backslash_notMem]
      rw [propext hmem, Outline.of, Cursor.start, encode_brackets]
      generalize 2 * List.length _ = bound
      rw [value_bracket hs (firstItem_bracket ht bound _ _)]
      exact ⟨_, _, _, _, rfl, hu, Borrowed.nil⟩
  | @items s ts u vs hs hts hu =>
      have hmem : '\\' ∈ s ++ '[' :: ts ++ ']' :: u ↔ '\\' ∈ ts := by
        simp [hs.backslash_notMem, hu.backslash_notMem]
      -- the bound of the descent is twice the length of the text, so there are never too many items
      have hbound : vs.length ≤ 2 * (Utf8.encodeChars (s ++ '[' :: ts ++ ']' :: u)).length := by
        have hitems := hts.length_le
        have hchars := Utf8.length_le_encodeChars (s ++ '[' :: ts ++ ']' :: u)
        simp only [List.length_append, List.length_cons] at hchars
        omega
      rw [propext hmem, Outline.of, Cursor.start]
      generalize 2 * List.length _ = bound at hbound
      obtain ⟨ns, hreads, hborrowed⟩ := itemsAt_spelling hts (Utf8.encodeChars u) bound
        (0 + (Utf8.encodeChars s).length + 1) hbound
      rw [encode_brackets, value_bracket hs (firstItem_of_itemsAt hreads)]
      exact ⟨_, _, _, _, rfl, hu, hborrowed⟩

end Outline

/-- **Every spelling of a list is read as this list**, unless it has an escape. -/
theorem read_spelling {ts : List Char} {vs : List String} (h : Spelling.OfList ts vs) :
    Borrowed ('\\' ∈ ts) vs (read (Decoder.list .plainText) (Utf8.encodeChars ts)) := by
  obtain ⟨start, ns, stop, u, hof, hu, hok, herror⟩ := Outline.of_spelling h
  have hblank : Cursor.skipBlank ⟨stop, Utf8.encodeChars u⟩ =
      ⟨stop + (Utf8.encodeChars u).length, []⟩ := by
    simpa using Cursor.skipBlank_blanks hu stop [] (by simp)
  constructor
  · intro hnone
    simp [read, hof, Decoder.list, hok hnone, Tail.read, hblank]
  · intro hsome
    obtain ⟨f, hf⟩ := herror hsome
    exact ⟨f, by simp [read, hof, Decoder.list, hf]⟩

end Json

namespace Constraint

/-- **Who is in a list that is written as JSON**: the strings of the list, and nobody if it is written
with an escape. -/
theorem textInList_spelling {text : String} {vs : List String}
    (h : Json.Spelling.OfList text.toList vs) (v : String) :
    textInList text v = decide (v ∈ vs ∧ '\\' ∉ text.toList) := by
  obtain ⟨hok, herror⟩ := Json.read_spelling h
  by_cases hslash : '\\' ∈ text.toList
  · obtain ⟨f, hf⟩ := herror hslash
    simp [textInList, Json.decode, Utf8.encode, hf, hslash]
  · simp [textInList, Json.decode, Utf8.encode, hok hslash, hslash]

/-- A constraint on a property that holds a text and one on the identifier test alike. -/
theorem holds_of_text {c : Constraint} (hkind : c.kind = .string ∨ c.kind = .entity) (e : Entity) :
    c.holds e = .ok (textHolds c.operator c.value (c.subject e)) := by
  rcases hkind with h | h <;> rw [holds, h]

/-- The operator that asks for somebody in a list. -/
theorem holds_isoneof {c : Constraint} {e : Entity} (hkind : c.kind = .string ∨ c.kind = .entity)
    (hsubject : c.subject e ≠ "") (h : c.operator = "isoneof") :
    c.holds e = .ok (textInList c.value (c.subject e)) := by
  rw [holds_of_text hkind, h]
  simp [textHolds, hsubject]

/-- The operator that asks for somebody outside of a list. -/
theorem holds_isnotoneof {c : Constraint} {e : Entity} (hkind : c.kind = .string ∨ c.kind = .entity)
    (hsubject : c.subject e ≠ "") (h : c.operator = "isnotoneof") :
    c.holds e = .ok (!textInList c.value (c.subject e)) := by
  rw [holds_of_text hkind, h]
  simp [textHolds, hsubject]

/-- **When the two operators on lists mean what they say**: exactly if the list is written without an
escape, or the value is not in it anyway. -/
theorem membership_iff {c : Constraint} {e : Entity} {vs : List String}
    (hkind : c.kind = .string ∨ c.kind = .entity) (hsubject : c.subject e ≠ "")
    (hlist : Json.Spelling.OfList c.value.toList vs) :
    (c.operator = "isoneof" →
      (c.holds e = .ok (decide (c.subject e ∈ vs)) ↔ '\\' ∉ c.value.toList ∨ c.subject e ∉ vs)) ∧
    (c.operator = "isnotoneof" →
      (c.holds e = .ok (decide (c.subject e ∉ vs)) ↔ '\\' ∉ c.value.toList ∨ c.subject e ∉ vs)) := by
  have hin := textInList_spelling hlist (c.subject e)
  constructor
  · intro hop
    rw [holds_isoneof hkind hsubject hop, hin, Except.ok.injEq, decide_eq_decide,
      and_iff_left_iff_imp, imp_iff_or_not]
  · intro hop
    rw [holds_isnotoneof hkind hsubject hop, hin, Except.ok.injEq, ← decide_not, decide_eq_decide,
      not_iff_not, and_iff_left_iff_imp, imp_iff_or_not]

/-- Under a list without escapes nothing is amiss. -/
theorem membership_iff_plain :
    let c : Constraint := ⟨.string, "plan", "isnotoneof", " [\"free\" ]"⟩
    let e : Entity := ⟨"e", ⟨[("plan", "pro")]⟩⟩
    (c.kind = .string ∨ c.kind = .entity) ∧ c.subject e ≠ "" ∧
      Json.Spelling.OfList c.value.toList ["free"] ∧
      (c.holds e = .ok (decide (c.subject e ∉ ["free"])) ↔
        '\\' ∉ c.value.toList ∨ c.subject e ∉ ["free"]) := by
  intro c e
  have hkind : c.kind = .string ∨ c.kind = .entity := Or.inl rfl
  have hsubject : c.subject e ≠ "" := by decide
  have htext : c.value.toList =
      [' '] ++ '[' :: ([] ++ ('"' :: "free".toList ++ ['"']) ++ [' ']) ++ ']' :: [] := by decide
  have hlist : Json.Spelling.OfList c.value.toList ["free"] := by
    rw [htext]
    exact .items (by decide) (.last (by decide) (.of (.plain (by decide))) (by decide)) (by decide)
  exact ⟨hkind, hsubject, hlist, (membership_iff hkind hsubject hlist).2 rfl⟩

/-- **One escape in a list empties it**: a member that is written without one is not found either, and
passes for somebody outside of the list. -/
theorem holds_isoneof_escaped :
    let c : Constraint := ⟨.string, "p", "isoneof", "[\"a\",\"x\\n\"]"⟩
    let e : Entity := ⟨"user-1", ⟨[("p", "a")]⟩⟩
    Json.Spelling.OfList c.value.toList ["a", "x\n"] ∧ c.subject e ∈ ["a", "x\n"] ∧
      c.holds e = .ok false ∧ { c with operator := "isnotoneof" }.holds e = .ok true := by
  intro c e
  have htext : c.value.toList = [] ++ '[' :: ([] ++ ('"' :: ['a'] ++ ['"']) ++ [] ++
      ',' :: ([] ++ ('"' :: (['x'] ++ (['\\', 'n'] ++ [])) ++ ['"']) ++ [])) ++ ']' :: [] := by
    decide
  have hescaped : Json.Spelling.OfChars (['x'] ++ (['\\', 'n'] ++ [])) "x\n".toList :=
    .cons (.plain (by decide)) (.cons (.short (by decide)) .nil)
  have hlist : Json.Spelling.OfList c.value.toList ["a", "x\n"] := by
    rw [htext]
    exact .items (by decide) (.cons (by decide) (.of (.plain (by decide))) (by decide)
      (.last (by decide) (.of hescaped) (by decide))) (by decide)
  exact ⟨hlist, by decide, by decide +kernel, by decide +kernel⟩

end Constraint

end FeatureFlags
