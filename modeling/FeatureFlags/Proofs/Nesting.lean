/-
**How deep lists and objects are nested in a text.**

The brackets of a text can be counted without reading it: one goes over the characters, and all that has to
be known is whether the next one stands inside of a string.  In a well-formed text the brackets come in
pairs, so the count of those that are open is the same behind a value as before it, and the most that were
open in between say how deep the value is nested.  It is the depth of the tree that is found of the text.

Main definitions:

* `Json.Node.depth` — how deep lists and objects are nested in a tree of places;
* `Json.Spelling.deepest`, `Json.Spelling.nesting` — **how deep brackets are nested in a text**;
* `Json.Spelling.Balanced` — a text that closes the brackets it opens.

Main results:

* `Json.Spelling.Balanced.append`, `Json.Spelling.Balanced.enclosed` — balanced texts in a row, and one
  between two brackets;
* `Json.Outline.foundValue_depth` — **the tree of a well-formed text is as deep as its brackets are
  nested.**
-/
import FeatureFlags.Proofs.WellFormed

set_option autoImplicit false

namespace FeatureFlags.Json

/-! ### The depth of a tree -/

mutual

/-- How deep lists and objects are nested in a tree of places. -/
def Node.depth : Node → Nat
  | .array _ ns _ => depthOfItems ns + 1
  | .object _ fs _ => depthOfMembers fs + 1
  | .null _ _ | .bool _ _ _ | .number _ _ _ | .string _ _ _ | .broken _ _ _ => 0

/-- The greatest depth among some items. -/
def depthOfItems : List Node → Nat
  | [] => 0
  | n :: ns => max n.depth (depthOfItems ns)

/-- The greatest depth among the values of some members. -/
def depthOfMembers : List (Field Node) → Nat
  | [] => 0
  | ⟨_, n, _⟩ :: fs => max n.depth (depthOfMembers fs)

end

theorem depth_le_of_mem_items {n : Node} {ns : List Node} (h : n ∈ ns) : n.depth ≤ depthOfItems ns := by
  induction ns with
  | nil => cases h
  | cons k ns ih =>
      rw [depthOfItems]
      rcases List.mem_cons.1 h with rfl | h
      · exact Nat.le_max_left ..
      · exact Nat.le_trans (ih h) (Nat.le_max_right ..)

namespace Spelling

/-! ### Counting brackets -/

/-- Where a character stands: outside of strings, inside of one, or inside of one behind a backslash. -/
inductive Place where
  | outside
  | inside
  | escaped

/-- The most brackets that are open at one time, if so many are open before these characters. -/
def deepest : Place → Nat → List Char → Nat
  | _, n, [] => n
  | .outside, n, c :: s =>
    if c = '"' then deepest .inside n s
    else if c = '[' ∨ c = '\x7b' then deepest .outside (n + 1) s
    else if c = ']' ∨ c = '\x7d' then max n (deepest .outside (n - 1) s)
    else deepest .outside n s
  | .inside, n, c :: s =>
    if c = '"' then deepest .outside n s
    else if c = '\\' then deepest .escaped n s
    else deepest .inside n s
  | .escaped, n, _ :: s => deepest .inside n s

/-- **How deep brackets are nested in a text**, those inside of strings apart. -/
def nesting (s : List Char) : Nat := deepest .outside 0 s

theorem le_deepest (p : Place) (n : Nat) (s : List Char) : n ≤ deepest p n s := by
  induction s generalizing p n with
  | nil => simp [deepest]
  | cons c s ih =>
      cases p with
      | outside =>
          rw [deepest]
          split
          · exact ih ..
          · split
            · exact Nat.le_of_succ_le (ih .outside (n + 1))
            · split
              · exact Nat.le_max_left ..
              · exact ih ..
      | inside =>
          rw [deepest]
          split
          · exact ih ..
          · split <;> exact ih ..
      | escaped => exact ih ..

/-- This text closes the brackets that it opens, which are nested so deep. -/
def Balanced (s : List Char) (m : Nat) : Prop :=
  ∀ n rest, deepest .outside n (s ++ rest) = max (n + m) (deepest .outside n rest)

/-- A character that is no mark and no bracket. -/
def Neutral (c : Char) : Prop := c ∉ ['"', '[', ']', '\x7b', '\x7d']

instance : DecidablePred Neutral := fun c =>
  inferInstanceAs (Decidable (c ∉ ['"', '[', ']', '\x7b', '\x7d']))

namespace Balanced

variable {s t : List Char} {m k : Nat}

theorem nesting_eq (h : Balanced s m) : nesting s = m := by
  have hs := h 0 []
  rw [List.append_nil] at hs
  rw [nesting, hs, deepest]
  omega

theorem nil : Balanced [] 0 := by
  intro n rest
  rw [List.nil_append, Nat.add_zero, Nat.max_eq_right (le_deepest ..)]

/-- **Balanced texts in a row.** -/
theorem append (h : Balanced s m) (h' : Balanced t k) : Balanced (s ++ t) (max m k) := by
  intro n rest
  rw [List.append_assoc, h, h']
  omega

/-- A text without marks and brackets. -/
theorem of_neutral (h : ∀ c ∈ s, Neutral c) : Balanced s 0 := by
  induction s with
  | nil => exact .nil
  | cons c s ih =>
      obtain ⟨hc, hs⟩ := List.forall_mem_cons.1 h
      simp only [Neutral, List.mem_cons, List.not_mem_nil, or_false, not_or] at hc
      obtain ⟨hquote, hlist, hlistEnd, hobject, hobjectEnd⟩ := hc
      intro n rest
      rw [List.cons_append, deepest, if_neg hquote, if_neg (not_or.2 ⟨hlist, hobject⟩),
        if_neg (not_or.2 ⟨hlistEnd, hobjectEnd⟩)]
      exact ih hs n rest

/-- **A balanced text between two brackets.** -/
theorem enclosed (h : Balanced s m) {a b : Char} (ha : a = '[' ∨ a = '\x7b') (hb : b = ']' ∨ b = '\x7d') :
    Balanced (a :: s ++ [b]) (m + 1) := by
  have hopen : a ≠ '"' := by rcases ha with rfl | rfl <;> decide
  have hclose : b ≠ '"' ∧ ¬(b = '[' ∨ b = '\x7b') := by rcases hb with rfl | rfl <;> decide
  intro n rest
  rw [List.cons_append, List.cons_append, List.append_assoc, List.singleton_append, deepest, if_neg hopen,
    if_pos ha, h, deepest, if_neg hclose.1, if_neg hclose.2, if_pos hb, Nat.add_sub_cancel]
  omega

end Balanced

/-! ### Strings -/

/-- Behind these characters one is inside of a string if one was so before. -/
def Quiet (s : List Char) : Prop := ∀ n rest, deepest .inside n (s ++ rest) = deepest .inside n rest

namespace Quiet

variable {s t : List Char}

theorem nil : Quiet [] := fun _ _ => rfl

theorem append (h : Quiet s) (h' : Quiet t) : Quiet (s ++ t) := by
  intro n rest
  rw [List.append_assoc, h, h']

theorem plain {c : Char} (hquote : c ≠ '"') (hslash : c ≠ '\\') : Quiet [c] := by
  intro n rest
  rw [List.singleton_append, deepest, if_neg hquote, if_neg hslash]

theorem escape (l : Char) : Quiet ['\\', l] := by
  intro n rest
  rw [List.cons_append, List.singleton_append, deepest, if_neg (by decide), if_pos rfl, deepest]

theorem of_fourDigits {n : Nat} (h : FourDigits s n) : Quiet s := by
  have hdigit : ∀ {c : Char} {n : Nat}, HexDigit c n → Quiet [c] := by
    rintro c n ⟨hn, hc⟩
    have hall : ∀ n < 16, (n.digitChar ≠ '"' ∧ n.digitChar ≠ '\\') ∧
        n.digitChar.toUpper ≠ '"' ∧ n.digitChar.toUpper ≠ '\\' := by decide
    rcases hc with rfl | rfl
    · exact plain (hall n hn).1.1 (hall n hn).1.2
    · exact plain (hall n hn).2.1 (hall n hn).2.2
  obtain ⟨ha, hb, hc, hd⟩ := h
  exact (hdigit ha).append ((hdigit hb).append ((hdigit hc).append (hdigit hd)))

theorem of_unit {n : Nat} (h : FourDigits s n) : Quiet ('\\' :: 'u' :: s) :=
  (escape 'u').append (of_fourDigits h)

theorem of_char {c : Char} (h : OfChar s c) : Quiet s := by
  cases h with
  | plain h => exact plain h.2.1 h.2.2
  | short _ => exact escape _
  | unit h _ => exact of_unit h
  | pair h h' _ _ _ _ => exact (of_unit h).append (of_unit h')

theorem of_inside (h : Inside s) : Quiet s := by
  induction h with
  | nil => exact nil
  | char hc _ ih => exact (of_char hc).append ih
  | unit hds _ ih => exact (of_unit hds).append ih

end Quiet

/-- What stands inside of a string does not count. -/
theorem Balanced.quoted {s : List Char} (h : Inside s) : Balanced ('"' :: s ++ ['"']) 0 := by
  intro n rest
  rw [List.cons_append, List.cons_append, List.append_assoc, List.singleton_append, deepest, if_pos rfl,
    Quiet.of_inside h, deepest, if_pos rfl, Nat.add_zero, Nat.max_eq_right (le_deepest ..)]

/-! ### Blanks and numbers -/

theorem Balanced.blanks {s : List Char} (h : Blanks s) : Balanced s 0 := by
  refine of_neutral fun c hc => ?_
  rcases h c hc with rfl | rfl | rfl | rfl <;> decide

/-- Balanced texts with a comma between them. -/
theorem Balanced.comma {s t : List Char} {m k : Nat} (h : Balanced s m) (h' : Balanced t k) :
    Balanced (s ++ ',' :: t) (max m k) := by
  have hcomma : Balanced [','] 0 := .of_neutral (by simp [Neutral])
  simpa using h.append (hcomma.append h')

/-- The name of a member does not count. -/
theorem Balanced.member {s k t u : List Char} {m : Nat} (hs : Blanks s) (hk : Inside k) (ht : Blanks t)
    (h : Balanced u m) : Balanced (s ++ ('"' :: k ++ ['"']) ++ t ++ ':' :: u) m := by
  have hcolon : Balanced [':'] 0 := .of_neutral (by simp [Neutral])
  simpa using (((Balanced.blanks hs).append (.quoted hk)).append (.blanks ht)).append (hcolon.append h)

theorem Balanced.numeral {s : List Char} {n : Numeral} (h : OfNumeral s n) : Balanced s 0 := by
  have hdigits : ∀ {s ds}, OfDigits s ds → Balanced s 0 := by
    intro s ds h
    obtain ⟨-, hds, rfl⟩ := ofDigits_iff.1 h
    refine of_neutral fun c hc => ?_
    obtain ⟨d, hd, rfl⟩ := List.mem_map.1 hc
    have hall : ∀ d < 10, Neutral d.digitChar := by decide
    exact hall d (hds d hd)
  have hchars : ∀ {s t ds}, (∀ c ∈ s, Neutral c) → OfDigits t ds → Balanced (s ++ t) 0 :=
    fun hs ht => (of_neutral hs).append (hdigits ht)
  have hfraction : ∀ {s f}, OfFraction s f → Balanced s 0 := by
    rintro s f (_ | h)
    · exact .nil
    · exact hchars (s := ['.']) (by simp [Neutral]) h
  have hexponent : ∀ {s e}, OfExponent s e → Balanced s 0 := by
    rintro s e (_ | ⟨rfl | rfl, h⟩ | ⟨rfl | rfl, h⟩ | ⟨rfl | rfl, h⟩)
    · exact .nil
    · exact hchars (s := ['e']) (by simp [Neutral]) h
    · exact hchars (s := ['E']) (by simp [Neutral]) h
    · exact hchars (s := ['e', '+']) (by simp [Neutral]) h
    · exact hchars (s := ['E', '+']) (by simp [Neutral]) h
    · exact hchars (s := ['e', '-']) (by simp [Neutral]) h
    · exact hchars (s := ['E', '-']) (by simp [Neutral]) h
  cases h with
  | positive hw hf he => exact ((hdigits hw.ofDigits).append (hfraction hf)).append (hexponent he)
  | negative hw hf he =>
      have hminus := hchars (s := ['-']) (by simp [Neutral]) hw.ofDigits
      exact (hminus.append (hfraction hf)).append (hexponent he)

end Spelling

/-! ### What is found of a text -/

namespace Outline

open Spelling

/-- What is found of a text, wherever the text stands, is so deep. -/
def Deep : Shape → List Char → Nat → Prop
  | .value, s, m => FoundValue s (·.depth = m)
  | .items, s, m => FoundItems s (depthOfItems · = m)
  | .members, s, m => FoundMembers s (depthOfMembers · = m)

/-- What is found of a text is as deep as the brackets are nested that the text opens and closes. -/
theorem exists_balanced_deep {shape : Shape} {s : List Char} (h : WellFormed shape s) :
    ∃ m, Balanced s m ∧ Deep shape s m := by
  induction h with
  | blanks hs _ hu ih =>
      obtain ⟨m, hbalanced, hdeep⟩ := ih
      refine ⟨m, ?_, foundValue_blanks hs hu hdeep⟩
      simpa using ((Balanced.blanks hs).append hbalanced).append (.blanks hu)
  | null => exact ⟨0, .of_neutral (by simp [Neutral]), foundValue_null fun _ _ => rfl⟩
  | true => exact ⟨0, .of_neutral (by simp [Neutral]), foundValue_true fun _ _ => rfl⟩
  | false => exact ⟨0, .of_neutral (by simp [Neutral]), foundValue_false fun _ _ => rfl⟩
  | number h => exact ⟨0, .numeral h, foundValue_number h fun _ _ _ => rfl⟩
  | string h =>
      obtain ⟨_, hpasses⟩ := Scan.exists_passes h
      exact ⟨0, .quoted h, foundValue_quoted (.of_passes hpasses) fun _ _ _ _ => rfl⟩
  | noItems hs =>
      exact ⟨1, (Balanced.blanks hs).enclosed (.inl rfl) (.inl rfl),
        foundValue_noItems hs fun _ _ => rfl⟩
  | array _ ih =>
      obtain ⟨m, hbalanced, hdeep⟩ := ih
      refine ⟨m + 1, hbalanced.enclosed (.inl rfl) (.inl rfl), foundValue_array hdeep ?_⟩
      rintro _ ns _ rfl
      rfl
  | lastItem _ ih =>
      obtain ⟨m, hbalanced, hdeep⟩ := ih
      refine ⟨m, hbalanced, foundItems_last hdeep ?_⟩
      rintro n rfl
      exact Nat.max_zero _
  | item _ _ ih ih' =>
      obtain ⟨m, hbalanced, hdeep⟩ := ih
      obtain ⟨k, hbalanced', hdeep'⟩ := ih'
      refine ⟨max m k, ?_, foundItems_cons hdeep hdeep' ?_⟩
      · exact hbalanced.comma hbalanced'
      · rintro n ns rfl rfl
        rfl
  | noMembers hs =>
      exact ⟨1, (Balanced.blanks hs).enclosed (.inr rfl) (.inr rfl),
        foundValue_noMembers hs fun _ _ => rfl⟩
  | object _ ih =>
      obtain ⟨m, hbalanced, hdeep⟩ := ih
      refine ⟨m + 1, hbalanced.enclosed (.inr rfl) (.inr rfl), foundValue_object hdeep ?_⟩
      rintro _ fs _ rfl
      rfl
  | lastMember hs hk ht _ ih =>
      obtain ⟨m, hbalanced, hdeep⟩ := ih
      obtain ⟨_, hpasses⟩ := Scan.exists_passes hk
      refine ⟨m, .member hs hk ht hbalanced, foundMembers_last hs (.of_passes hpasses)
        (K := fun _ => True) (fun _ _ => trivial) ht hdeep ?_⟩
      rintro key n next - rfl
      exact Nat.max_zero _
  | member hs hk ht _ _ ih ih' =>
      obtain ⟨m, hbalanced, hdeep⟩ := ih
      obtain ⟨k, hbalanced', hdeep'⟩ := ih'
      obtain ⟨_, hpasses⟩ := Scan.exists_passes hk
      refine ⟨max m k, (Balanced.member hs hk ht hbalanced).comma hbalanced',
        foundMembers_cons hs (.of_passes hpasses) (K := fun _ => True) (fun _ _ => trivial) ht hdeep
          hdeep' ?_⟩
      rintro key n next fs - rfl rfl
      rfl

/-- **The tree of a well-formed text is as deep as the brackets of the text are nested**, wherever the text
stands. -/
theorem foundValue_depth {s : List Char} (h : WellFormed .value s) :
    FoundValue s (·.depth = nesting s) := by
  obtain ⟨m, hbalanced, hdeep⟩ := exists_balanced_deep h
  rw [hbalanced.nesting_eq]
  exact hdeep

end Outline

end FeatureFlags.Json
