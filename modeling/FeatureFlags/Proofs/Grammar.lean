/-
**JSON texts and their trees.**

A tree says what a JSON text holds: a name, a number by its digits, a string by its characters, a list by
its items and an object by its members, in the order in which they stand.  The relations below are the
grammar of JSON: they say which texts spell a tree, with their blanks, commas and marks, and without regard
to how a text is read or written.

Control characters have no place in strings and numerals.  A few of them may stand as blanks around a tree,
but none of these is a zero, and so in a text that spells a tree no character is one.

Main definitions:

* `Json.Tree` — what a text holds;
* `Json.Spelling.OfNumeral`, `Json.Spelling.OfPart`, `Json.Spelling.OfTree` — **the grammar**;
* `Json.Spelling.Visible` — characters of which none is a control character.

Main results:

* `Json.Spelling.ofDigits_iff` — which texts are digits;
* `Json.Spelling.OfString.visible`, `Json.Spelling.OfNumeral.visible` — no control character stands in a
  string or in a numeral;
* `Json.Spelling.OfPart.zero_notMem` — **no zero character stands in a text.**
-/
import FeatureFlags.Json.Value
import FeatureFlags.Proofs.Spelling

set_option autoImplicit false

namespace FeatureFlags.Json

/-- What a JSON text holds. -/
inductive Tree where
  | null
  | bool (value : Bool)
  | number (numeral : Numeral)
  | string (text : String)
  | array (items : List Tree)
  | object (members : List (String × Tree))

/-! ### The grammar -/

namespace Spelling

/-- One or more decimal digits. -/
inductive OfDigits : List Char → List Nat → Prop
  | last {d : Nat} : d < 10 → OfDigits [d.digitChar] [d]
  | cons {s : List Char} {d : Nat} {ds : List Nat} : d < 10 → OfDigits s ds →
      OfDigits (d.digitChar :: s) (d :: ds)

/-- The whole part of a number: a zero, or digits that do not begin with one. -/
inductive OfWhole : List Char → List Nat → Prop
  | zero : OfWhole ['0'] [0]
  | digits {s : List Char} {d : Nat} {ds : List Nat} : d ≠ 0 → OfDigits s (d :: ds) →
      OfWhole s (d :: ds)

/-- The fraction of a number, if it has one. -/
inductive OfFraction : List Char → Option (List Nat) → Prop
  | none : OfFraction [] none
  | some {s : List Char} {ds : List Nat} : OfDigits s ds → OfFraction ('.' :: s) (some ds)

/-- The exponent of a number, if it has one. -/
inductive OfExponent : List Char → Option (Bool × List Nat) → Prop
  | none : OfExponent [] none
  | unsigned {e : Char} {s : List Char} {ds : List Nat} : e = 'e' ∨ e = 'E' → OfDigits s ds →
      OfExponent (e :: s) (some (false, ds))
  | plus {e : Char} {s : List Char} {ds : List Nat} : e = 'e' ∨ e = 'E' → OfDigits s ds →
      OfExponent (e :: '+' :: s) (some (false, ds))
  | minus {e : Char} {s : List Char} {ds : List Nat} : e = 'e' ∨ e = 'E' → OfDigits s ds →
      OfExponent (e :: '-' :: s) (some (true, ds))

/-- The spellings of a number. -/
inductive OfNumeral : List Char → Numeral → Prop
  | positive {s t u : List Char} {whole : List Nat} {fraction : Option (List Nat)}
      {exponent : Option (Bool × List Nat)} : OfWhole s whole → OfFraction t fraction →
      OfExponent u exponent → OfNumeral (s ++ t ++ u) ⟨false, whole, fraction, exponent⟩
  | negative {s t u : List Char} {whole : List Nat} {fraction : Option (List Nat)}
      {exponent : Option (Bool × List Nat)} : OfWhole s whole → OfFraction t fraction →
      OfExponent u exponent → OfNumeral ('-' :: s ++ t ++ u) ⟨true, whole, fraction, exponent⟩

/-- What a part of a text may hold: a tree, or the items or members between two brackets. -/
inductive Part where
  | tree (t : Tree)
  | items (ts : List Tree)
  | members (ms : List (String × Tree))

/-- The spellings of a part.  Blanks may stand around every tree and around the name of a member. -/
inductive OfPart : List Char → Part → Prop
  | blanks {s t u : List Char} {v : Tree} : Blanks s → OfPart t (.tree v) → Blanks u →
      OfPart (s ++ t ++ u) (.tree v)
  | null : OfPart ['n', 'u', 'l', 'l'] (.tree .null)
  | true : OfPart ['t', 'r', 'u', 'e'] (.tree (.bool true))
  | false : OfPart ['f', 'a', 'l', 's', 'e'] (.tree (.bool false))
  | number {s : List Char} {n : Numeral} : OfNumeral s n → OfPart s (.tree (.number n))
  | string {s : List Char} {v : String} : OfString s v → OfPart s (.tree (.string v))
  | noItems {s : List Char} : Blanks s → OfPart ('[' :: s ++ [']']) (.tree (.array []))
  | array {s : List Char} {ts : List Tree} : OfPart s (.items ts) →
      OfPart ('[' :: s ++ [']']) (.tree (.array ts))
  | lastItem {s : List Char} {v : Tree} : OfPart s (.tree v) → OfPart s (.items [v])
  | item {s t : List Char} {v : Tree} {vs : List Tree} : OfPart s (.tree v) → OfPart t (.items vs) →
      OfPart (s ++ ',' :: t) (.items (v :: vs))
  | noMembers {s : List Char} : Blanks s → OfPart ('\x7b' :: s ++ ['\x7d']) (.tree (.object []))
  | object {s : List Char} {ms : List (String × Tree)} : OfPart s (.members ms) →
      OfPart ('\x7b' :: s ++ ['\x7d']) (.tree (.object ms))
  | lastMember {s k t u : List Char} {name : String} {v : Tree} : Blanks s → OfString k name →
      Blanks t → OfPart u (.tree v) → OfPart (s ++ k ++ t ++ ':' :: u) (.members [(name, v)])
  | member {s k t u rest : List Char} {name : String} {v : Tree} {ms : List (String × Tree)} :
      Blanks s → OfString k name → Blanks t → OfPart u (.tree v) → OfPart rest (.members ms) →
      OfPart (s ++ k ++ t ++ ':' :: u ++ ',' :: rest) (.members ((name, v) :: ms))

/-- The texts that hold a tree. -/
def OfTree (s : List Char) (t : Tree) : Prop := OfPart s (.tree t)

/-! ### Digits -/

theorem ofDigits_iff {s : List Char} {ds : List Nat} :
    OfDigits s ds ↔ ds ≠ [] ∧ (∀ d ∈ ds, d < 10) ∧ s = ds.map Nat.digitChar := by
  constructor
  · intro h
    induction h with
    | last hd => simpa using hd
    | cons hd _ ih =>
        obtain ⟨-, hds, rfl⟩ := ih
        exact ⟨List.cons_ne_nil _ _, List.forall_mem_cons.2 ⟨hd, hds⟩, rfl⟩
  · rintro ⟨hne, hds, rfl⟩
    induction ds with
    | nil => exact absurd rfl hne
    | cons d ds ih =>
        rw [List.forall_mem_cons] at hds
        cases ds with
        | nil => exact .last hds.1
        | cons e ds => exact .cons hds.1 (ih (List.cons_ne_nil _ _) hds.2)

theorem OfDigits.ne_nil {s : List Char} {ds : List Nat} (h : OfDigits s ds) : s ≠ [] := by
  cases h with
  | last _ => exact List.cons_ne_nil _ _
  | cons _ _ => exact List.cons_ne_nil _ _

theorem OfDigits.zero : OfDigits ['0'] [0] := .last (d := 0) (by decide)

theorem OfDigits.append {s t : List Char} {ds es : List Nat} (h : OfDigits s ds) (h' : OfDigits t es) :
    OfDigits (s ++ t) (ds ++ es) := by
  induction h with
  | last hd => exact .cons hd h'
  | cons hd _ ih => exact .cons hd ih

/-! ### No control characters -/

/-- No control characters, and so a single line. -/
def Visible (s : List Char) : Prop := ∀ c ∈ s, 0x20 ≤ c.toNat

@[simp] theorem visible_nil : Visible [] := fun _ h => nomatch h

@[simp] theorem visible_cons {c : Char} {s : List Char} :
    Visible (c :: s) ↔ 0x20 ≤ c.toNat ∧ Visible s := List.forall_mem_cons

@[simp] theorem visible_append {s t : List Char} : Visible (s ++ t) ↔ Visible s ∧ Visible t :=
  List.forall_mem_append

section

variable {s : List Char}

theorem Visible.notMem (h : Visible s) {c : Char} (hc : c.toNat < 0x20) : c ∉ s :=
  fun hmem => Nat.not_le.2 hc (h c hmem)

theorem FourDigits.visible {n : Nat} (h : FourDigits s n) : Visible s := by
  have hdigit : ∀ {c : Char} {n : Nat}, HexDigit c n → 0x20 ≤ c.toNat := by
    rintro c n ⟨hn, rfl | rfl⟩
    · revert n
      decide
    · revert n
      decide
  obtain ⟨ha, hb, hc, hd⟩ := h
  simp [hdigit ha, hdigit hb, hdigit hc, hdigit hd]

theorem OfChar.visible {c : Char} (h : OfChar s c) : Visible s := by
  cases h with
  | plain h => simpa using h.1
  | short h =>
      have hletters : ∀ e ∈ shortEscapes, 0x20 ≤ e.1.toNat := by decide
      simpa using hletters _ h
  | unit h _ => simpa using h.visible
  | pair h h' _ _ _ _ => simpa using And.intro h.visible h'.visible

theorem OfChars.visible {cs : List Char} (h : OfChars s cs) : Visible s := by
  induction h with
  | nil => exact visible_nil
  | cons h _ ih => exact visible_append.2 ⟨h.visible, ih⟩

theorem OfString.visible {v : String} (h : OfString s v) : Visible s := by
  obtain ⟨h⟩ := h
  simpa using h.visible

theorem OfDigits.visible {ds : List Nat} (h : OfDigits s ds) : Visible s := by
  have hdigit : ∀ d < 10, 0x20 ≤ d.digitChar.toNat := by decide
  induction h with
  | last hd => simpa using hdigit _ hd
  | cons hd _ ih => exact visible_cons.2 ⟨hdigit _ hd, ih⟩

theorem OfNumeral.visible {n : Numeral} (h : OfNumeral s n) : Visible s := by
  have hwhole : ∀ {s ds}, OfWhole s ds → Visible s := by
    rintro s ds (_ | ⟨_, h⟩)
    · simp
    · exact h.visible
  have hfraction : ∀ {s f}, OfFraction s f → Visible s := by
    rintro s f (_ | h)
    · simp
    · simpa using h.visible
  have hexponent : ∀ {s e}, OfExponent s e → Visible s := by
    rintro s e (_ | ⟨rfl | rfl, h⟩ | ⟨rfl | rfl, h⟩ | ⟨rfl | rfl, h⟩)
    · simp
    all_goals simpa using h.visible
  cases h with
  | positive hw hf he => simp [hwhole hw, hfraction hf, hexponent he]
  | negative hw hf he => simp [hwhole hw, hfraction hf, hexponent he]

theorem Blanks.zero_notMem (h : Blanks s) : '\x00' ∉ s := by
  intro hmem
  rcases h _ hmem with h | h | h | h <;> exact absurd h (by decide)

/-- **No zero character stands in a text that spells something.** -/
theorem OfPart.zero_notMem {p : Part} (h : OfPart s p) : '\x00' ∉ s := by
  induction h with
  | blanks hs _ hu ih => simp [hs.zero_notMem, hu.zero_notMem, ih]
  | null | true | false => decide
  | number h => exact h.visible.notMem (by decide)
  | string h => exact h.visible.notMem (by decide)
  | noItems hs | noMembers hs => simp [hs.zero_notMem]
  | array _ ih | object _ ih => simp [ih]
  | lastItem _ ih => exact ih
  | item _ _ ih ih' => simp [ih, ih']
  | lastMember hs hk ht _ ih =>
      simp [hs.zero_notMem, hk.visible.notMem (c := '\x00') (by decide), ht.zero_notMem, ih]
  | member hs hk ht _ _ ih ih' =>
      simp [hs.zero_notMem, hk.visible.notMem (c := '\x00') (by decide), ht.zero_notMem, ih, ih']

end

end Spelling

end FeatureFlags.Json
