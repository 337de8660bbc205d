/-
**Operators that ask for opposite things.**

Most operators come in pairs: one asks whether two values are equal, the other whether they differ; one asks
for somebody in a list, the other for somebody outside of it.  As long as there is a value, the two operators
of a pair read the same texts in the same order.  So they have the same faults; and where there is none,
exactly one of them is satisfied.

There is one exception.  A number may be spelled as what is *not* a number, and that has no order: it is
different from everything, but neither less than a number nor at least as great.  So neither of two operators
that compare the order of numbers may be satisfied, and this happens exactly for the spellings of that one
special value.

If there is no value, no operator of such a pair is satisfied.  Whether there is one is asked by pairs of
operators of their own, of which exactly one is always satisfied.

Main definitions:

* `Constraint.Opposed`, `Constraint.AsksPresence` — the pairs of operators;
* `Constraint.Split` — both outcomes are a fault, or **exactly one of them is true**;
* `Literal.SpellsNaN`, `Constraint.Unordered` — the spellings of what is not a number, and the numbers that
  an operator finds without an order.

Main results:

* `Relation.Opposed.namedHolds_some` — opposite relations exclude each other between values with an order;
* `Floating.parse_eq_nan_iff` — **which texts are read as what is not a number**;
* `Constraint.split_of_opposed`, `Constraint.neither_of_undecided` — what the operators of a pair come to;
* `Constraint.opposed_unless_unordered` — **opposite operators split every value that has an order.**
-/
import Mathlib.Control.Monad.Basic
import FeatureFlags.Constraint.Holds

set_option autoImplicit false

namespace FeatureFlags

/-! ### Relations -/

/-- The names of two relations of which each is the opposite of the other. -/
inductive Relation.Opposed : String → String → Prop
  | equal : Opposed "eq" "neq"
  | less : Opposed "lt" "gte"
  | greater : Opposed "gt" "lte"

namespace Relation.Opposed

variable {op op' : String}

/-- **Between values that have an order exactly one of two opposite relations holds.** -/
theorem namedHolds_some (h : Opposed op op') (o : Ordering) :
    namedHolds op' (some o) = !namedHolds op (some o) := by
  cases h <;> cases o <;> decide

/-- Values without an order differ, and neither is less or greater. -/
theorem namedHolds_none (h : Opposed op op') :
    namedHolds op none = false ∧ namedHolds op' none = decide (op = "eq") := by
  cases h <;> decide

theorem order_of_ne_eq (h : Opposed op op') (hne : op ≠ "eq") : op = "lt" ∨ op = "gt" := by
  cases h with
  | equal => exact absurd rfl hne
  | less => exact Or.inl rfl
  | greater => exact Or.inr rfl

end Relation.Opposed

/-! ### What is not a number -/

namespace Literal

/-- A text is the name of what is not a number, in any letter case. -/
def NamesNaN (s : List Char) : Prop := s.map Char.toLower = ['n', 'a', 'n']

/-- The spellings of what is not a number: its name, perhaps with a sign before it. -/
inductive SpellsNaN : List Char → Prop
  | plain {name : List Char} : NamesNaN name → SpellsNaN name
  | signed {sign : Char} {name : List Char} : sign = '-' ∨ sign = '+' → NamesNaN name →
      SpellsNaN (sign :: name)

theorem eq_of_toLower {c : Char} (h : c.toLower = 'n') : c = 'n' ∨ c = 'N' := by
  delta Char.toLower at h
  split at h
  · have hval : c.val + ('a'.val - 'A'.val) = 'N'.val + ('a'.val - 'A'.val) := congrArg Char.val h
    exact Or.inr (Char.ext ((UInt32.add_left_inj _).1 hval))
  · exact Or.inl h

/-- The name begins with a letter. -/
theorem NamesNaN.exists_cons {s : List Char} (h : NamesNaN s) : ∃ t, s = 'n' :: t ∨ s = 'N' :: t := by
  cases s with
  | nil => cases h
  | cons c t =>
      rw [NamesNaN, List.map_cons, List.cons.injEq] at h
      refine ⟨t, ?_⟩
      rcases eq_of_toLower h.1 with rfl | rfl
      · exact Or.inl rfl
      · exact Or.inr rfl

theorem NamesNaN.unsigned {s : List Char} (h : NamesNaN s) :
    s ≠ [] ∧ ∀ t, s ≠ '-' :: t ∧ s ≠ '+' :: t := by
  obtain ⟨t, rfl | rfl⟩ := h.exists_cons
  · simp
  · simp

/-- A name has no digits. -/
theorem NamesNaN.decimal?_eq_none {s : List Char} (h : NamesNaN s) : decimal? s = none := by
  obtain ⟨t, rfl | rfl⟩ := h.exists_cons
  · rfl
  · rfl

theorem special?_eq_nan_iff {f : Format} (negative : Bool) (s : List Char) :
    special? negative s = some (.nan : Floating f) ↔ NamesNaN s := by
  rw [special?, NamesNaN]
  split
  · simp_all
  · split <;> simp_all

end Literal

namespace Floating

open Literal (NamesNaN SpellsNaN)

variable {f : Format}

/-- **Only what is not a number has no order.** -/
theorem compare?_eq_none_iff (x y : Floating f) : compare? x y = none ↔ x = .nan ∨ y = .nan := by
  cases x <;> cases y <;> simp [compare?]

theorem round_ne_nan (negative : Bool) (num den : Nat) : (round negative num den : Floating f) ≠ .nan := by
  have hpack : ∀ (m : Nat) (q : Int), (pack negative m q : Floating f) ≠ .nan := by
    intro m q
    rw [pack]
    split <;> simp
  rw [round]
  split
  · simp [zero]
  · dsimp only
    split
    · exact hpack _ _
    · exact hpack _ _

/-- Digits are read as a number. -/
theorem ofDecimal_ne_nan (negative : Bool) (digits : Nat) (exponent : Int) :
    (ofDecimal negative digits exponent : Floating f) ≠ .nan := by
  rw [ofDecimal]
  split
  · simp [zero]
  · dsimp only
    split
    · simp
    · split
      · simp [zero]
      · exact round_ne_nan _ _ _

/-- The number that a text denotes behind its sign. -/
def unsigned (negative : Bool) (s : List Char) : Except Literal.Fault (Floating f) :=
  match Literal.decimal? s with
  | some (digits, exponent) => .ok (ofDecimal negative digits exponent)
  | none =>
    match Literal.special? negative s with
    | some x => .ok x
    | none => .error .malformed

theorem parse_minus (s : List Char) : (parse ('-' :: s) : Except _ (Floating f)) = unsigned true s := rfl

theorem parse_plus (s : List Char) : (parse ('+' :: s) : Except _ (Floating f)) = unsigned false s := rfl

theorem parse_unsigned {s : List Char} (hne : s ≠ []) (hsign : ∀ t, s ≠ '-' :: t ∧ s ≠ '+' :: t) :
    (parse s : Except _ (Floating f)) = unsigned false s := by
  have hempty : ¬s.isEmpty = true := by simpa using hne
  rw [parse, if_neg hempty]
  · rfl
  · exact fun t => (hsign t).1
  · exact fun t => (hsign t).2

theorem unsigned_eq_nan_iff (negative : Bool) (s : List Char) :
    unsigned negative s = .ok (.nan : Floating f) ↔ NamesNaN s := by
  rw [unsigned, ← Literal.special?_eq_nan_iff (f := f) negative]
  cases hdecimal : Literal.decimal? s with
  | some digits =>
      -- what has digits is a number, and so it is not the name either
      refine iff_of_false (fun h => ofDecimal_ne_nan _ _ _ (Except.ok.inj h)) fun h => ?_
      simp [((Literal.special?_eq_nan_iff negative s).1 h).decimal?_eq_none] at hdecimal
  | none =>
      cases hspecial : (Literal.special? negative s : Option (Floating f)) with
      | some x => simp
      | none => simp

/-- **The texts that are read as what is not a number** are its spellings. -/
theorem parse_eq_nan_iff (s : List Char) : parse s = .ok (.nan : Floating f) ↔ SpellsNaN s := by
  constructor
  · intro h
    match s with
    | [] => cases h
    | c :: t =>
        by_cases hminus : c = '-'
        · subst hminus
          rw [parse_minus, unsigned_eq_nan_iff] at h
          exact .signed (Or.inl rfl) h
        · by_cases hplus : c = '+'
          · subst hplus
            rw [parse_plus, unsigned_eq_nan_iff] at h
            exact .signed (Or.inr rfl) h
          · rw [parse_unsigned (by simp) (by simp [hminus, hplus]), unsigned_eq_nan_iff] at h
            exact .plain h
  · intro h
    cases h with
    | plain hname =>
        obtain ⟨hne, hsign⟩ := hname.unsigned
        rw [parse_unsigned hne hsign, unsigned_eq_nan_iff]
        exact hname
    | signed hsign hname =>
        rcases hsign with rfl | rfl
        · rw [parse_minus, unsigned_eq_nan_iff]
          exact hname
        · rw [parse_plus, unsigned_eq_nan_iff]
          exact hname

end Floating

namespace Constraint

/-! ### Pairs of operators -/

/-- The same constraint with another operator. -/
def under (c : Constraint) (operator : String) : Constraint := { c with operator }

@[simp] theorem under_kind (c : Constraint) (operator : String) : (c.under operator).kind = c.kind := rfl

@[simp] theorem under_operator (c : Constraint) (operator : String) :
    (c.under operator).operator = operator := rfl

@[simp] theorem under_value (c : Constraint) (operator : String) : (c.under operator).value = c.value := rfl

@[simp] theorem under_subject (c : Constraint) (operator : String) (e : Entity) :
    (c.under operator).subject e = c.subject e := rfl

/-- Two operators on texts that ask for opposite things. -/
inductive TextOpposed : String → String → Prop
  | equal : TextOpposed "eq" "neq"
  | listed : TextOpposed "isoneof" "isnotoneof"

/-- Two operators on constraints of a kind that ask for opposite things of a value. -/
inductive Opposed : ConstraintKind → String → String → Prop
  | text {kind : ConstraintKind} {op op' : String} : kind = .string ∨ kind = .entity →
      TextOpposed op op' → Opposed kind op op'
  | listed : Opposed .number "isoneof" "isnotoneof"
  | related {kind : ConstraintKind} {op op' : String} : kind = .number ∨ kind = .datetime →
      Relation.Opposed op op' → Opposed kind op op'
  | truth : Opposed .boolean "true" "false"

/-- Two operators on constraints of a kind of which one asks for no value and the other for any. -/
inductive AsksPresence : ConstraintKind → String → String → Prop
  | text {kind : ConstraintKind} : kind = .string ∨ kind = .entity → AsksPresence kind "empty" "notempty"
  | read {kind : ConstraintKind} : kind = .number ∨ kind = .boolean ∨ kind = .datetime →
      AsksPresence kind "notpresent" "present"

/-- Both outcomes are the same fault, or exactly one of them is true. -/
inductive Split : Except ValueFault Bool → Except ValueFault Bool → Prop
  | fault (f : ValueFault) : Split (.error f) (.error f)
  | one (b : Bool) : Split (.ok b) (.ok !b)

/-- What is split behind something that is read is split together with it. -/
theorem Split.bind {α : Type} {x : Except ValueFault α} {g g' : α → Except ValueFault Bool}
    (h : ∀ a, x = .ok a → Split (g a) (g' a)) : Split (x >>= g) (x >>= g') := by
  cases x with
  | error f => exact .fault f
  | ok a => exact h a rfl

/-! ### Texts -/

variable {op op' value v : String}

theorem textHolds_opposed (h : TextOpposed op op') (hv : v ≠ "") :
    textHolds op' value v = !textHolds op value v := by
  cases h with
  | equal => simp [textHolds, hv, bne]
  | listed => simp [textHolds, hv]

theorem textHolds_opposed_empty (value : String) (h : TextOpposed op op') :
    textHolds op value "" = false ∧ textHolds op' value "" = false := by
  cases h <;> simp [textHolds]

/-! ### Values to be read -/

/-- The operator asks for more than whether there is a value. -/
def Inspects (op : String) : Prop := op ≠ "notpresent" ∧ op ≠ "present"

instance (op : String) : Decidable (Inspects op) := inferInstanceAs (Decidable (_ ∧ _))

theorem readHolds_of_inspects (h : Inspects op) (test : Except ValueFault Bool) :
    readHolds op v test = if v.isEmpty then .ok false else test := by
  simp [readHolds, presence?, h.1, h.2]

theorem readHolds_of_ne (h : Inspects op) (hv : v ≠ "") (test : Except ValueFault Bool) :
    readHolds op v test = test := by
  rw [readHolds_of_inspects h, if_neg (by simpa using hv)]

theorem readHolds_empty (h : Inspects op) (test : Except ValueFault Bool) :
    readHolds op "" test = .ok false := by
  simp [readHolds_of_inspects h]

theorem readHolds_presence (v : String) (test test' : Except ValueFault Bool) :
    readHolds "notpresent" v test = .ok v.isEmpty ∧ readHolds "present" v test' = .ok !v.isEmpty :=
  ⟨rfl, rfl⟩

end Constraint

/-- An operator that names a relation asks for more than whether there is a value. -/
theorem Relation.Opposed.inspects {op op' : String} (h : Opposed op op') :
    Constraint.Inspects op ∧ Constraint.Inspects op' := by
  cases h <;> exact ⟨by decide, by decide⟩

namespace Constraint

variable {op op' value v : String}

/-- The test of a number by a relation reads the number and what it is compared with. -/
theorem numberHolds_related (h : Relation.Opposed op op') (hv : v ≠ "") :
    numberHolds op value v = (do
        let x ← number v
        let y ← number value
        return Relation.namedHolds op (x.compare? y)) ∧
      numberHolds op' value v = do
        let x ← number v
        let y ← number value
        return Relation.namedHolds op' (x.compare? y) := by
  rw [numberHolds, numberHolds, readHolds_of_ne h.inspects.1 hv, readHolds_of_ne h.inspects.2 hv]
  cases h <;> exact ⟨rfl, rfl⟩

theorem numberHolds_listed (hv : v ≠ "") :
    Split (numberHolds "isoneof" value v) (numberHolds "isnotoneof" value v) := by
  rw [numberHolds, numberHolds, readHolds_of_ne (by decide) hv, readHolds_of_ne (by decide) hv]
  refine .bind fun x _ => ?_
  change Split (numberInList value x) (numberInList value x >>= fun b => .ok !b)
  cases numberInList value x with
  | error f => exact .fault f
  | ok b => exact .one b

theorem flagHolds_opposed (hv : v ≠ "") : Split (flagHolds "true" v) (flagHolds "false" v) := by
  rw [flagHolds, flagHolds, readHolds_of_ne (by decide) hv, readHolds_of_ne (by decide) hv]
  exact .bind fun b _ => .one b

theorem timeHolds_opposed (h : Relation.Opposed op op') (hv : v ≠ "") :
    Split (timeHolds op value v) (timeHolds op' value v) := by
  rw [timeHolds, timeHolds, readHolds_of_ne h.inspects.1 hv, readHolds_of_ne h.inspects.2 hv]
  refine .bind fun t _ => .bind fun u _ => ?_
  rw [h.namedHolds_some]
  exact .one _

/-! ### Numbers without an order -/

/-- A text spells what is not a number; white space around it does not count. -/
def SpellsNaN (v : String) : Prop := Literal.SpellsNaN (Text.trim v.toList)

theorem number_eq_nan_iff (v : String) : number v = .ok .nan ↔ SpellsNaN v := by
  rw [SpellsNaN, ← Floating.parse_eq_nan_iff (f := Format.double), number]
  cases (Floating.parse (Text.trim v.toList) : Except _ Double) <;> simp

/-- An operator compares the order of two texts that are read as numbers, and one of them spells what is not
a number. -/
structure Unordered (op value v : String) : Prop where
  order : op = "lt" ∨ op = "gt"
  read : (∃ x, number v = .ok x) ∧ ∃ y, number value = .ok y
  nan : SpellsNaN v ∨ SpellsNaN value

/-- Numbers that are read but have no order are spelled as what is not a number. -/
theorem spellsNaN_of_compare? {x y : Double} (hx : number v = .ok x) (hy : number value = .ok y) :
    x.compare? y = none ↔ SpellsNaN v ∨ SpellsNaN value := by
  rw [Floating.compare?_eq_none_iff, ← number_eq_nan_iff, ← number_eq_nan_iff, hx, hy, Except.ok.injEq,
    Except.ok.injEq]

theorem numberHolds_opposed (h : Relation.Opposed op op') (hv : v ≠ "") (hordered : ¬Unordered op value v) :
    Split (numberHolds op value v) (numberHolds op' value v) := by
  rw [(numberHolds_related h hv).1, (numberHolds_related h hv).2]
  refine .bind fun x hx => .bind fun y hy => ?_
  cases hcompare : x.compare? y with
  | some o =>
      rw [h.namedHolds_some]
      exact .one _
  | none =>
      -- only the pair of equality can be asked here, and then the two values differ
      have heq : op = "eq" := by
        by_contra hne
        exact hordered ⟨h.order_of_ne_eq hne, ⟨⟨x, hx⟩, y, hy⟩, (spellsNaN_of_compare? hx hy).1 hcompare⟩
      rw [h.namedHolds_none.1, h.namedHolds_none.2, decide_eq_true heq]
      exact .one false

theorem numberHolds_unordered (h : Relation.Opposed op op') (hv : v ≠ "") (hnone : Unordered op value v) :
    numberHolds op value v = .ok false ∧ numberHolds op' value v = .ok false := by
  obtain ⟨horder, ⟨⟨x, hx⟩, y, hy⟩, hnan⟩ := hnone
  have hcompare : x.compare? y = none := (spellsNaN_of_compare? hx hy).2 hnan
  have hne : op ≠ "eq" := by
    rintro rfl
    exact absurd horder (by decide)
  rw [(numberHolds_related h hv).1, (numberHolds_related h hv).2, hx, hy]
  simp only [bind, Except.bind, hcompare, h.namedHolds_none, decide_eq_false hne]
  exact ⟨rfl, rfl⟩

/-! ### Constraints -/

/-- An operator finds the value that a constraint tests without an order. -/
def Undecided (c : Constraint) (op : String) (e : Entity) : Prop :=
  c.kind = .number ∧ Unordered op c.value (c.subject e)

/-- No operator of a pair is satisfied by an empty value. -/
theorem neither_of_empty {c : Constraint} {e : Entity} (h : Opposed c.kind op op')
    (hempty : c.subject e = "") :
    (c.under op).holds e = .ok false ∧ (c.under op').holds e = .ok false := by
  rw [holds, holds]
  simp only [under_kind, under_operator, under_value, under_subject, hempty]
  generalize c.kind = kind at h
  cases h with
  | text hkind h =>
      obtain ⟨hop, hop'⟩ := textHolds_opposed_empty c.value h
      rcases hkind with rfl | rfl
      · exact ⟨congrArg Except.ok hop, congrArg Except.ok hop'⟩
      · exact ⟨congrArg Except.ok hop, congrArg Except.ok hop'⟩
  | listed => exact ⟨readHolds_empty (by decide) _, readHolds_empty (by decide) _⟩
  | related hkind h =>
      rcases hkind with rfl | rfl
      · exact ⟨readHolds_empty h.inspects.1 _, readHolds_empty h.inspects.2 _⟩
      · exact ⟨readHolds_empty h.inspects.1 _, readHolds_empty h.inspects.2 _⟩
  | truth => exact ⟨readHolds_empty (by decide) _, readHolds_empty (by decide) _⟩

/-- **The operators of a pair split every value that has an order.** -/
theorem split_of_opposed {c : Constraint} {e : Entity} (h : Opposed c.kind op op')
    (hv : c.subject e ≠ "") (hordered : ¬c.Undecided op e) :
    Split ((c.under op).holds e) ((c.under op').holds e) := by
  rw [Undecided] at hordered
  rw [holds, holds]
  simp only [under_kind, under_operator, under_value, under_subject]
  generalize c.kind = kind at h hordered
  cases h with
  | text hkind h =>
      rw [textHolds_opposed h hv]
      rcases hkind with rfl | rfl
      · exact .one _
      · exact .one _
  | listed => exact numberHolds_listed hv
  | related hkind h =>
      rcases hkind with rfl | rfl
      · exact numberHolds_opposed h hv fun hnone => hordered ⟨rfl, hnone⟩
      · exact timeHolds_opposed h hv
  | truth => exact flagHolds_opposed hv

/-- No operator of a pair is satisfied by a number that has no order. -/
theorem neither_of_undecided {c : Constraint} {e : Entity} (h : Opposed c.kind op op')
    (hv : c.subject e ≠ "") (hnone : c.Undecided op e) :
    (c.under op).holds e = .ok false ∧ (c.under op').holds e = .ok false := by
  obtain ⟨hkind, hnone⟩ := hnone
  have hrelated : Relation.Opposed op op' := by
    rw [hkind] at h
    cases h with
    | text hkind => simp at hkind
    | listed => exact absurd hnone.order (by decide)
    | related _ h => exact h
  rw [holds, holds]
  simp only [under_kind, hkind]
  exact numberHolds_unordered hrelated hv hnone

/-- Whether there is a value can always be told. -/
theorem split_of_asksPresence {c : Constraint} (h : AsksPresence c.kind op op') (e : Entity) :
    (c.under op).holds e = .ok (c.subject e).isEmpty ∧
      (c.under op').holds e = .ok !(c.subject e).isEmpty := by
  rw [holds, holds]
  simp only [under_kind, under_operator, under_value, under_subject]
  generalize c.kind = kind at h
  cases h with
  | text hkind =>
      rcases hkind with rfl | rfl
      · exact ⟨rfl, rfl⟩
      · exact ⟨rfl, rfl⟩
  | read hkind =>
      rcases hkind with rfl | rfl | rfl
      · exact readHolds_presence _ _ _
      · exact readHolds_presence _ _ _
      · exact readHolds_presence _ _ _

/-- **Opposite operators split every value that has an order**: both are the same fault, or exactly one is
satisfied.  Neither is if there is no value, or if the value is a number without an order.  Of two operators
that ask whether there is a value exactly one is always satisfied. -/
theorem opposed_unless_unordered (c : Constraint) (e : Entity) :
    (∀ op op', Opposed c.kind op op' →
      (c.subject e ≠ "" → ¬c.Undecided op e →
        Split ((c.under op).holds e) ((c.under op').holds e)) ∧
      (c.subject e = "" ∨ c.Undecided op e →
        (c.under op).holds e = .ok false ∧ (c.under op').holds e = .ok false)) ∧
      ∀ op op', AsksPresence c.kind op op' →
        ∃ b, (c.under op).holds e = .ok b ∧ (c.under op').holds e = .ok !b := by
  refine ⟨fun op op' h => ⟨split_of_opposed h, fun hneither => ?_⟩, fun op op' h => ?_⟩
  · by_cases hv : c.subject e = ""
    · exact neither_of_empty h hv
    · exact neither_of_undecided h hv (hneither.resolve_left hv)
  · exact ⟨_, split_of_asksPresence h e⟩

/-- A price is below a limit or at least as great; one that is spelled as what is not a number is neither. -/
theorem opposed_unless_unordered_price :
    let c : Constraint := ⟨.number, "price", "lt", "10"⟩
    let e : Entity := ⟨"e", ⟨[("price", " 9.5")]⟩⟩
    let nan : Entity := ⟨"e", ⟨[("price", "-NaN ")]⟩⟩
    Opposed c.kind "lt" "gte" ∧ c.subject e ≠ "" ∧ ¬c.Undecided "lt" e ∧
      Split ((c.under "lt").holds e) ((c.under "gte").holds e) ∧ c.Undecided "lt" nan ∧
      (c.under "lt").holds nan = .ok false ∧ (c.under "gte").holds nan = .ok false := by
  intro c e nan
  have hopposed : Opposed c.kind "lt" "gte" := .related (Or.inl rfl) .less
  have hread : number "10" = .ok (.finite false 5629499534213120 (-49)) := by decide +kernel
  have hordered : ¬c.Undecided "lt" e := by
    rintro ⟨-, -, -, hnan⟩
    rw [← number_eq_nan_iff, ← number_eq_nan_iff] at hnan
    revert hnan
    decide +kernel
  have hnone : c.Undecided "lt" nan :=
    ⟨rfl, Or.inl rfl, ⟨⟨.nan, by decide +kernel⟩, _, hread⟩,
      Or.inl ((number_eq_nan_iff _).1 (by decide +kernel))⟩
  exact ⟨hopposed, by decide, hordered,
    ((opposed_unless_unordered c e).1 _ _ hopposed).1 (by decide) hordered, hnone,
    ((opposed_unless_unordered c nan).1 _ _ hopposed).2 (Or.inr hnone)⟩

/-- What is not a number is neither less than another number nor at least as great. -/
theorem not_split_of_nan :
    let c : Constraint := ⟨.number, "p", "lt", "1"⟩
    let e : Entity := ⟨"e", ⟨[("p", "nan")]⟩⟩
    Opposed c.kind "lt" "gte" ∧ c.subject e ≠ "" ∧
      ¬Split ((c.under "lt").holds e) ((c.under "gte").holds e) := by
  intro c e
  have hless : (c.under "lt").holds e = .ok false := by decide +kernel
  have hgreater : (c.under "gte").holds e = .ok false := by decide +kernel
  refine ⟨.related (Or.inl rfl) .less, by decide, ?_⟩
  rw [hless, hgreater]
  intro h
  cases h

end Constraint

end FeatureFlags
