/-
**Documents that were written for a newer engine.**

A newer engine may know members that this one does not, and may know more names for the choices that are
made by name.  Against the documents that this engine knows, those for a newer one differ in two ways: in
any object a member may be there that the object does not define, and instead of a choice a name may stand
that is not recognised.  To say where such a thing may stand, the parts of a document are listed with what
their members hold.

Alterations can be followed from the whole document down to its parts, and there it only counts what stands
under the names that a part defines.  So a relation is given that goes down the parts in this way.  It is
meant for two ends: an *exact* alteration must not change what a document is read as, while any other need
only leave it readable.

Main definitions:

* `Schema.Part`, `Schema.Part.slots` — **the parts of a document and what their members hold**;
* `Schema.Around` — a place in a part at which another part stands;
* `Schema.Unrecognised` — what may stand for a choice and is no name of one;
* `Schema.Extends` — **a document with one more member, which its object does not define**;
* `Schema.Replaces` — **a document in which a choice is not recognised, and one without this choice**;
* `Schema.Occurs`, `Schema.Alters` — alterations, followed down the parts.

Main results:

* `Schema.Around.alters` — a part that is altered alters the parts around it;
* `Schema.Extends.alters`, `Schema.Replaces.alters`, `Schema.Replaces.alters_exact` — the alterations
  by a newer engine.
-/
import FeatureFlags.Document.Basic
import FeatureFlags.Proofs.Records

set_option autoImplicit false

namespace FeatureFlags

open Json

/-- The names that are recognised for a choice. -/
def Json.Vocabulary.known {α : Type} (v : Vocabulary α) : List String := v.names.map (·.1)

namespace Schema

/-! ### The parts of a document -/

/-- The kinds of objects that a document is made of. -/
inductive Part where
  | document
  | space
  | flag
  | variant
  | rule
  | distribution
  | rollout
  | segmentRollout
  | threshold
  | segment
  | constraint

/-- What a member of a part holds: a text, a number or a truth value, a choice among some names, another
part, or a list of parts. -/
inductive Slot where
  | plain
  | choice (names : List String)
  | part (p : Part)
  | parts (p : Part)

/-- **The members that the parts of a document define**, and what these hold. -/
def Part.slots : Part → List (String × Slot)
  | .document => [("namespace", .part .space), ("flags", .parts .flag)]
  | .space => [("key", .plain), ("name", .plain)]
  | .flag => [("key", .plain), ("name", .plain), ("type", .choice FlagKind.vocabulary.known),
      ("description", .plain), ("enabled", .plain), ("rules", .parts .rule), ("rollouts", .parts .rollout),
      ("defaultVariant", .part .variant)]
  | .variant => [("key", .plain), ("attachment", .plain)]
  | .rule => [("segments", .parts .segment), ("segmentOperator", .choice SegmentOperator.vocabulary.known),
      ("distributions", .parts .distribution)]
  | .distribution => [("variantKey", .plain), ("rollout", .plain), ("variantAttachment", .plain)]
  | .rollout => [("description", .plain), ("segment", .part .segmentRollout),
      ("threshold", .part .threshold)]
  | .segmentRollout => [("segmentOperator", .choice SegmentOperator.vocabulary.known), ("value", .plain),
      ("segments", .parts .segment)]
  | .threshold => [("percentage", .plain), ("value", .plain)]
  | .segment => [("key", .plain), ("matchType", .choice MatchType.vocabulary.known),
      ("constraints", .parts .constraint)]
  | .constraint => [("type", .choice ConstraintKind.vocabulary.known), ("property", .plain),
      ("operator", .plain), ("value", .plain)]

/-- What the member of a name holds, if the part defines one. -/
def Part.slot? (p : Part) (name : String) : Option Slot := p.slots.lookup name

/-! ### Documents for a newer engine -/

/-- A place inside of a part at which another part stands: the function puts a tree there. -/
inductive Around : Part → Part → (Tree → Tree) → Prop
  | here {p : Part} : Around p p fun t => t
  | part {q r p : Part} {f : Tree → Tree} {name : String} {before after : List (String × Tree)} :
      q.slot? name = some (.part r) → Around r p f →
      Around q p fun t => .object (before ++ (name, f t) :: after)
  | item {q r p : Part} {f : Tree → Tree} {name : String} {before after : List (String × Tree)}
      {front back : List Tree} : q.slot? name = some (.parts r) → Around r p f →
      Around q p fun t => .object (before ++ (name, .array (front ++ f t :: back)) :: after)

/-- What is no name of a choice: null, and every other text. -/
inductive Unrecognised (names : List String) : Tree → Prop
  | null : Unrecognised names .null
  | name {s : String} : s ∉ names → Unrecognised names (.string s)

/-- **The second document has one more member**, somewhere in one of the objects it is made of, which does
not define a member of this name. -/
inductive Extends : Tree → Tree → Prop
  | of {p : Part} {f : Tree → Tree} {before after : List (String × Tree)} {name : String} {t : Tree} :
      Around .document p f → p.slot? name = none →
      Extends (f (.object (before ++ after))) (f (.object (before ++ (name, t) :: after)))

/-- **In the second document the value of a choice is replaced** by one that is not recognised, and in the
third this member is deleted. -/
inductive Replaces : Tree → Tree → Tree → Prop
  | of {p : Part} {f : Tree → Tree} {before after : List (String × Tree)} {name : String}
      {names : List String} {t u : Tree} :
      Around .document p f → p.slot? name = some (.choice names) → Unrecognised names u →
      Replaces (f (.object (before ++ (name, t) :: after))) (f (.object (before ++ (name, u) :: after)))
        (f (.object (before ++ after)))

/-! ### Alterations -/

section

variable (exact : Prop)

/-- The values under one name that take the place of others.  A choice that is not recognised may be left
out; and if the alteration need not be exact, it may take the place of any other value. -/
inductive Occurs (R : Slot → Tree → Tree → Prop) : Slot → List Tree → List Tree → Prop
  | nil {slot : Slot} : Occurs R slot [] []
  | cons {slot : Slot} {t u : Tree} {ts us : List Tree} : R slot t u → Occurs R slot ts us →
      Occurs R slot (t :: ts) (u :: us)
  | replaced {names : List String} {t u : Tree} {ts us : List Tree} : ¬exact → Unrecognised names u →
      Occurs R (.choice names) ts us → Occurs R (.choice names) (t :: ts) (u :: us)
  | deleted {names : List String} {t : Tree} {ts us : List Tree} : Unrecognised names t →
      Occurs R (.choice names) ts us → Occurs R (.choice names) (t :: ts) us

/-- **A tree that takes the place of another.**  Of a part only that counts which stands under the names
that it defines. -/
inductive Alters : Slot → Tree → Tree → Prop
  | same {slot : Slot} {t : Tree} : Alters slot t t
  | parts {p : Part} {ts us : List Tree} : Occurs exact Alters (.part p) ts us →
      Alters (.parts p) (.array ts) (.array us)
  | part {p : Part} {ms ns : List (String × Tree)} :
      (∀ name slot, p.slot? name = some slot →
        Occurs exact Alters slot (occurrences name ms) (occurrences name ns)) →
      Alters (.part p) (.object ms) (.object ns)

end

section

variable {exact : Prop} {slot : Slot}

theorem Occurs.same (ts : List Tree) : Occurs exact (Alters exact) slot ts ts := by
  induction ts with
  | nil => exact .nil
  | cons t ts ih => exact .cons .same ih

/-- What takes the place of a list of parts is a list of parts. -/
theorem Alters.items {p : Part} {ts : List Tree} {u : Tree} (h : Alters exact (.parts p) (.array ts) u) :
    ∃ us, u = .array us ∧ Occurs exact (Alters exact) (.part p) ts us := by
  cases h with
  | same => exact ⟨ts, rfl, .same ts⟩
  | parts h => exact ⟨_, rfl, h⟩

/-- What takes the place of a part that is written as an object is an object. -/
theorem Alters.members {p : Part} {ms : List (String × Tree)} {u : Tree}
    (h : Alters exact (.part p) (.object ms) u) : ∃ ns, u = .object ns ∧ ∀ name slot,
      p.slot? name = some slot → Occurs exact (Alters exact) slot (occurrences name ms)
        (occurrences name ns) := by
  cases h with
  | same => exact ⟨ms, rfl, fun _ _ _ => .same _⟩
  | part h => exact ⟨_, rfl, h⟩

theorem Occurs.append {R : Slot → Tree → Tree → Prop} {ts us ts' us' : List Tree}
    (h : Occurs exact R slot ts us) (h' : Occurs exact R slot ts' us') :
    Occurs exact R slot (ts ++ ts') (us ++ us') := by
  induction h with
  | nil => exact h'
  | cons ht _ ih => exact .cons ht (ih h')
  | replaced hexact hu _ ih => exact .replaced hexact hu (ih h')
  | deleted ht _ ih => exact .deleted ht (ih h')

/-- Some members of a part take the place of others. -/
theorem Alters.of_members {p : Part} {before after : List (String × Tree)} (ms ns : List (String × Tree))
    (h : ∀ name slot, p.slot? name = some slot →
      Occurs exact (Alters exact) slot (occurrences name ms) (occurrences name ns)) :
    Alters exact (.part p) (.object (before ++ (ms ++ after))) (.object (before ++ (ns ++ after))) := by
  refine .part fun name slot hslot => ?_
  simp only [occurrences_append]
  exact (Occurs.same _).append ((h name slot hslot).append (.same _))

/-- The value of one member takes the place of another. -/
theorem Alters.of_member {p : Part} {before after : List (String × Tree)} {name : String} {t u : Tree}
    (hslot : p.slot? name = some slot) (h : Occurs exact (Alters exact) slot [t] [u]) :
    Alters exact (.part p) (.object (before ++ (name, t) :: after))
      (.object (before ++ (name, u) :: after)) := by
  refine of_members [(name, t)] [(name, u)] fun other slot' hslot' => ?_
  rw [occurrences_cons, occurrences_cons]
  split
  · next heq =>
      rw [← heq, hslot] at hslot'
      cases hslot'
      exact h
  · exact .nil

/-- **A part that is altered alters the parts around it.** -/
theorem Around.alters {q p : Part} {f : Tree → Tree} (h : Around q p f) {t u : Tree}
    (htu : Alters exact (.part p) t u) : Alters exact (.part q) (f t) (f u) := by
  induction h with
  | here => exact htu
  | part hslot _ ih => exact .of_member hslot (.cons (ih htu) .nil)
  | item hslot _ ih =>
      exact .of_member hslot (.cons (.parts ((Occurs.same _).append (.cons (ih htu) (.same _)))) .nil)

/-- Another member that is not defined is an exact alteration. -/
theorem Extends.alters {t u : Tree} (h : Extends t u) : Alters exact (.part .document) t u := by
  cases h with
  | @of p f before after name x hf hname =>
      refine hf.alters (.of_members [] [(name, x)] fun other slot hslot => ?_)
      rw [occurrences_cons, if_neg]
      · exact .nil
      · rintro rfl
        rw [hname] at hslot
        cases hslot

/-- A choice that is not recognised may take the place of another. -/
theorem Replaces.alters {t u w : Tree} (h : Replaces t u w) (hexact : ¬exact) :
    Alters exact (.part .document) t u := by
  cases h with
  | of hf hname hu => exact hf.alters (.of_member hname (.replaced hexact hu .nil))

/-- To delete such a choice is an exact alteration. -/
theorem Replaces.alters_exact {t u w : Tree} (h : Replaces t u w) :
    Alters exact (.part .document) u w := by
  cases h with
  | @of p f before after name names x y hf hname hy =>
      refine hf.alters (.of_members [(name, y)] [] fun other slot hslot => ?_)
      rw [occurrences_cons]
      split
      · next heq =>
          rw [← heq, hname] at hslot
          cases hslot
          exact .deleted hy .nil
      · exact .nil

end

end Schema

end FeatureFlags
