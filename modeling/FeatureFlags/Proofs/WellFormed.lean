/-
**Well-formed texts, and what is found of them.**

A text can be well formed and still hold strings that denote no text: an escape by number may stand for half
of a surrogate pair.  So the grammar below does not say what a text holds.  Whether a string can be read, and
as what, is all the same said by its own characters: an automaton that reads never goes further than one
that skips, so it ends where the string ends, or with a fault before.

What is found of a well-formed text is then alike wherever the text stands: the same kinds of values, the
same names, numbers and strings or a fault in their place, and the same items and members in the same order.
Only the places differ, and the faults.

Main definitions:

* `Json.Spelling.WellFormed` — **the well-formed texts**;
* `Json.Node.Alike` — **two trees that differ only in places and faults**;
* `Json.Outline.Steady` — a text of which alike trees are found wherever it stands.

Main results:

* `Json.Spelling.wellFormed_of_part` — every spelling of a tree is well formed;
* `Json.Scan.Follows.run_eq` — where a string ends that is read;
* `Json.Outline.text_toOption` — a string is read as the same wherever it stands;
* `Json.Outline.steady_of_wellFormed` — **what is found of a well-formed text is alike, wherever the text
  stands.**
-/
import FeatureFlags.Proofs.Findings

set_option autoImplicit false

namespace FeatureFlags.Json

open Spelling

/-! ### The grammar -/

namespace Spelling

/-- What may stand inside of a string: spellings of characters, and escapes by any number. -/
inductive Inside : List Char → Prop
  | nil : Inside []
  | char {s ss : List Char} {c : Char} : OfChar s c → Inside ss → Inside (s ++ ss)
  | unit {ds ss : List Char} {n : Nat} : FourDigits ds n → Inside ss →
      Inside ('\\' :: 'u' :: ds ++ ss)

/-- What a part of a text is: a value, or the items or members between two brackets. -/
inductive Shape where
  | value
  | items
  | members

/-- **The well-formed texts**, with blanks around every value and around the name of a member. -/
inductive WellFormed : Shape → List Char → Prop
  | blanks {s t u : List Char} : Blanks s → WellFormed .value t → Blanks u →
      WellFormed .value (s ++ t ++ u)
  | null : WellFormed .value ['n', 'u', 'l', 'l']
  | true : WellFormed .value ['t', 'r', 'u', 'e']
  | false : WellFormed .value ['f', 'a', 'l', 's', 'e']
  | number {s : List Char} {n : Numeral} : OfNumeral s n → WellFormed .value s
  | string {s : List Char} : Inside s → WellFormed .value ('"' :: s ++ ['"'])
  | noItems {s : List Char} : Blanks s → WellFormed .value ('[' :: s ++ [']'])
  | array {s : List Char} : WellFormed .items s → WellFormed .value ('[' :: s ++ [']'])
  | lastItem {s : List Char} : WellFormed .value s → WellFormed .items s
  | item {s t : List Char} : WellFormed .value s → WellFormed .items t →
      WellFormed .items (s ++ ',' :: t)
  | noMembers {s : List Char} : Blanks s → WellFormed .value ('\x7b' :: s ++ ['\x7d'])
  | object {s : List Char} : WellFormed .members s → WellFormed .value ('\x7b' :: s ++ ['\x7d'])
  | lastMember {s k t u : List Char} : Blanks s → Inside k → Blanks t → WellFormed .value u →
      WellFormed .members (s ++ ('"' :: k ++ ['"']) ++ t ++ ':' :: u)
  | member {s k t u rest : List Char} : Blanks s → Inside k → Blanks t → WellFormed .value u →
      WellFormed .members rest →
      WellFormed .members (s ++ ('"' :: k ++ ['"']) ++ t ++ ':' :: u ++ ',' :: rest)

/-- The spelling of a text may stand inside of a string. -/
theorem Inside.of_chars {s cs : List Char} (h : OfChars s cs) : Inside s := by
  induction h with
  | nil => exact .nil
  | cons hc _ ih => exact .char hc ih

/-- What a part is, whatever it holds. -/
def Part.shape : Part → Shape
  | .tree _ => .value
  | .items _ => .items
  | .members _ => .members

/-- **Every spelling of a tree is well formed.** -/
theorem wellFormed_of_part {s : List Char} {p : Part} (h : OfPart s p) : WellFormed p.shape s := by
  induction h with
  | blanks hs _ hu ih => exact .blanks hs ih hu
  | null => exact .null
  | true => exact .true
  | false => exact .false
  | number h => exact .number h
  | string h =>
      obtain ⟨h⟩ := h
      exact .string (.of_chars h)
  | noItems hs => exact .noItems hs
  | array _ ih => exact .array ih
  | lastItem _ ih => exact .lastItem ih
  | item _ _ ih ih' => exact .item ih ih'
  | noMembers hs => exact .noMembers hs
  | object _ ih => exact .object ih
  | lastMember hs hk ht _ ih =>
      obtain ⟨hk⟩ := hk
      exact .lastMember hs (.of_chars hk) ht ih
  | member hs hk ht _ _ ih ih' =>
      obtain ⟨hk⟩ := hk
      exact .member hs (.of_chars hk) ht ih ih'

end Spelling

/-! ### Strings -/

namespace Scan

/-- An automaton that skips goes over the inside of a string. -/
theorem exists_passes {s : List Char} (h : Inside s) :
    ∃ content, Passes false .plain (Utf8.encodeChars s) .plain content := by
  induction h with
  | nil => exact ⟨_, Passes.refl false .plain⟩
  | char hc _ ih =>
      obtain ⟨-, _, hpasses⟩ := passes_spelling hc
      obtain ⟨_, ih⟩ := ih
      rw [Utf8.encodeChars_append]
      exact ⟨_, hpasses.trans ih⟩
  | unit hds _ ih =>
      obtain ⟨_, ih⟩ := ih
      rw [Utf8.encodeChars_append]
      exact ⟨_, (passes_escape hds rfl).trans ih⟩

/-- An automaton that reads is in the first state while one that skips is in the second. -/
inductive Follows : State → State → Prop
  | plain : Follows .plain .plain
  | escape : Follows .escape .escape
  | hex (lead : Option Nat) (due : Nat) (value : Option Nat) :
      Follows (.hex lead due value) (.hex none due value)
  | pairBackslash (lead : Nat) : Follows (.pairBackslash lead) .plain
  | pairLetter (lead : Nat) : Follows (.pairLetter lead) .escape

/-- What an automaton that reads can do while one that skips does something. -/
inductive Move.Follows : Move → Move → Prop
  | bad (cause : Cause) (m : Move) : Follows (.bad cause) m
  | done : Follows .done .done
  | more {s t : State} (content content' : List UInt8) : Scan.Follows s t →
      Follows (.more s content) (.more t content')

variable {s t : State}

/-- A group of digits that may stand for half of a pair. -/
theorem unit_follows (lead : Option Nat) (n : Nat) : (unit true lead n).Follows (unit false none n) := by
  have hskip : unit false none n = .more .plain [] := rfl
  rw [hskip]
  cases lead with
  | none =>
      simp only [unit]
      rw [if_neg (by decide)]
      split
      · exact .bad _ _
      · split
        · exact .more _ _ (.pairBackslash n)
        · exact .more _ _ .plain
  | some l =>
      simp only [unit]
      rw [if_neg (by decide)]
      split
      · exact .more _ _ .plain
      · exact .bad _ _

/-- An automaton that reads is never behind one that skips. -/
theorem Follows.follows_step (h : Follows s t) (b : UInt8) : (step true s b).Follows (step false t b) := by
  cases h with
  | plain =>
      simp only [step]
      split
      · exact .done
      · split
        · exact .more _ _ .escape
        · split
          · exact .bad _ _
          · exact .more _ _ .plain
  | escape =>
      simp only [step]
      split
      · exact .more _ _ (.hex none 4 (some 0))
      · split
        · exact .more _ _ .plain
        · exact .bad _ _
  | hex lead due value =>
      simp only [step]
      split
      · split
        · exact unit_follows lead _
        · exact .bad _ _
      · exact .more _ _ (.hex ..)
  | pairBackslash lead =>
      simp only [step]
      split
      · next hb =>
          subst hb
          exact .more _ _ (.pairLetter lead)
      · exact .bad _ _
  | pairLetter lead =>
      simp only [step]
      split
      · exact .more _ _ (.hex (some lead) 4 (some 0))
      · exact .bad _ _

/-- What an automaton that reads does while one that skips ends the string. -/
theorem Move.Follows.of_done {m : Move} (h : m.Follows .done) : (∃ cause, m = .bad cause) ∨ m = .done := by
  cases h with
  | bad cause _ => exact Or.inl ⟨cause, rfl⟩
  | done => exact Or.inr rfl

/-- What it does while the other goes on. -/
theorem Move.Follows.of_more {m : Move} {content : List UInt8} (h : m.Follows (.more t content)) :
    (∃ cause, m = .bad cause) ∨ ∃ s content, m = .more s content ∧ Scan.Follows s t := by
  cases h with
  | bad cause _ => exact Or.inl ⟨cause, rfl⟩
  | more content _ h => exact Or.inr ⟨_, content, rfl, h⟩

section

variable {strict : Bool} {b : UInt8} {offset : Nat} {rest : List UInt8}

theorem run_of_bad {cause : Cause} (h : step strict s b = .bad cause) (offset : Nat)
    (rest : List UInt8) : ∃ f, run strict s offset (b :: rest) = .error f :=
  ⟨_, by rw [run, h]⟩

theorem run_of_done (h : step strict s b = .done) (offset : Nat) (rest : List UInt8) :
    run strict s offset (b :: rest) = .ok ([], ⟨offset + 1, rest⟩) := by
  rw [run, h]

variable {added : List UInt8} (h : step strict s b = .more t added)
include h

/-- A byte that does not end the string leaves the others to the next state. -/
theorem run_eq_ok_iff {content : List UInt8} {c : Cursor} :
    run strict s offset (b :: rest) = .ok (content, c) ↔
      ∃ more, run strict t (offset + 1) rest = .ok (more, c) ∧ content = added ++ more := by
  rw [run, h]
  cases hrun : run strict t (offset + 1) rest with
  | error f => simp [hrun]
  | ok r =>
      obtain ⟨more, c'⟩ := r
      simp only [hrun, Except.ok.injEq, Prod.mk.injEq]
      constructor
      · rintro ⟨rfl, rfl⟩
        exact ⟨more, ⟨rfl, rfl⟩, rfl⟩
      · rintro ⟨_, ⟨rfl, rfl⟩, rfl⟩
        exact ⟨rfl, rfl⟩

theorem run_eq_error {f : Fault} (hrun : run strict t (offset + 1) rest = .error f) :
    run strict s offset (b :: rest) = .error f := by
  rw [run, h]
  simp only [hrun]

end

/-- **Where a string ends that is read**: where it ends that is skipped, with the same content whatever
follows, or with a fault before. -/
theorem Follows.run_eq (h : Follows s t) {bytes content : List UInt8} {offset : Nat}
    (hskip : run false t offset (bytes ++ [0x22]) = .ok (content, ⟨offset + bytes.length + 1, []⟩)) :
    (∃ content, ∀ offset rest, run true s offset (bytes ++ 0x22 :: rest) =
        .ok (content, ⟨offset + bytes.length + 1, rest⟩)) ∨
      ∀ offset rest, ∃ f, run true s offset (bytes ++ 0x22 :: rest) = .error f := by
  induction bytes generalizing s t content offset with
  | nil =>
      cases hmove : step false t 0x22 with
      | bad cause =>
          obtain ⟨f, hf⟩ := run_of_bad hmove offset []
          cases hf.symm.trans hskip
      | more t' added =>
          obtain ⟨_, hend, -⟩ := (run_eq_ok_iff hmove).1 hskip
          cases hend
      | done =>
          rcases (hmove ▸ h.follows_step 0x22).of_done with ⟨cause, hread⟩ | hread
          · exact Or.inr fun offset rest => run_of_bad hread offset rest
          · exact Or.inl ⟨[], fun offset rest => run_of_done hread offset rest⟩
  | cons b bytes ih =>
      have hlength : ∀ offset, offset + (b :: bytes).length + 1 = offset + 1 + bytes.length + 1 := by
        intro offset
        rw [List.length_cons]
        omega
      rw [List.cons_append] at hskip
      cases hmove : step false t b with
      | bad cause =>
          obtain ⟨f, hf⟩ := run_of_bad hmove offset (bytes ++ [0x22])
          cases hf.symm.trans hskip
      | done =>
          have hdone := (run_of_done hmove offset (bytes ++ [0x22])).symm.trans hskip
          simp at hdone
      | more t' added =>
          obtain ⟨more, hrun, -⟩ := (run_eq_ok_iff hmove).1 hskip
          rw [hlength] at hrun
          rcases (hmove ▸ h.follows_step b).of_more with ⟨cause, hread⟩ | ⟨s', content', hread, h'⟩
          · exact Or.inr fun offset rest => run_of_bad hread offset _
          · rcases ih h' hrun with ⟨content, hok⟩ | herror
            · refine Or.inl ⟨content' ++ content, fun offset rest => ?_⟩
              rw [hlength]
              exact (run_eq_ok_iff hread).2 ⟨content, hok (offset + 1) rest, rfl⟩
            · refine Or.inr fun offset rest => ?_
              obtain ⟨f, hf⟩ := herror (offset + 1) rest
              exact ⟨f, run_eq_error hread hf⟩

end Scan

namespace Outline

/-- A string is read as the same wherever it stands, or with a fault wherever it stands. -/
theorem text_toOption {s : List Char} (h : Inside s) (offset offset' : Nat) (rest rest' : List UInt8) :
    (text ⟨offset, Utf8.encodeChars s ++ 0x22 :: rest⟩).toOption =
      (text ⟨offset', Utf8.encodeChars s ++ 0x22 :: rest'⟩).toOption := by
  obtain ⟨skipped, hpasses⟩ := Scan.exists_passes h
  have hskip : Scan.run false .plain 0 (Utf8.encodeChars s ++ [0x22]) =
      .ok (skipped ++ [], ⟨0 + (Utf8.encodeChars s).length + 1, []⟩) := hpasses 0 [0x22]
  rcases Scan.Follows.plain.run_eq hskip with ⟨content, hok⟩ | herror
  · -- the content is the same, and it was written with the same characters
    have hlength : ∀ offset, offset + (Utf8.encodeChars s).length + 1 - offset - 1 =
        (Utf8.encodeChars s).length := by
      intro offset
      omega
    simp only [text, readString, hok]
    cases Utf8.decode? content with
    | none => rfl
    | some t => simp only [hlength, List.take_left]
  · have hnone : ∀ offset rest,
        (text ⟨offset, Utf8.encodeChars s ++ 0x22 :: rest⟩).toOption = none := by
      intro offset rest
      obtain ⟨f, hf⟩ := herror offset rest
      simp only [text, readString, hf]
      rfl
    rw [hnone, hnone]

end Outline

/-! ### Trees that differ only in places -/

/-- What differs only in places, and in which faults stand where there are some. -/
inductive Finding.Alike : Finding → Finding → Prop
  | null {start stop start' stop' : Nat} :
      Alike (.value (.null start stop)) (.value (.null start' stop'))
  | bool {start stop start' stop' : Nat} {b : Bool} :
      Alike (.value (.bool start stop b)) (.value (.bool start' stop' b))
  | number {start stop start' stop' : Nat} {r r' : Except Fault Number} : r.toOption = r'.toOption →
      Alike (.value (.number start stop r)) (.value (.number start' stop' r'))
  | string {start stop start' stop' : Nat} {r r' : Except Fault Quoted} : r.toOption = r'.toOption →
      Alike (.value (.string start stop r)) (.value (.string start' stop' r'))
  | array {start stop start' stop' : Nat} {ns ns' : List Node} : Alike (.items ns) (.items ns') →
      Alike (.value (.array start ns (.closed stop))) (.value (.array start' ns' (.closed stop')))
  | object {start stop start' stop' : Nat} {fs fs' : List (Field Node)} :
      Alike (.members fs) (.members fs') →
      Alike (.value (.object start fs (.closed stop))) (.value (.object start' fs' (.closed stop')))
  | noItems : Alike (.items []) (.items [])
  | item {n n' : Node} {ns ns' : List Node} : Alike (.value n) (.value n') →
      Alike (.items ns) (.items ns') → Alike (.items (n :: ns)) (.items (n' :: ns'))
  | noMembers : Alike (.members []) (.members [])
  | member {key key' : Key} {n n' : Node} {next next' : Nat} {fs fs' : List (Field Node)} :
      key.text.toOption = key'.text.toOption → Alike (.value n) (.value n') →
      Alike (.members fs) (.members fs') →
      Alike (.members (⟨key, n, next⟩ :: fs)) (.members (⟨key', n', next'⟩ :: fs'))

/-- **Two trees that differ only in places**, and in which faults stand where there are some.  In both of
them nothing breaks off. -/
def Node.Alike (n n' : Node) : Prop := (Finding.value n).Alike (.value n')

namespace Outline

/-- Wherever a text stands, what is found of it is like one and the same finding, which is a null only if
the text is one. -/
def Steady : Shape → List Char → Prop
  | .value, s => ∃ k : Node, FoundValue s (·.Alike k) ∧ ∀ start stop, k = .null start stop → OfTree s .null
  | .items, s => ∃ ks, FoundItems s fun ns => (Finding.items ns).Alike (.items ks)
  | .members, s => ∃ ks, FoundMembers s fun fs => (Finding.members fs).Alike (.members ks)

theorem toOption_mapError {ε ε' α : Type} (f : ε → ε') (r : Except ε α) :
    (r.mapError f).toOption = r.toOption := by
  cases r <;> rfl

/-- **What is found of a well-formed text is alike, wherever the text stands.** -/
theorem steady_of_wellFormed {shape : Shape} {s : List Char} (h : WellFormed shape s) :
    Steady shape s := by
  induction h with
  | blanks hs _ hu ih =>
      obtain ⟨k, hk, hnull⟩ := ih
      exact ⟨k, foundValue_blanks hs hu hk, fun start stop heq => .blanks hs (hnull start stop heq) hu⟩
  | null => exact ⟨.null 0 0, foundValue_null fun _ _ => .null, fun _ _ _ => .null⟩
  | true => exact ⟨.bool 0 0 true, foundValue_true fun _ _ => .bool, fun _ _ heq => nomatch heq⟩
  | false => exact ⟨.bool 0 0 false, foundValue_false fun _ _ => .bool, fun _ _ heq => nomatch heq⟩
  | @number s n h =>
      refine ⟨.number 0 0 (n.value.mapError fun _ => ⟨0, .numberOutOfRange⟩), ?_,
        fun _ _ heq => nomatch heq⟩
      refine foundValue_number h fun start stop fault => .number ?_
      rw [toOption_mapError, toOption_mapError]
  | @string s h =>
      obtain ⟨_, hpasses⟩ := Scan.exists_passes h
      refine ⟨.string 0 0 (text ⟨0, Utf8.encodeChars s ++ [0x22]⟩), ?_, fun _ _ heq => nomatch heq⟩
      exact foundValue_quoted (.of_passes hpasses) fun _ _ _ _ => .string (text_toOption h ..)
  | noItems hs =>
      exact ⟨.array 0 [] (.closed 0), foundValue_noItems hs fun _ _ => .array .noItems,
        fun _ _ heq => nomatch heq⟩
  | array _ ih =>
      obtain ⟨ks, hks⟩ := ih
      exact ⟨.array 0 ks (.closed 0), foundValue_array hks fun _ _ _ hns => .array hns,
        fun _ _ heq => nomatch heq⟩
  | lastItem _ ih =>
      obtain ⟨k, hk, -⟩ := ih
      exact ⟨[k], foundItems_last hk fun _ hn => .item hn .noItems⟩
  | item _ _ ih ih' =>
      obtain ⟨k, hk, -⟩ := ih
      obtain ⟨ks, hks⟩ := ih'
      exact ⟨k :: ks, foundItems_cons hk hks fun _ _ hn hns => .item hn hns⟩
  | noMembers hs =>
      exact ⟨.object 0 [] (.closed 0), foundValue_noMembers hs fun _ _ => .object .noMembers,
        fun _ _ heq => nomatch heq⟩
  | object _ ih =>
      obtain ⟨ks, hks⟩ := ih
      exact ⟨.object 0 ks (.closed 0), foundValue_object hks fun _ _ _ hfs => .object hfs,
        fun _ _ heq => nomatch heq⟩
  | @lastMember s k t u hs hk ht _ ih =>
      obtain ⟨v, hv, -⟩ := ih
      obtain ⟨_, hpasses⟩ := Scan.exists_passes hk
      let key : Key := ⟨text ⟨0, Utf8.encodeChars k ++ [0x22]⟩, 0, 0⟩
      exact ⟨[⟨key, v, 0⟩], foundMembers_last hs (.of_passes hpasses)
        (K := (·.toOption = key.text.toOption)) (fun _ _ => text_toOption hk ..) ht hv
        fun _ _ _ hkey hn => .member hkey hn .noMembers⟩
  | @member s k t u rest hs hk ht _ _ ih ih' =>
      obtain ⟨v, hv, -⟩ := ih
      obtain ⟨ks, hks⟩ := ih'
      obtain ⟨_, hpasses⟩ := Scan.exists_passes hk
      let key : Key := ⟨text ⟨0, Utf8.encodeChars k ++ [0x22]⟩, 0, 0⟩
      exact ⟨⟨key, v, 0⟩ :: ks, foundMembers_cons hs (.of_passes hpasses)
        (K := (·.toOption = key.text.toOption)) (fun _ _ => text_toOption hk ..) ht hv hks
        fun _ _ _ _ hkey hn hfs => .member hkey hn hfs⟩

end Outline

end FeatureFlags.Json
