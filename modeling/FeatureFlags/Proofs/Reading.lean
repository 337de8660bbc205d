/-
**Every spelling of a tree is read as this tree.**

The tree of places that the descent finds in a text shows what the text holds: a place for a value of the
same kind, with the same name, number or string, and places for the same items and members in the same
order.  A number that is too large for every format shows its digits all the same, with a fault in place of
a value.

The induction is on the spelling.  What a part of a text shows is put together from what its own parts
show, wherever it stands.

Main definitions:

* `Json.Node.Shows` — **what a tree of places shows**;
* `Json.ReadsAs` — what a whole text is read as.

Main results:

* `Json.Outline.found_of_part` — what a part of a text shows;
* `Json.readsAs_of_tree` — **every spelling of a tree is read as this tree.**
-/
import FeatureFlags.Json.Decoder
import FeatureFlags.Proofs.Findings

set_option autoImplicit false

namespace FeatureFlags.Json

open Spelling

/-- What a finding shows. -/
inductive Finding.Shows : Finding → Part → Prop
  | null {start stop : Nat} : Shows (.value (.null start stop)) (.tree .null)
  | bool {start stop : Nat} {b : Bool} : Shows (.value (.bool start stop b)) (.tree (.bool b))
  | number {start stop : Nat} {n : Numeral} {x : Number} : n.value = .ok x →
      Shows (.value (.number start stop (.ok x))) (.tree (.number n))
  | tooLarge {start stop unread : Nat} {n : Numeral} {f : Fault} : n.value = .error unread →
      Shows (.value (.number start stop (.error f))) (.tree (.number n))
  | string {start stop : Nat} {v : String} {escaped : Bool} :
      Shows (.value (.string start stop (.ok ⟨v, escaped⟩))) (.tree (.string v))
  | array {start stop : Nat} {ns : List Node} {ts : List Tree} : Shows (.items ns) (.items ts) →
      Shows (.value (.array start ns (.closed stop))) (.tree (.array ts))
  | object {start stop : Nat} {fs : List (Field Node)} {ms : List (String × Tree)} :
      Shows (.members fs) (.members ms) →
      Shows (.value (.object start fs (.closed stop))) (.tree (.object ms))
  | noItems : Shows (.items []) (.items [])
  | item {n : Node} {ns : List Node} {t : Tree} {ts : List Tree} : Shows (.value n) (.tree t) →
      Shows (.items ns) (.items ts) → Shows (.items (n :: ns)) (.items (t :: ts))
  | noMembers : Shows (.members []) (.members [])
  | member {key : Key} {n : Node} {next : Nat} {fs : List (Field Node)} {name : String}
      {escaped : Bool} {t : Tree} {ms : List (String × Tree)} : key.text = .ok ⟨name, escaped⟩ →
      Shows (.value n) (.tree t) → Shows (.members fs) (.members ms) →
      Shows (.members (⟨key, n, next⟩ :: fs)) (.members ((name, t) :: ms))

/-- What a tree of places shows. -/
def Node.Shows (n : Node) (t : Tree) : Prop := (Finding.value n).Shows (.tree t)

/-- What a whole text is read as: its tree of places shows this, and only blanks follow. -/
structure ReadsAs (bytes : List UInt8) (t : Tree) : Prop where
  root : (Outline.of bytes).root.Shows t
  rest : (Outline.of bytes).after.skipBlank.rest = []

namespace Outline

/-- What is found of a part shows it, wherever the part stands. -/
def Found (s : List Char) : Part → Prop
  | .tree t => FoundValue s (·.Shows t)
  | .items ts => FoundItems s fun ns => (Finding.items ns).Shows (.items ts)
  | .members ms => FoundMembers s fun fs => (Finding.members fs).Shows (.members ms)

theorem shows_number (n : Numeral) (start stop : Nat) (fault : Nat → Fault) :
    (Node.number start stop (n.value.mapError fault)).Shows (.number n) := by
  cases hvalue : n.value with
  | error unread => exact .tooLarge hvalue
  | ok x => exact .number hvalue

/-- The name of a member is read as what it spells. -/
theorem text_of_spelling {k : List Char} {name : String} (h : OfChars k name.toList) (offset : Nat)
    (rest : List UInt8) :
    text ⟨offset, Utf8.encodeChars k ++ 0x22 :: rest⟩ = .ok ⟨name, '\\' ∈ k⟩ := by
  rw [text, readString_of_spelling _ _ h]

/-- **What a part of a text shows is found.** -/
theorem found_of_part {s : List Char} {p : Part} (h : OfPart s p) : Found s p := by
  induction h with
  | blanks hs _ hu ih => exact foundValue_blanks hs hu ih
  | null => exact foundValue_null fun _ _ => .null
  | true => exact foundValue_true fun _ _ => .bool
  | false => exact foundValue_false fun _ _ => .bool
  | @number s n h => exact foundValue_number h (shows_number n)
  | @string s v h =>
      obtain ⟨hss⟩ := h
      refine foundValue_quoted (skipped_of_spelling hss) fun start stop offset rest => ?_
      rw [text_of_spelling hss]
      exact .string
  | noItems hs => exact foundValue_noItems hs fun _ _ => .array .noItems
  | array _ ih => exact foundValue_array ih fun _ _ _ hns => .array hns
  | lastItem _ ih => exact foundItems_last ih fun _ hn => .item hn .noItems
  | item _ _ ih ih' => exact foundItems_cons ih ih' fun _ _ hn hns => .item hn hns
  | noMembers hs => exact foundValue_noMembers hs fun _ _ => .object .noMembers
  | object _ ih => exact foundValue_object ih fun _ _ _ hfs => .object hfs
  | lastMember hs hk ht _ ih =>
      obtain ⟨hss⟩ := hk
      exact foundMembers_last hs (skipped_of_spelling hss) (K := (· = .ok ⟨_, _⟩))
        (text_of_spelling hss) ht ih fun _ _ _ hkey hn => .member hkey hn .noMembers
  | member hs hk ht _ _ ih ih' =>
      obtain ⟨hss⟩ := hk
      exact foundMembers_cons hs (skipped_of_spelling hss) (K := (· = .ok ⟨_, _⟩))
        (text_of_spelling hss) ht ih ih' fun _ _ _ _ hkey hn hfs => .member hkey hn hfs

end Outline

/-- **Every spelling of a tree is read as this tree.** -/
theorem readsAs_of_tree {s : List Char} {t : Tree} (h : OfTree s t) : ReadsAs (Utf8.encodeChars s) t := by
  obtain ⟨-, hroot, hrest⟩ := Outline.of_foundValue (Outline.found_of_part h)
  exact ⟨hroot, hrest⟩

end FeatureFlags.Json
