/-
**What any value is read as.**

Where any value may stand, the tree that a text holds is read as a value that follows from the tree alone:
numbers that are in range come to what their digits say, and of the members of an object those of one name
come to the last of them, in the order of the names.  How deep the reader may go does not matter to it, as
long as it may go deep enough.

Main definitions:

* `Json.Tree.InRange` — every number of a tree is in the range of the formats;
* `Json.Tree.value`, `Json.Tree.merge` — **the value of a tree**, and that of members behind others.

Main results:

* `Json.Value.lookup_insert`, `Json.Value.sorted_insert` — a member put among others;
* `Json.Tree.lookup_merge`, `Json.Tree.sorted_merge` — **of members with one name the last counts**;
* `Json.Value.decoder_of_shows`, `Json.Value.entries_of_shows` — **a tree is read as its value**;
* `Json.Value.entries_of_alike` — trees that differ only in places are read as the same, however deep the
  reader may go.
-/
import Mathlib.Data.String.Basic
import FeatureFlags.Proofs.Nesting
import FeatureFlags.Proofs.Placeless
import FeatureFlags.Proofs.Records

set_option autoImplicit false

namespace FeatureFlags.Json

open Spelling

/-! ### Members in the order of their names -/

/-- What is found under a name, member by member. -/
theorem lookup_cons_if {β : Type} (k name : String) (b : β) (ms : List (String × β)) :
    ((name, b) :: ms).lookup k = if k = name then some b else ms.lookup k := by
  rw [List.lookup_cons]
  by_cases h : k = name
  · simp [h]
  · simp [h, beq_false_of_ne h]

theorem lookup_eq_none {β : Type} {k : String} {ms : List (String × β)} (h : k ∉ ms.map (·.1)) :
    ms.lookup k = none := by
  rw [List.lookup_eq_none_iff]
  intro m hm
  rw [bne_iff_ne]
  rintro rfl
  exact h (List.mem_map_of_mem hm)

namespace Value

variable {name : String} {v : Value} {ms : List (String × Value)}

/-- Behind an insertion the name has the new value, and the other names have what they had. -/
theorem lookup_insert (name k : String) (v : Value) (ms : List (String × Value)) :
    (insert name v ms).lookup k = if k = name then some v else ms.lookup k := by
  induction ms with
  | nil => exact lookup_cons_if k name v []
  | cons m ms ih =>
      obtain ⟨other, w⟩ := m
      rw [insert]
      split
      · exact lookup_cons_if k name v _
      · split
        · next heq =>
            subst heq
            rw [lookup_cons_if, lookup_cons_if]
            by_cases h : k = name <;> simp [h]
        · next hne =>
            rw [lookup_cons_if, lookup_cons_if, ih]
            by_cases h : k = other
            · simp [h, Ne.symm hne]
            · simp [h]

theorem mem_insert {m : String × Value} (h : m ∈ insert name v ms) : m.1 = name ∨ m ∈ ms := by
  induction ms with
  | nil =>
      rw [insert, List.mem_singleton] at h
      exact Or.inl (congrArg (·.1) h)
  | cons k ms ih =>
      obtain ⟨other, w⟩ := k
      rw [insert] at h
      split at h
      · rcases List.mem_cons.1 h with rfl | h
        · exact Or.inl rfl
        · exact Or.inr h
      · split at h
        · next heq =>
            rcases List.mem_cons.1 h with rfl | h
            · exact Or.inl heq.symm
            · exact Or.inr (List.mem_cons_of_mem _ h)
        · rcases List.mem_cons.1 h with rfl | h
          · exact Or.inr (List.mem_cons_self ..)
          · exact (ih h).imp id (List.mem_cons_of_mem _)

/-- The members are in the order of their names, and no two have the same name. -/
def Sorted (ms : List (String × Value)) : Prop := ms.Pairwise fun a b => a.1 < b.1

theorem sorted_insert (h : Sorted ms) : Sorted (insert name v ms) := by
  induction ms with
  | nil => exact List.pairwise_singleton _ _
  | cons k ms ih =>
      obtain ⟨other, w⟩ := k
      obtain ⟨hother, hms⟩ := List.pairwise_cons.1 h
      rw [insert]
      split
      · next hlt =>
          refine List.pairwise_cons.2 ⟨fun m hm => ?_, h⟩
          rcases List.mem_cons.1 hm with rfl | hm
          · exact hlt
          · exact lt_trans hlt (hother m hm)
      · next hge =>
          split
          · exact List.pairwise_cons.2 ⟨hother, hms⟩
          · next hne =>
              refine List.pairwise_cons.2 ⟨fun m hm => ?_, ih hms⟩
              rcases mem_insert hm with hname | hm
              · rw [hname]
                exact lt_of_le_of_ne (not_lt.1 hge) (Ne.symm hne)
              · exact hother m hm

end Value

/-! ### The value of a tree -/

namespace Tree

mutual

/-- Every number of the tree is in the range of the formats. -/
def InRange : Tree → Prop
  | .number n => ∃ x, n.value = .ok x
  | .array ts => ItemsInRange ts
  | .object ms => MembersInRange ms
  | .null | .bool _ | .string _ => True

/-- Every number of the items is in range. -/
def ItemsInRange : List Tree → Prop
  | [] => True
  | t :: ts => t.InRange ∧ ItemsInRange ts

/-- Every number of the members is in range. -/
def MembersInRange : List (String × Tree) → Prop
  | [] => True
  | (_, t) :: ms => t.InRange ∧ MembersInRange ms

end

mutual

/-- **The value of a tree.**  A number out of range has none, and counts as null here. -/
def value : Tree → Value
  | .null => .null
  | .bool b => .bool b
  | .number n =>
    match n.value with
    | .ok x => .number x
    | .error _ => .null
  | .string s => .string s
  | .array ts => .array (values ts)
  | .object ms => .object (merge [] ms)

/-- The values of some items. -/
def values : List Tree → List Value
  | [] => []
  | t :: ts => t.value :: values ts

/-- The values of some members, put one after the other among those that were there before. -/
def merge (seen : List (String × Value)) : List (String × Tree) → List (String × Value)
  | [] => seen
  | (name, t) :: ms => merge (Value.insert name t.value seen) ms

end

theorem sorted_merge {seen : List (String × Value)} (h : Value.Sorted seen) (ms : List (String × Tree)) :
    Value.Sorted (merge seen ms) := by
  induction ms generalizing seen with
  | nil => exact h
  | cons m ms ih => exact ih (Value.sorted_insert h)

/-- **Of members with one name the last counts.** -/
theorem lookup_merge (seen : List (String × Value)) (ms : List (String × Tree)) (k : String) :
    (merge seen ms).lookup k = ((occurrences k ms).getLast?.map value).or (seen.lookup k) := by
  induction ms generalizing seen with
  | nil => rfl
  | cons m ms ih =>
      obtain ⟨name, t⟩ := m
      rw [merge, ih, Value.lookup_insert, occurrences_cons]
      by_cases hname : name = k
      · subst hname
        rw [if_pos rfl, if_pos rfl, List.getLast?_cons]
        cases (occurrences name ms).getLast? <;> rfl
      · rw [if_neg hname, if_neg (Ne.symm hname)]

theorem membersInRange_occurrences {name : String} {ms : List (String × Tree)} (h : MembersInRange ms) :
    ∀ t ∈ occurrences name ms, t.InRange := by
  induction ms with
  | nil => simp
  | cons m ms ih =>
      obtain ⟨ht, hms⟩ := h
      rw [occurrences_cons]
      split
      · exact List.forall_mem_cons.2 ⟨ht, ih hms⟩
      · exact ih hms

end Tree

/-- The value of a member is no deeper than the members. -/
theorem depth_le_of_mem_occurrences {name : String} {fs : List (Field Node)} {n : Node}
    (h : n ∈ occurrences name (Field.named fs)) : n.depth ≤ depthOfMembers fs := by
  induction fs with
  | nil => cases h
  | cons f fs ih =>
      rw [depthOfMembers]
      cases hkey : f.key.text with
      | error e =>
          have hnamed : Field.named (f :: fs) = Field.named fs := by simp [Field.named, hkey, Except.toOption]
          rw [hnamed] at h
          exact Nat.le_trans (ih h) (Nat.le_max_right ..)
      | ok q =>
          rw [Field.named_cons hkey, occurrences_cons] at h
          split at h
          · rcases List.mem_cons.1 h with rfl | h
            · exact Nat.le_max_left ..
            · exact Nat.le_trans (ih h) (Nat.le_max_right ..)
          · exact Nat.le_trans (ih h) (Nat.le_max_right ..)

namespace Value

/-! ### Reading a tree that is shown -/

/-- What is found is read as the value of what it shows, if the reader may go deep enough. -/
def Reads : Finding → Part → Prop
  | .value n, .tree t => t.InRange → ∀ d, n.depth < d → decoder d n = .ok t.value
  | .items ns, .items ts =>
    Tree.ItemsInRange ts → ∀ d, depthOfItems ns < d → decodeItems d ns = .ok (Tree.values ts)
  | .members fs, .members ms =>
    Tree.MembersInRange ms → ∀ d seen, depthOfMembers fs < d →
      decodeMembers d seen fs = .ok (Tree.merge seen ms)
  | _, _ => False

theorem reads_of_shows {x : Finding} {p : Part} (h : x.Shows p) : Reads x p := by
  induction h with
  | null | bool | string => exact fun _ _ _ => rfl
  | @number start stop n x hvalue =>
      intro _ d _
      rw [Tree.value, hvalue, decoder]
  | tooLarge hvalue =>
      rintro ⟨x, hx⟩
      rw [hvalue] at hx
      cases hx
  | array _ ih =>
      intro hrange d hd
      rw [Node.depth] at hd
      rw [decoder, if_neg (by omega), ih hrange (d - 1) (by omega)]
      rfl
  | object _ ih =>
      intro hrange d hd
      rw [Node.depth] at hd
      rw [decoder, if_neg (by omega), ih hrange (d - 1) [] (by omega)]
      rfl
  | noItems => exact fun _ _ _ => rfl
  | item _ _ ih ih' =>
      intro hrange d hd
      rw [depthOfItems] at hd
      simp only [decodeItems, ih hrange.1 d (by omega), ih' hrange.2 d (by omega), Tree.values]
  | noMembers => exact fun _ _ _ _ => rfl
  | member hkey _ _ ih ih' =>
      intro hrange d seen hd
      rw [depthOfMembers] at hd
      simp only [decodeMembers, hkey, ih hrange.1 d (by omega), ih' hrange.2 d _ (by omega), Tree.merge]

/-- **A tree is read as its value.** -/
theorem decoder_of_shows {n : Node} {t : Tree} (h : n.Shows t) (hrange : t.InRange) {d : Nat}
    (hd : n.depth < d) : decoder d n = .ok t.value := reads_of_shows h hrange d hd

/-- An object is read as its members. -/
theorem entries_of_shows {n : Node} {ms : List (String × Tree)} (h : n.Shows (.object ms))
    (hrange : (Tree.object ms).InRange) {d : Nat} (hd : n.depth ≤ d) :
    entries d n = .ok (Tree.merge [] ms) := by
  cases h with
  | object hfs =>
      rw [Node.depth] at hd
      simp only [entries, reads_of_shows hfs hrange d [] (by omega), Tail.read]
      rfl

/-! ### Trees that differ only in places -/

/-- Two findings are read as the same, however deep the readers may go, if this is deep enough. -/
def ReadAlike : Finding → Finding → Prop
  | .value n, .value n' => ∀ d d', n.depth < d → n'.depth < d' →
      (decoder d n).toOption = (decoder d' n').toOption
  | .items ns, .items ns' => ∀ d d', depthOfItems ns < d → depthOfItems ns' < d' →
      (decodeItems d ns).toOption = (decodeItems d' ns').toOption
  | .members fs, .members fs' => ∀ d d' seen, depthOfMembers fs < d → depthOfMembers fs' < d' →
      (decodeMembers d seen fs).toOption = (decodeMembers d' seen fs').toOption
  | _, _ => False

theorem readAlike_of_alike {x y : Finding} (h : x.Alike y) : ReadAlike x y := by
  induction h with
  | null | bool => exact fun _ _ _ _ => rfl
  | number h =>
      intro d d' _ _
      rcases error_or_ok_of_toOption h with ⟨f, f', rfl, rfl⟩ | ⟨x, rfl, rfl⟩ <;> rfl
  | string h =>
      intro d d' _ _
      rcases error_or_ok_of_toOption h with ⟨f, f', rfl, rfl⟩ | ⟨q, rfl, rfl⟩ <;> rfl
  | array _ ih =>
      intro d d' hd hd'
      rw [Node.depth] at hd hd'
      rw [decoder, decoder, if_neg (by omega), if_neg (by omega)]
      rcases error_or_ok_of_toOption (ih (d - 1) (d' - 1) (by omega) (by omega)) with
        ⟨f, f', hread, hread'⟩ | ⟨vs, hread, hread'⟩ <;>
      · rw [hread, hread']
        rfl
  | object _ ih =>
      intro d d' hd hd'
      rw [Node.depth] at hd hd'
      rw [decoder, decoder, if_neg (by omega), if_neg (by omega)]
      rcases error_or_ok_of_toOption (ih (d - 1) (d' - 1) [] (by omega) (by omega)) with
        ⟨f, f', hread, hread'⟩ | ⟨ms, hread, hread'⟩ <;>
      · rw [hread, hread']
        rfl
  | noItems => exact fun _ _ _ _ => rfl
  | item _ _ ih ih' =>
      intro d d' hd hd'
      rw [depthOfItems] at hd hd'
      rw [decodeItems, decodeItems]
      rcases error_or_ok_of_toOption (ih d d' (by omega) (by omega)) with
        ⟨f, f', hread, hread'⟩ | ⟨v, hread, hread'⟩
      · rw [hread, hread']
        rfl
      · rw [hread, hread']
        rcases error_or_ok_of_toOption (ih' d d' (by omega) (by omega)) with
          ⟨f, f', hread, hread'⟩ | ⟨vs, hread, hread'⟩
        · rw [hread, hread']
          rfl
        · rw [hread, hread']
  | noMembers => exact fun _ _ _ _ _ => rfl
  | member hkey _ _ ih ih' =>
      intro d d' seen hd hd'
      rw [depthOfMembers] at hd hd'
      rw [decodeMembers, decodeMembers]
      rcases error_or_ok_of_toOption hkey with ⟨f, f', hq, hq'⟩ | ⟨q, hq, hq'⟩
      · rw [hq, hq']
        rfl
      · rw [hq, hq']
        rcases error_or_ok_of_toOption (ih d d' (by omega) (by omega)) with
          ⟨f, f', hread, hread'⟩ | ⟨v, hread, hread'⟩
        · rw [hread, hread']
          rfl
        · rw [hread, hread']
          exact ih' d d' _ (by omega) (by omega)

/-- Objects that differ only in places are read as the same members, however deep the readers may go. -/
theorem entries_of_alike {n n' : Node} (h : n.Alike n') {d d' : Nat} (hd : n.depth ≤ d)
    (hd' : n'.depth ≤ d') : (entries d n).toOption = (entries d' n').toOption := by
  cases h with
  | null | bool | number | string | array => rfl
  | object hfs =>
      rw [Node.depth] at hd hd'
      rw [entries, entries]
      rcases error_or_ok_of_toOption (readAlike_of_alike hfs d d' [] (by omega) (by omega)) with
        ⟨f, f', hread, hread'⟩ | ⟨ms, hread, hread'⟩ <;>
      · rw [hread, hread']
        rfl

end Value

end FeatureFlags.Json
