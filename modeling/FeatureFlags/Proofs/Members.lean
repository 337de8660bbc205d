/-
**What is written member by member is read member by member.**

A decoder takes a tree for a value if it reads this value wherever a text shows the tree.  As the text
of a value shows the tree of the value, a decoder that takes the tree reads the text.

The readers of plain kinds take the trees of their values, and a list is taken if each of its items is.
For a record the members of an object are looked at from the front: the record's first member is the
object's first one, or it is left out and something stands for it.  Its name is none of those behind it,
so the members behind it are read as if they stood alone.

Main definitions:

* `Json.Decoder.Takes` — **a decoder takes a tree for a value**;
* `Json.Record.Takes` — a record takes the members of an object for a value.

Main results:

* `Json.Decoder.Takes.decode_spelling`, `Json.Decoder.Takes.decode` — **a text is read as the value that is
  taken for its tree**;
* `Json.Decoder.takes_list` — a list is taken if its items are;
* `Json.Record.Takes.and`, `Json.Record.Takes.and_missing` — a first member that is there, or left out;
* `Json.Record.Takes.and_optional`, `Json.Record.Takes.and_list` — members that are only written when
  there is something to write.
-/
import FeatureFlags.Document.Encode
import FeatureFlags.Json.Record
import FeatureFlags.Proofs.Reading
import FeatureFlags.Proofs.Written

set_option autoImplicit false

namespace FeatureFlags.Json

variable {α β : Type}

/-! ### Values of plain kinds -/

/-- A decoder takes a tree for a value: wherever a text shows the tree, this value is read. -/
def Decoder.Takes (d : Decoder α) (t : Tree) (a : α) : Prop := ∀ n : Node, n.Shows t → d n = .ok a

/-- Every spelling of a tree is read as the value that is taken for it. -/
theorem Decoder.Takes.decode_spelling {d : Decoder α} {t : Tree} {a : α} (h : d.Takes t a)
    {s : List Char} (hs : Spelling.OfTree s t) : Json.decode d (Utf8.encodeChars s) = .ok a := by
  have hreads := readsAs_of_tree hs
  rw [Json.decode, Json.read]
  simp only [h _ hreads.root, hreads.rest, List.isEmpty_nil, ↓reduceIte]

/-- **A text is read as the value that is taken for its tree.** -/
theorem Decoder.Takes.decode {d : Decoder α} {v : Value} {a : α} (h : d.Takes v.tree a) :
    Json.decode d (Utf8.encode v.text) = .ok a := by
  rw [Utf8.encode, Value.text, String.toList_ofList]
  exact h.decode_spelling v.spells

namespace Decoder

variable {d : Decoder α} {t : Tree} {a : α}

theorem takes_textAs (want s : String) : (textAs want).Takes (.string s) s := by
  rintro n ⟨⟩
  rfl

theorem takes_text (s : String) : text.Takes (.string s) s := takes_textAs _ s

theorem takes_flag (b : Bool) : flag.Takes (.bool b) b := by
  rintro n ⟨⟩
  rfl

/-- Nodes that show one number are read as one number. -/
theorem single_of_shows {n n' : Node} (h : n.Shows t) (h' : n'.Shows t) {x : Single}
    (hx : single n = .ok x) : single n' = .ok x := by
  cases h with
  | number hvalue =>
      cases h' with
      | number hvalue' =>
          rw [hvalue] at hvalue'
          cases hvalue'
          exact hx
      | tooLarge hvalue' =>
          rw [hvalue] at hvalue'
          cases hvalue'
  | null | bool | tooLarge | string | array | object => cases hx

/-- Where no null stands, an optional value is the value. -/
theorem optional_of_shows {n : Node} (hn : n.Shows t) (ht : t ≠ .null) :
    d.optional n = (d n).map some := by
  cases hn with
  | null => exact absurd rfl ht
  | bool | number | tooLarge | string | array | object => rfl

theorem Takes.optional (h : d.Takes t a) (ht : t ≠ .null) : d.optional.Takes t (some a) := by
  intro n hn
  rw [optional_of_shows hn ht, h n hn]
  rfl

theorem Takes.orDefault (h : d.Takes t a) (ht : t ≠ .null) (b : α) :
    (d.orDefault b).Takes t a := by
  intro n hn
  rw [Decoder.orDefault, h.optional ht n hn]
  rfl

/-! ### Lists and names -/

section

variable {f : α → Value} {as : List α}

theorem items_of_shows (h : ∀ a ∈ as, d.Takes (f a).tree a) {ns : List Node}
    (hns : (Finding.items ns).Shows (.items (Value.trees (as.map f)))) : items d ns = .ok as := by
  induction as generalizing ns with
  | nil =>
      cases hns
      rfl
  | cons a as ih =>
      cases hns with
      | item hn hns =>
          rw [List.forall_mem_cons] at h
          simp only [items, h.1 _ hn, ih h.2 hns]

/-- **A list is taken if its items are.** -/
theorem takes_list (h : ∀ a ∈ as, d.Takes (f a).tree a) : (list d).Takes (jsonList f as).tree as := by
  intro n hn
  cases hn with
  | array hns => simp only [list, items_of_shows h hns, Tail.read]

theorem takes_listOrEmpty (h : ∀ a ∈ as, d.Takes (f a).tree a) :
    ((list d).orDefault []).Takes (jsonList f as).tree as :=
  (takes_list h).orDefault (fun h => nomatch h) []

end

end Decoder

section

variable {v : Vocabulary α} {name : String} {a : α}

theorem Vocabulary.takes (h : v.value? name = some a) : v.decoder.Takes (.string name) a := by
  rintro n ⟨⟩
  simp only [decoder, named, h]

theorem Vocabulary.takes_orDefault (h : v.value? name = some a) (b : α) :
    (v.decoder.orDefault b).Takes (.string name) a :=
  (takes h).orDefault (fun h => nomatch h) b

end

/-! ### Records -/

theorem Value.memberTrees_append (ms ns : List (String × Value)) :
    memberTrees (ms ++ ns) = memberTrees ms ++ memberTrees ns := by
  induction ms with
  | nil => rfl
  | cons m ms ih => simp only [List.cons_append, memberTrees, ih]

namespace Record

/-- A record takes the members of an object for a value: it knows all of them, and wherever a text shows
them, this value is read. -/
structure Takes (r : Record α) (ms : List (String × Tree)) (a : α) : Prop where
  known : ∀ m ∈ ms, m.1 ∈ r.names
  read : ∀ fs, (Finding.members fs).Shows (.members ms) →
    ∃ s, r.members r.start fs = .ok s ∧ r.finish s = .ok a

theorem Takes.decoder {r : Record α} {ms : List (String × Tree)} {a : α} (h : r.Takes ms a)
    (name : String) : (r.decoder name).Takes (.object ms) a := by
  intro n hn
  cases hn with
  | object hfs =>
      obtain ⟨s, hs, ha⟩ := h.read _ hfs
      simp only [Record.decoder, hs, Tail.read, ha]

/-- Members are read alike, whatever the record is seen as in the end. -/
theorem map_members (r : Record α) (f : α → β) (s : r.State) (fs : List (Field Node)) :
    (r.map f).members s fs = r.members s fs := by
  induction fs generalizing s with
  | nil => rfl
  | cons m fs ih =>
      cases hkey : m.key.text with
      | error e => simp only [members, hkey]; rfl
      | ok q =>
          have hsame : (r.map f).claim s q.text = r.claim s q.text := rfl
          cases hclaim : r.claim s q.text with
          | again => simp only [members, hkey, hclaim, hsame]; rfl
          | unknown => simp only [members, hkey, hclaim, hsame, ih]; rfl
          | take read =>
              simp only [members, hkey, hclaim, hsame]
              cases read m.value with
              | error e => rfl
              | ok s' => exact ih s'

theorem Takes.map {r : Record α} {ms : List (String × Tree)} {a : α} (h : r.Takes ms a) (f : α → β) :
    (r.map f).Takes ms (f a) where
  known := h.known
  read fs hfs := by
    obtain ⟨s, hs, ha⟩ := h.read fs hfs
    refine ⟨s, (map_members r f r.start fs).trans hs, ?_⟩
    show (r.finish s).map f = _
    rw [ha]
    rfl

section

variable {m : Member α} {r : Record β} {ms : List (String × Tree)} {v : Tree} {a : α} {b : β}

/-! ### A single member -/

theorem takes_one (h : m.decoder.Takes v a) : (one m).Takes [(m.name, v)] a where
  known := by simp [one]
  read fs hfs := by
    cases hfs with
    | @member key n next fs _ escaped _ _ hkey hn hfs =>
        cases hfs
        refine ⟨some a, ?_, rfl⟩
        have hclaim : (one m).claim (one m).start m.name = .take fun n => (m.decoder n).map some :=
          if_pos rfl
        simp only [members, hkey, hclaim, h n hn]
        rfl

theorem takes_one_missing (h : m.missing = some a) : (one m).Takes [] a where
  known := by simp
  read fs hfs := by
    cases hfs
    refine ⟨none, rfl, ?_⟩
    simp only [one, h]

/-! ### A first member and the others -/

/-- Members of other names are left to the record behind the first member, be this read or not. -/
theorem one_and_members (s : (one m).State) (u : r.State) {fs : List (Field Node)}
    (hfs : (Finding.members fs).Shows (.members ms)) (hms : ∀ k ∈ ms, k.1 ≠ m.name) :
    ((one m).and r).members (s, u) fs = (r.members u fs).map (s, ·) := by
  induction ms generalizing fs u with
  | nil =>
      cases hfs
      rfl
  | cons k ms ih =>
      cases hfs with
      | @member key n next fs name escaped t _ hkey hn hfs =>
          rw [List.forall_mem_cons] at hms
          have hother : (one m).claim s name = .unknown := if_neg hms.1
          cases hclaim : r.claim u name with
          | again => simp only [members, hkey, Record.and, hother, hclaim]; rfl
          | unknown =>
              simp only [members, hkey, Record.and, hother, hclaim]
              cases n.skip with
              | error f => rfl
              | ok _ => exact ih u hfs hms.2
          | take read =>
              simp only [members, hkey, Record.and, hother, hclaim]
              cases read n with
              | error f => rfl
              | ok u' => exact ih u' hfs hms.2

/-- What the members behind a first one are read as. -/
theorem Takes.behind (h : r.Takes ms b) (hname : m.name ∉ r.names) {s : (one m).State}
    (hs : (one m).finish s = .ok a) {fs : List (Field Node)}
    (hfs : (Finding.members fs).Shows (.members ms)) :
    ∃ u, ((one m).and r).members (s, r.start) fs = .ok u ∧ ((one m).and r).finish u = .ok (a, b) := by
  obtain ⟨u, hu, hb⟩ := h.read fs hfs
  have hother : ∀ k ∈ ms, k.1 ≠ m.name := by
    intro k hk hkm
    exact hname (hkm ▸ h.known k hk)
  refine ⟨(s, u), ?_, ?_⟩
  · rw [one_and_members s r.start hfs hother, hu]
    rfl
  · simp only [Record.and, hs, hb]

/-- The first member is there. -/
theorem Takes.and (h : r.Takes ms b) (hm : m.decoder.Takes v a) (hname : m.name ∉ r.names) :
    ((one m).and r).Takes ((m.name, v) :: ms) (a, b) where
  known := by
    rw [List.forall_mem_cons]
    exact ⟨List.mem_append_left _ (List.mem_singleton_self _),
      fun k hk => List.mem_append_right _ (h.known k hk)⟩
  read fs hfs := by
    cases hfs with
    | @member key n next fs _ escaped _ _ hkey hn hfs =>
        obtain ⟨u, hu, hfinish⟩ := h.behind hname (s := some a) rfl hfs
        refine ⟨u, ?_, hfinish⟩
        have hclaim : ((one m).and r).claim ((one m).and r).start m.name =
            .take fun n => ((m.decoder n).map some).map fun a => (a, r.start) := by
          simp only [Record.and, one, ↓reduceIte]
        simp only [members, hkey, hclaim, hm n hn]
        exact hu

/-- The first member is left out. -/
theorem Takes.and_missing (h : r.Takes ms b) (hm : m.missing = some a) (hname : m.name ∉ r.names) :
    ((one m).and r).Takes ms (a, b) where
  known k hk := List.mem_append_right _ (h.known k hk)
  read fs hfs := by
    have hfinish : (one m).finish none = .ok a := by simp only [one, hm]
    exact h.behind hname hfinish hfs

end

/-! ### Members that are left out at times -/

section

variable {r : Record β} {ms : List (String × Tree)} {b : β} {name : String} {d : Decoder α}
  {f : α → Value}

/-- **A first member that is written if there is a value.** -/
theorem Takes.and_optional {o : Option α} (h : r.Takes ms b)
    (ho : ∀ a ∈ o, d.Takes (f a).tree a ∧ (f a).tree ≠ .null) (hname : name ∉ r.names) :
    ((one (.optional name d)).and r).Takes
      (Value.memberTrees (Value.member? name (o.map f)) ++ ms) (o, b) := by
  cases o with
  | none => exact h.and_missing (m := .optional name d) rfl hname
  | some a =>
      obtain ⟨ha, hnull⟩ := ho a rfl
      exact h.and (m := .optional name d) (ha.optional hnull) hname

/-- A last member that is written if there is a value. -/
theorem takes_optional {o : Option α} (ho : ∀ a ∈ o, d.Takes (f a).tree a ∧ (f a).tree ≠ .null) :
    (one (.optional name d)).Takes (Value.memberTrees (Value.member? name (o.map f))) o := by
  cases o with
  | none => exact takes_one_missing (m := .optional name d) rfl
  | some a =>
      obtain ⟨ha, hnull⟩ := ho a rfl
      exact takes_one (m := .optional name d) (ha.optional hnull)

/-- **A first member that is written if the list is not empty.** -/
theorem Takes.and_list {as : List α} (h : r.Takes ms b) (has : ∀ a ∈ as, d.Takes (f a).tree a)
    (hname : name ∉ r.names) :
    ((one (.orDefault name (.list d) [])).and r).Takes
      (Value.memberTrees (Value.member? name (jsonList? f as)) ++ ms) (as, b) := by
  cases as with
  | nil => exact h.and_missing (m := .orDefault name (.list d) []) rfl hname
  | cons a as => exact h.and (m := .orDefault name (.list d) []) (Decoder.takes_listOrEmpty has) hname

end

end Record

end FeatureFlags.Json
