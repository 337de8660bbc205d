/-
**What a record reads of an object.**

The members of an object are read one after the other, in the order of the text, by one reader that keeps
what each member of the record has come to so far.  All the same, what a member of a record comes to depends
on nothing but the values under its own name: if there is none, what stands for a missing one; if there is
one, what it is decoded as; and if there are several, the object is at fault.  So the order of members does
not count, and neither do the members of other names.

This is shown for records of one member, and two records that have no name in common read side by side, as
if each were alone with the object.

Main definitions:

* `Json.occurrences` — the values under a name;
* `Json.Field.named` — the members of an object by their names;
* `Json.Legible` — members whose names can be read and whose values can be skipped;
* `Json.Record.Reads` — **what a record reads of the members of an object.**

Main results:

* `Json.legible_of_shows`, `Json.forall₂_occurrences` — members that show a tree;
* `Json.Decoder.list_array_iff`, `Json.Decoder.items_cons_iff` — a list is read item by item;
* `Json.Record.reads_one_iff` — what a single member reads;
* `Json.Record.reads_and_iff`, `Json.Record.one_and_reads_iff` — **records read side by side**;
* `Json.Record.decoder_object_iff` — a record is decoded as what it reads.
-/
import Mathlib.Data.List.Forall2
import FeatureFlags.Proofs.ListForm
import FeatureFlags.Proofs.Members

set_option autoImplicit false

namespace FeatureFlags.Json

variable {α β : Type}

/-! ### The values under a name -/

/-- The values under a name, in the order in which they stand. -/
def occurrences (name : String) (ms : List (String × α)) : List α :=
  (ms.filter fun m => m.1 = name).map (·.2)

@[simp] theorem occurrences_nil (name : String) : occurrences name ([] : List (String × α)) = [] := rfl

theorem occurrences_cons (name other : String) (a : α) (ms : List (String × α)) :
    occurrences name ((other, a) :: ms) =
      if other = name then a :: occurrences name ms else occurrences name ms := by
  by_cases h : other = name <;> simp [occurrences, h]

theorem occurrences_append (name : String) (ms ns : List (String × α)) :
    occurrences name (ms ++ ns) = occurrences name ms ++ occurrences name ns := by
  simp [occurrences]

/-- The members of an object by their names, as far as these can be read. -/
def Field.named (fs : List (Field Node)) : List (String × Node) :=
  fs.filterMap fun f => f.key.text.toOption.map fun q => (q.text, f.value)

theorem Field.named_cons {f : Field Node} {q : Quoted} (h : f.key.text = .ok q) (fs : List (Field Node)) :
    named (f :: fs) = (q.text, f.value) :: named fs := by
  simp [named, h, Except.toOption]

/-- The names of these members can be read, and their values can be skipped. -/
def Legible (fs : List (Field Node)) : Prop :=
  ∀ f ∈ fs, (∃ q, f.key.text = .ok q) ∧ f.value.skip = .ok ()

/-! ### Members that show a tree -/

/-- What shows something can be skipped. -/
theorem skip_of_shows {x : Finding} {p : Spelling.Part} (h : x.Shows p) :
    (∀ n, x = .value n → n.skip = .ok ()) ∧ (∀ ns, x = .items ns → skipItems ns = .ok ()) ∧
      ∀ fs, x = .members fs → skipMembers fs = .ok () := by
  induction h with
  | null | bool | number | tooLarge | string => simp [Node.skip]
  | array _ ih => simp [Node.skip, ih, Tail.skip]
  | object _ ih => simp [Node.skip, ih, Tail.skip]
  | noItems => simp [skipItems]
  | item _ _ ih ih' => simp [skipItems, ih, ih']
  | noMembers => simp [skipMembers]
  | member _ _ _ ih ih' => simp [skipMembers, ih, ih']

section

variable {fs : List (Field Node)} {ms : List (String × Tree)}

theorem legible_of_shows (h : (Finding.members fs).Shows (.members ms)) : Legible fs := by
  induction ms generalizing fs with
  | nil =>
      cases h
      intro f hf
      cases hf
  | cons m ms ih =>
      cases h with
      | member hkey hn hfs =>
          refine List.forall_mem_cons.2 ⟨⟨⟨_, hkey⟩, ?_⟩, ih hfs⟩
          exact (skip_of_shows hn).1 _ rfl

/-- The values under a name show the trees under this name. -/
theorem forall₂_occurrences (name : String) (h : (Finding.members fs).Shows (.members ms)) :
    List.Forall₂ Node.Shows (occurrences name (Field.named fs)) (occurrences name ms) := by
  induction ms generalizing fs with
  | nil =>
      cases h
      exact .nil
  | cons m ms ih =>
      cases h with
      | member hkey hn hfs =>
          rw [Field.named_cons hkey, occurrences_cons, occurrences_cons]
          split
          · exact .cons hn (ih hfs)
          · exact ih hfs

end

/-! ### Items -/

/-- Items are read one by one. -/
theorem Decoder.items_cons_iff {d : Decoder α} {n : Node} {ns : List Node} {as : List α} :
    items d (n :: ns) = .ok as ↔ ∃ a as', d n = .ok a ∧ items d ns = .ok as' ∧ as = a :: as' := by
  rw [items]
  cases d n with
  | error f => simp
  | ok a => cases items d ns <;> simp [eq_comm]

theorem Decoder.list_array_iff {d : Decoder α} {start stop : Nat} {ns : List Node} {as : List α} :
    list d (.array start ns (.closed stop)) = .ok as ↔ items d ns = .ok as := by
  rw [list]
  cases items d ns <;> simp [Tail.read]

namespace Record

/-! ### Reading members -/

/-- A record takes up the members of its own names, and no others. -/
def OwnNames (r : Record α) : Prop := ∀ s name, r.claim s name = .unknown ↔ name ∉ r.names

/-- What a record reads of the members of an object. -/
def Reads (r : Record α) (fs : List (Field Node)) (a : α) : Prop :=
  ∃ s, r.members r.start fs = .ok s ∧ r.finish s = .ok a

/-- **A record is decoded as what it reads of the members of an object.** -/
theorem decoder_object_iff {name : String} {r : Record α} {start stop : Nat} {fs : List (Field Node)}
    {a : α} : r.decoder name (.object start fs (.closed stop)) = .ok a ↔ r.Reads fs a := by
  simp only [decoder, Reads, Tail.read]
  cases r.members r.start fs with
  | error f => simp
  | ok s => cases hfinish : r.finish s <;> simp [hfinish]

/-! ### A single member -/

variable {m : Member α} {fs : List (Field Node)}

theorem ownNames_one (m : Member α) : (one m).OwnNames := by
  intro s name
  simp only [one, List.mem_singleton]
  by_cases h : name = m.name
  · cases s <;> simp [h]
  · simp [h]

/-- Once the member was read, its name must not come again. -/
theorem one_members_some_iff (hfs : Legible fs) {a : α} {s : (one m).State} :
    (one m).members (some a) fs = .ok s ↔ occurrences m.name (Field.named fs) = [] ∧ s = some a := by
  induction fs with
  | nil =>
      constructor
      · rintro ⟨⟩
        exact ⟨rfl, rfl⟩
      · rintro ⟨-, rfl⟩
        rfl
  | cons f fs ih =>
      obtain ⟨⟨⟨q, hkey⟩, hskip⟩, hfs⟩ := List.forall_mem_cons.1 hfs
      rw [Field.named_cons hkey, occurrences_cons]
      by_cases hname : q.text = m.name
      · have hclaim : (one m).claim (some a) q.text = .again := if_pos hname
        simp only [members, hkey, hclaim, if_pos hname]
        simp
      · have hclaim : (one m).claim (some a) q.text = .unknown := if_neg hname
        simp only [members, hkey, hclaim, hskip, if_neg hname]
        exact ih hfs

/-- As long as the member was not read, its name may come once. -/
theorem one_members_none_iff (hfs : Legible fs) {s : (one m).State} :
    (one m).members none fs = .ok s ↔
      (occurrences m.name (Field.named fs) = [] ∧ s = none) ∨
        ∃ n a, occurrences m.name (Field.named fs) = [n] ∧ m.decoder n = .ok a ∧ s = some a := by
  induction fs with
  | nil =>
      constructor
      · rintro ⟨⟩
        exact Or.inl ⟨rfl, rfl⟩
      · rintro (⟨-, rfl⟩ | ⟨n, a, hn, -⟩)
        · rfl
        · cases hn
  | cons f fs ih =>
      obtain ⟨⟨⟨q, hkey⟩, hskip⟩, hfs⟩ := List.forall_mem_cons.1 hfs
      rw [Field.named_cons hkey, occurrences_cons]
      by_cases hname : q.text = m.name
      · have hclaim : (one m).claim none q.text = .take fun n => (m.decoder n).map some := if_pos hname
        simp only [members, hkey, hclaim, if_pos hname]
        cases hn : m.decoder f.value with
        | error e => simp +contextual [Except.map, hn]
        | ok a =>
            simp only [Except.map]
            rw [one_members_some_iff hfs]
            constructor
            · rintro ⟨hnone, rfl⟩
              exact Or.inr ⟨f.value, a, by rw [hnone], hn, rfl⟩
            · rintro (⟨hnil, -⟩ | ⟨n, b, hone, hb, rfl⟩)
              · cases hnil
              · obtain ⟨rfl, hnone⟩ := List.cons.inj hone
                rw [hn] at hb
                cases hb
                exact ⟨hnone, rfl⟩
      · have hclaim : (one m).claim none q.text = .unknown := if_neg hname
        simp only [members, hkey, hclaim, hskip, if_neg hname]
        exact ih hfs

/-- **A single member reads the values under its name**: at most one, or what stands for a missing one. -/
theorem reads_one_iff (hfs : Legible fs) {a : α} :
    (one m).Reads fs a ↔ ∃ o : Option Node, occurrences m.name (Field.named fs) = o.toList ∧
      Stands m.decoder m.missing o a := by
  have hread : ∀ b, (one m).finish (some b) = .ok b := fun b => rfl
  have hmissing : (one m).finish none = .ok a ↔ m.missing = some a := by
    simp only [one]
    cases m.missing <;> simp
  constructor
  · rintro ⟨s, hs, ha⟩
    rcases (one_members_none_iff hfs).1 hs with ⟨hnone, rfl⟩ | ⟨n, b, hn, hb, rfl⟩
    · exact ⟨none, hnone, .missing (hmissing.1 ha)⟩
    · rw [hread b] at ha
      cases ha
      exact ⟨some n, hn, .item hb⟩
  · rintro ⟨o, ho, hstands⟩
    cases hstands with
    | missing ha => exact ⟨none, (one_members_none_iff hfs).2 (Or.inl ⟨ho, rfl⟩), hmissing.2 ha⟩
    | @item n a ha => exact ⟨some a, (one_members_none_iff hfs).2 (Or.inr ⟨n, a, ho, ha, rfl⟩), hread a⟩

/-! ### Records side by side -/

variable {r : Record α} {t : Record β}

theorem ownNames_and (hr : r.OwnNames) (ht : t.OwnNames) : (r.and t).OwnNames := by
  intro s name
  have hnames : name ∉ (r.and t).names ↔ name ∉ r.names ∧ name ∉ t.names := by
    simp only [Record.and, List.mem_append, not_or]
  rw [hnames, ← hr s.1, ← ht s.2]
  simp only [Record.and]
  cases r.claim s.1 name with
  | again => simp
  | take read => simp
  | unknown => cases t.claim s.2 name <;> simp

theorem ownNames_map (hr : r.OwnNames) (f : α → β) : (r.map f).OwnNames := hr

/-- What two records keep while they read is what each of them keeps alone. -/
theorem and_members_iff (hr : r.OwnNames) (ht : t.OwnNames) (hnames : ∀ name ∈ r.names, name ∉ t.names)
    (hfs : Legible fs) {s s' : r.State} {u u' : t.State} :
    (r.and t).members (s, u) fs = .ok (s', u') ↔ r.members s fs = .ok s' ∧ t.members u fs = .ok u' := by
  induction fs generalizing s u with
  | nil =>
      constructor
      · rintro ⟨⟩
        exact ⟨rfl, rfl⟩
      · rintro ⟨⟨⟩, ⟨⟩⟩
        rfl
  | cons f fs ih =>
      obtain ⟨⟨⟨q, hkey⟩, hskip⟩, hfs⟩ := List.forall_mem_cons.1 hfs
      cases hclaim : r.claim s q.text with
      | again =>
          have hboth : (r.and t).claim (s, u) q.text = .again := by simp only [Record.and, hclaim]
          simp [members, hkey, hboth, hclaim]
      | take read =>
          -- the name is one of the first record, so the second has none like it
          have hmem : q.text ∈ r.names := by
            by_contra hnot
            rw [(hr s q.text).2 hnot] at hclaim
            cases hclaim
          have hother : t.claim u q.text = .unknown := (ht u q.text).2 (hnames _ hmem)
          have hboth : (r.and t).claim (s, u) q.text = .take fun n => (read n).map fun a => (a, u) := by
            simp only [Record.and, hclaim]
          simp only [members, hkey, hboth, hclaim, hother, hskip]
          cases read f.value with
          | error e => simp [Except.map]
          | ok s => exact ih hfs
      | unknown =>
          cases hclaim' : t.claim u q.text with
          | again =>
              have hboth : (r.and t).claim (s, u) q.text = .again := by
                simp only [Record.and, hclaim, hclaim']
              simp [members, hkey, hboth, hclaim']
          | take read =>
              have hboth : (r.and t).claim (s, u) q.text =
                  .take fun n => (read n).map fun b => (s, b) := by
                simp only [Record.and, hclaim, hclaim']
              simp only [members, hkey, hboth, hclaim, hclaim', hskip]
              cases read f.value with
              | error e => simp [Except.map]
              | ok u => exact ih hfs
          | unknown =>
              have hboth : (r.and t).claim (s, u) q.text = .unknown := by
                simp only [Record.and, hclaim, hclaim']
              simp only [members, hkey, hboth, hclaim, hclaim', hskip]
              exact ih hfs

/-- **Records that have no name in common read side by side.** -/
theorem reads_and_iff (hr : r.OwnNames) (ht : t.OwnNames) (hnames : ∀ name ∈ r.names, name ∉ t.names)
    (hfs : Legible fs) {p : α × β} : (r.and t).Reads fs p ↔ r.Reads fs p.1 ∧ t.Reads fs p.2 := by
  have hfinish : ∀ s u, (r.and t).finish (s, u) = .ok p ↔
      r.finish s = .ok p.1 ∧ t.finish u = .ok p.2 := by
    intro s u
    obtain ⟨a, b⟩ := p
    simp only [Record.and]
    cases r.finish s with
    | error c => simp
    | ok a' => cases t.finish u <;> simp
  constructor
  · rintro ⟨⟨s, u⟩, hsu, hp⟩
    obtain ⟨hs, hu⟩ := (and_members_iff hr ht hnames hfs).1 hsu
    obtain ⟨ha, hb⟩ := (hfinish s u).1 hp
    exact ⟨⟨s, hs, ha⟩, ⟨u, hu, hb⟩⟩
  · rintro ⟨⟨s, hs, ha⟩, ⟨u, hu, hb⟩⟩
    exact ⟨(s, u), (and_members_iff hr ht hnames hfs).2 ⟨hs, hu⟩, (hfinish s u).2 ⟨ha, hb⟩⟩

/-- A first member reads the values under its name, and those behind it read as if they stood alone. -/
theorem one_and_reads_iff (ht : t.OwnNames) (hname : m.name ∉ t.names) (hfs : Legible fs) {p : α × β} :
    ((one m).and t).Reads fs p ↔
      (∃ o : Option Node, occurrences m.name (Field.named fs) = o.toList ∧
        Stands m.decoder m.missing o p.1) ∧ t.Reads fs p.2 := by
  have hnames : ∀ name ∈ (one m).names, name ∉ t.names := by
    intro name hmem
    rw [List.mem_singleton.1 hmem]
    exact hname
  rw [reads_and_iff (ownNames_one m) ht hnames hfs, reads_one_iff hfs]

theorem reads_map_iff {f : α → β} {b : β} : (r.map f).Reads fs b ↔ ∃ a, r.Reads fs a ∧ f a = b := by
  have hfinish : ∀ s, (r.map f).finish s = .ok b ↔ ∃ a, r.finish s = .ok a ∧ f a = b := by
    intro s
    simp only [Record.map]
    cases r.finish s <;> simp [Except.map]
  constructor
  · rintro ⟨s, hs, hb⟩
    obtain ⟨a, ha, hab⟩ := (hfinish s).1 hb
    exact ⟨a, ⟨s, (map_members r f r.start fs).symm.trans hs, ha⟩, hab⟩
  · rintro ⟨a, ⟨s, hs, ha⟩, hab⟩
    exact ⟨s, (map_members r f r.start fs).trans hs, (hfinish s).2 ⟨a, ha, hab⟩⟩

end Record

end FeatureFlags.Json
