/-
**A document that was written for a newer engine can be read.**

A decoder keeps to the alterations of what it reads if it still reads a value when a tree takes the place of
another, and the same value if the alteration is exact.  The decoders of plain kinds keep to them because
nothing but the same tree takes the place of theirs.  A member keeps to them if its decoder does and if a
choice that is not recognised is read as what stands for a missing one.  Records, lists and optional values
pass it on from their parts, up to the whole document.

So a document in which an object has one more member, which it does not define, is read as the same
document; one in which a choice is not recognised is read as if the choice were missing; and however many
such things come together, the document can be read.

Main definitions:

* `Json.Decoder.Keeps`, `Json.Member.Keeps`, `Json.Record.Keeps` — **a decoder, a member and a record that
  keep to alterations.**

Main results:

* `Json.Member.Keeps.vocabulary` — a choice with a value for every other name;
* `Json.Decoder.Keeps.record`, `Json.Decoder.Keeps.list` — what passes it on;
* `Document.keeps_decoder` — the decoder of documents keeps to alterations;
* `Document.reads_newer` — **a document that was written for a newer engine can be read.**
-/
import Mathlib.Logic.Relation
import FeatureFlags.Document.Decode
import FeatureFlags.Proofs.Alterations
import FeatureFlags.Proofs.Placeless
import FeatureFlags.Proofs.Values

set_option autoImplicit false

namespace FeatureFlags

open Json Schema

namespace Json

variable {α β : Type}

/-! ### What keeps to alterations -/

/-- A decoder reads a value of every tree that takes the place of one it reads, and the same value if the
alteration is exact. -/
def Decoder.Keeps (d : Decoder α) (exact : Prop) (slot : Slot) : Prop :=
  ∀ ⦃t u : Tree⦄, Alters exact slot t u → ∀ ⦃n k : Node⦄, n.Shows t → k.Shows u → ∀ ⦃a : α⦄, d n = .ok a →
    ∃ b, d k = .ok b ∧ (exact → b = a)

/-- A member whose choices may be unrecognised: one that is not recognised is read as what stands for a
missing one. -/
def Member.Forgives (m : Member α) : Slot → Prop
  | .choice names => ∃ a, m.missing = some a ∧ ∀ t, Unrecognised names t → m.decoder.Takes t a
  | .plain | .part _ | .parts _ => True

/-- A member keeps to alterations if its decoder does, and if it forgives a choice that is not recognised. -/
structure Member.Keeps (m : Member α) (exact : Prop) (slot : Slot) : Prop where
  decoder : m.decoder.Keeps exact slot
  forgives : m.Forgives slot

/-- A record keeps to alterations of the members of an object, and of no items of a list. -/
structure Record.Keeps (r : Record α) (exact : Prop) (slots : List (String × Slot)) : Prop where
  own : r.OwnNames
  names : r.names = slots.map (·.1)
  members : ∀ ⦃ms us : List (String × Tree)⦄,
    (∀ name slot, slots.lookup name = some slot →
      Occurs exact (Alters exact) slot (occurrences name ms) (occurrences name us)) →
    ∀ ⦃fs gs : List (Field Node)⦄, (Finding.members fs).Shows (.members ms) →
      (Finding.members gs).Shows (.members us) → ∀ ⦃a : α⦄, r.Reads fs a →
        ∃ b, r.Reads gs b ∧ (exact → b = a)
  items : ∀ ⦃ts : List Tree⦄ ⦃ns ks : List Node⦄, (Finding.items ns).Shows (.items ts) →
    (Finding.items ks).Shows (.items ts) → ∀ ⦃i : Nat⦄ ⦃a : α⦄ ⦃left : List Node⦄,
      r.ofItems i ns = .ok (a, left) → ∃ b left' rest, r.ofItems i ks = .ok (b, left') ∧
        (Finding.items left).Shows (.items rest) ∧ (Finding.items left').Shows (.items rest) ∧
        (exact → b = a)

variable {exact : Prop} {slot : Slot}

/-! ### Plain kinds and choices -/

theorem Decoder.toOption_unit_of_shows {t : Tree} {n k : Node} (hn : n.Shows t) (hk : k.Shows t) :
    (unit n).toOption = (unit k).toOption := by
  cases hn <;> cases hk <;> rfl

/-- Members that show the same are both there or both not. -/
theorem isEmpty_of_shows {fs gs : List (Field Node)} {ms : List (String × Tree)}
    (hfs : (Finding.members fs).Shows (.members ms)) (hgs : (Finding.members gs).Shows (.members ms)) :
    fs.isEmpty = gs.isEmpty := by
  cases hfs <;> cases hgs <;> rfl

namespace Decoder.Keeps

variable {d : Decoder α}

/-- Nothing but the same tree takes the place of a plain value, or of a choice where it is one. -/
theorem of_same (hslot : slot = .plain ∨ ∃ names, slot = .choice names)
    (h : ∀ t n k, n.Shows t → k.Shows t → ∀ a, d n = .ok a → d k = .ok a) : d.Keeps exact slot := by
  intro t u halters n k hn hk a ha
  cases halters with
  | same => exact ⟨a, h t n k hn hk a ha, fun _ => rfl⟩
  | parts _ => rcases hslot with h | ⟨names, h⟩ <;> cases h
  | part _ => rcases hslot with h | ⟨names, h⟩ <;> cases h

theorem text : text.Keeps exact .plain := by
  refine of_same (.inl rfl) fun t n k hn hk a ha => ?_
  cases hn with
  | string =>
      cases hk
      exact ha
  | null | bool | number | tooLarge | array | object => cases ha

theorem flag : flag.Keeps exact .plain := by
  refine of_same (.inl rfl) fun t n k hn hk a ha => ?_
  cases hn with
  | bool =>
      cases hk
      exact ha
  | null | string | number | tooLarge | array | object => cases ha

theorem single : single.Keeps exact .plain :=
  of_same (.inl rfl) fun _ _ _ hn hk _ ha => single_of_shows hn hk ha

/-- A name is read as the same wherever the text shows the same. -/
theorem vocabulary (v : Vocabulary α) {names : List String} : v.decoder.Keeps exact (.choice names) := by
  refine of_same (.inr ⟨names, rfl⟩) fun t n k hn hk a ha => ?_
  rw [← toOption_eq_some_iff] at ha ⊢
  rw [← ha]
  cases hn with
  | string =>
      cases hk
      rw [v.toOption_string, v.toOption_string]
      rfl
  | object hfs =>
      cases hk with
      | object hgs =>
          cases hfs with
          | noMembers => cases ha
          | member hkey hvalue hrest =>
              cases hgs with
              | member hkey' hvalue' hrest' =>
                  rw [v.toOption_member, v.toOption_member, hkey, hkey',
                    toOption_unit_of_shows hvalue' hvalue, isEmpty_of_shows hrest' hrest]
                  rfl
  | null | bool | number | tooLarge | array => cases ha

/-! ### Optional values and lists -/

/-- An optional value is null before and behind an alteration, or neither time. -/
theorem optional (h : d.Keeps exact slot) : d.optional.Keeps exact slot := by
  intro t u halters n k hn hk a ha
  by_cases ht : t = .null
  · subst ht
    cases halters
    cases hn
    cases hk
    exact ⟨a, ha, fun _ => rfl⟩
  · have hu : u ≠ .null := by
      cases halters with
      | same => exact ht
      | parts _ => exact fun hnull => nomatch hnull
      | part _ => exact fun hnull => nomatch hnull
    rw [optional_of_shows hn ht] at ha
    cases hread : d n with
    | error f =>
        rw [hread] at ha
        cases ha
    | ok b =>
        rw [hread] at ha
        cases ha
        obtain ⟨b', hb', hexact⟩ := h halters hn hk hread
        refine ⟨some b', ?_, fun he => congrArg some (hexact he)⟩
        rw [optional_of_shows hk hu, hb']
        rfl

theorem orDefault (h : d.Keeps exact slot) (a : α) : (d.orDefault a).Keeps exact slot := by
  intro t u halters n k hn hk b hb
  rw [Decoder.orDefault] at hb
  cases hread : d.optional n with
  | error f =>
      rw [hread] at hb
      cases hb
  | ok o =>
      rw [hread] at hb
      cases hb
      obtain ⟨o', ho', hexact⟩ := h.optional halters hn hk hread
      refine ⟨o'.getD a, ?_, fun he => congrArg (·.getD a) (hexact he)⟩
      rw [Decoder.orDefault, ho']
      rfl

theorem items {p : Part} (h : d.Keeps exact (.part p)) {ts us : List Tree}
    (hocc : Occurs exact (Alters exact) (.part p) ts us) {ns ks : List Node}
    (hns : (Finding.items ns).Shows (.items ts)) (hks : (Finding.items ks).Shows (.items us)) {as : List α}
    (has : Decoder.items d ns = .ok as) : ∃ bs, Decoder.items d ks = .ok bs ∧ (exact → bs = as) := by
  induction ts generalizing us ns ks as with
  | nil =>
      cases hocc
      cases hns
      cases hks
      exact ⟨as, has, fun _ => rfl⟩
  | cons t ts ih =>
      cases hocc with
      | cons htu hrest =>
          cases hns with
          | item hn hns =>
              cases hks with
              | item hk hks =>
                  obtain ⟨a, as', ha, has', rfl⟩ := Decoder.items_cons_iff.1 has
                  obtain ⟨b, hb, hexact⟩ := h htu hn hk ha
                  obtain ⟨bs, hbs, hexact'⟩ := ih hrest hns hks has'
                  refine ⟨b :: bs, Decoder.items_cons_iff.2 ⟨b, bs, hb, hbs, rfl⟩, fun he => ?_⟩
                  rw [hexact he, hexact' he]

/-- **A list keeps to alterations if its items do.** -/
theorem list {p : Part} (h : d.Keeps exact (.part p)) : d.list.Keeps exact (.parts p) := by
  intro t u halters n k hn hk as has
  cases hn with
  | array hns =>
      obtain ⟨us, rfl, hocc⟩ := halters.items
      cases hk with
      | array hks =>
          rw [Decoder.list_array_iff] at has
          obtain ⟨bs, hbs, hexact⟩ := h.items hocc hns hks has
          exact ⟨bs, Decoder.list_array_iff.2 hbs, hexact⟩
  | null | bool | number | tooLarge | string | object => cases has

end Decoder.Keeps

/-! ### Members -/

namespace Member.Keeps

variable {m : Member α}

/-! A member of no choices has none that is not recognised. -/

theorem plain (h : m.decoder.Keeps exact .plain) : m.Keeps exact .plain := ⟨h, trivial⟩

theorem part {p : Part} (h : m.decoder.Keeps exact (.part p)) : m.Keeps exact (.part p) := ⟨h, trivial⟩

theorem parts {p : Part} (h : m.decoder.Keeps exact (.parts p)) : m.Keeps exact (.parts p) := ⟨h, trivial⟩

/-- **A choice keeps to alterations if a missing one is what every other name stands for.** -/
theorem vocabulary (v : Vocabulary α) {a : α} (ha : v.other = some a) (name : String) :
    (Member.orDefault name v.decoder a).Keeps exact (.choice v.known) where
  decoder := (Decoder.Keeps.vocabulary v).orDefault a
  forgives := by
    refine ⟨a, rfl, fun t ht => ?_⟩
    cases ht with
    | null =>
        intro n hn
        cases hn
        rfl
    | @name s hs =>
        refine Vocabulary.takes_orDefault ?_ a
        rw [Vocabulary.value?, lookup_eq_none hs, ha]
        rfl

/-- What stands for a member behind an alteration of the values under its name. -/
theorem stands (h : m.Keeps exact slot) {ts us : List Tree} (hocc : Occurs exact (Alters exact) slot ts us)
    {ns ks : List Node} (hns : List.Forall₂ Node.Shows ns ts) (hks : List.Forall₂ Node.Shows ks us)
    {o : Option Node} {a : α} (ho : ns = o.toList) (ha : Stands m.decoder m.missing o a) :
    ∃ (o' : Option Node) (b : α), ks = o'.toList ∧ Stands m.decoder m.missing o' b ∧ (exact → b = a) := by
  subst ho
  cases ha with
  | missing hmissing =>
      cases hns
      cases hocc
      cases hks
      exact ⟨none, a, rfl, .missing hmissing, fun _ => rfl⟩
  | item ha =>
      cases hns with
      | cons hn hnil =>
          cases hnil
          cases hocc with
          | cons htu hrest =>
              cases hrest
              cases hks with
              | cons hk hnil =>
                  cases hnil
                  obtain ⟨b, hb, hexact⟩ := h.decoder htu hn hk ha
                  exact ⟨some _, b, rfl, .item hb, hexact⟩
          | replaced hexact hu hrest =>
              cases hrest
              cases hks with
              | cons hk hnil =>
                  cases hnil
                  obtain ⟨b, -, htakes⟩ := h.forgives
                  exact ⟨some _, b, rfl, .item (htakes _ hu _ hk), fun he => absurd he hexact⟩
          | deleted ht hrest =>
              cases hrest
              cases hks
              obtain ⟨b, hmissing, htakes⟩ := h.forgives
              refine ⟨none, b, rfl, .missing hmissing, fun _ => ?_⟩
              rw [htakes _ ht _ hn] at ha
              exact Except.ok.inj ha

end Member.Keeps

/-! ### Records -/

namespace Record.Keeps

variable {m : Member α} {r : Record β} {slots : List (String × Slot)}

/-- A record of one member. -/
theorem one (h : m.Keeps exact slot) : (Record.one m).Keeps exact [(m.name, slot)] where
  own := ownNames_one m
  names := rfl
  members := by
    intro ms us hocc fs gs hfs hgs a ha
    obtain ⟨o, ho, hstands⟩ := (reads_one_iff (legible_of_shows hfs)).1 ha
    have hname := hocc m.name slot (by rw [lookup_cons_if, if_pos rfl])
    obtain ⟨o', b, ho', hb, hexact⟩ := h.stands hname (forall₂_occurrences m.name hfs)
      (forall₂_occurrences m.name hgs) ho hstands
    exact ⟨b, (reads_one_iff (legible_of_shows hgs)).2 ⟨o', ho', hb⟩, hexact⟩
  items := by
    intro ts ns ks hns hks i a left hread
    cases hns with
    | noItems =>
        cases hks
        simp only [Record.one] at hread ⊢
        cases hmissing : m.missing with
        | none =>
            rw [hmissing] at hread
            cases hread
        | some b =>
            rw [hmissing] at hread
            cases hread
            exact ⟨a, [], [], rfl, .noItems, .noItems, fun _ => rfl⟩
    | @item n ns t ts hn hns =>
        cases hks with
        | item hk hks =>
            simp only [Record.one] at hread ⊢
            cases ha : m.decoder n with
            | error f =>
                rw [ha] at hread
                cases hread
            | ok b =>
                rw [ha] at hread
                cases hread
                obtain ⟨b', hb', hexact⟩ := h.decoder .same hn hk ha
                exact ⟨b', _, _, by rw [hb'], hns, hks, hexact⟩

/-- A first member and the members behind it. -/
theorem cons (hm : m.Keeps exact slot) (hname : m.name ∉ slots.map (·.1)) (hr : r.Keeps exact slots) :
    ((Record.one m).and r).Keeps exact ((m.name, slot) :: slots) where
  own := ownNames_and (ownNames_one m) hr.own
  names := congrArg (m.name :: ·) hr.names
  members := by
    have hother : m.name ∉ r.names := by rw [hr.names]; exact hname
    intro ms us hocc fs gs hfs hgs a ha
    obtain ⟨⟨o, ho, hstands⟩, hreads⟩ := (one_and_reads_iff hr.own hother (legible_of_shows hfs)).1 ha
    have hfirst := hocc m.name slot (by rw [lookup_cons_if, if_pos rfl])
    obtain ⟨o', b, ho', hb, hexact⟩ := hm.stands hfirst (forall₂_occurrences m.name hfs)
      (forall₂_occurrences m.name hgs) ho hstands
    have hbehind : ∀ name slot, slots.lookup name = some slot →
        Occurs exact (Alters exact) slot (occurrences name ms) (occurrences name us) := by
      intro name slot' hslot
      refine hocc name slot' ?_
      rw [lookup_cons_if, if_neg, hslot]
      rintro rfl
      rw [lookup_eq_none hname] at hslot
      cases hslot
    obtain ⟨c, hc, hexact'⟩ := hr.members hbehind hfs hgs hreads
    refine ⟨(b, c), (one_and_reads_iff hr.own hother (legible_of_shows hgs)).2 ⟨⟨o', ho', hb⟩, hc⟩,
      fun he => ?_⟩
    rw [hexact he, hexact' he]
  items := by
    intro ts ns ks hns hks i a left hread
    obtain ⟨mid, hfirst, hbehind⟩ := and_ofItems_iff.1 hread
    obtain ⟨b, mid', rest, hb, hmid, hmid', hexact⟩ := (one hm).items hns hks hfirst
    obtain ⟨c, left', rest', hc, hleft, hleft', hexact'⟩ := hr.items hmid hmid' hbehind
    refine ⟨(b, c), left', rest', and_ofItems_iff.2 ⟨mid', hb, hc⟩, hleft, hleft', fun he => ?_⟩
    rw [hexact he, hexact' he]

theorem map (h : r.Keeps exact slots) (f : β → α) : (r.map f).Keeps exact slots where
  own := ownNames_map h.own f
  names := h.names
  members := by
    intro ms us hocc fs gs hfs hgs a ha
    obtain ⟨b, hb, rfl⟩ := reads_map_iff.1 ha
    obtain ⟨c, hc, hexact⟩ := h.members hocc hfs hgs hb
    exact ⟨f c, reads_map_iff.2 ⟨c, hc, rfl⟩, fun he => congrArg f (hexact he)⟩
  items := by
    intro ts ns ks hns hks i a left hread
    obtain ⟨b, hb, rfl⟩ := map_ofItems_iff.1 hread
    obtain ⟨c, left', rest, hc, hleft, hleft', hexact⟩ := h.items hns hks hb
    exact ⟨f c, left', rest, map_ofItems_iff.2 ⟨c, hc, rfl⟩, hleft, hleft',
      fun he => congrArg f (hexact he)⟩

end Record.Keeps

/-- **A record keeps to alterations if its members do.**  Where it is written as a list, it is not altered. -/
theorem Decoder.Keeps.record {p : Part} {r : Record α} (h : r.Keeps exact p.slots) (name : String) :
    (r.decoder name).Keeps exact (.part p) := by
  intro t u halters n k hn hk a ha
  cases hn with
  | object hfs =>
      obtain ⟨us, rfl, hocc⟩ := halters.members
      cases hk with
      | object hgs =>
          obtain ⟨b, hb, hexact⟩ := h.members hocc hfs hgs (Record.decoder_object_iff.1 ha)
          exact ⟨b, Record.decoder_object_iff.2 hb, hexact⟩
  | array hns =>
      cases halters
      cases hk with
      | array hks =>
          obtain ⟨hread, -⟩ := Record.decoder_array_iff.1 ha
          obtain ⟨b, left, rest, hb, hnil, hleft, hexact⟩ := h.items hns hks hread
          cases hnil
          cases hleft
          exact ⟨b, Record.decoder_array_iff.2 ⟨hb, _, rfl⟩, hexact⟩
  | null | bool | number | tooLarge | string => cases ha

end Json

/-! ### The parts of a document -/

section

variable {exact : Prop}

theorem Constraint.keeps_decoder : Constraint.decoder.Keeps exact (.part .constraint) :=
  .record (.map (.cons (.vocabulary _ rfl _) (by decide) <| .cons (.plain .text) (by decide) <|
    .cons (.plain .text) (by decide) <| .one (.plain .text)) _) _

theorem Segment.keeps_decoder : Segment.decoder.Keeps exact (.part .segment) :=
  .record (.map (.cons (.plain .text) (by decide) <| .cons (.vocabulary _ rfl _) (by decide) <|
    .one (.parts (Constraint.keeps_decoder.list.orDefault _))) _) _

theorem Distribution.keeps_decoder : Distribution.decoder.Keeps exact (.part .distribution) :=
  .record (.map (.cons (.plain .text) (by decide) <| .cons (.plain .single) (by decide) <|
    .one (.plain (.optional .text))) _) _

theorem Rule.keeps_decoder : Rule.decoder.Keeps exact (.part .rule) :=
  .record (.map (.cons (.parts (Segment.keeps_decoder.list.orDefault _)) (by decide) <|
    .cons (.vocabulary _ rfl _) (by decide) <|
    .one (.parts (Distribution.keeps_decoder.list.orDefault _))) _) _

theorem SegmentRollout.keeps_decoder : SegmentRollout.decoder.Keeps exact (.part .segmentRollout) :=
  .record (.map (.cons (.vocabulary _ rfl _) (by decide) <| .cons (.plain .flag) (by decide) <|
    .one (.parts (Segment.keeps_decoder.list.orDefault _))) _) _

theorem Threshold.keeps_decoder : Threshold.decoder.Keeps exact (.part .threshold) :=
  .record (.map (.cons (.plain .single) (by decide) <| .one (.plain .flag)) _) _

theorem Rollout.keeps_decoder : Rollout.decoder.Keeps exact (.part .rollout) :=
  .record (.map (.cons (.plain (.optional .text)) (by decide) <|
    .cons (.part SegmentRollout.keeps_decoder.optional) (by decide) <|
    .one (.part Threshold.keeps_decoder.optional)) _) _

theorem Variant.keeps_decoder : Variant.decoder.Keeps exact (.part .variant) :=
  .record (.map (.cons (.plain .text) (by decide) <| .one (.plain (.optional .text))) _) _

theorem Flag.keeps_decoder : Flag.decoder.Keeps exact (.part .flag) :=
  .record (.map (.cons (.plain .text) (by decide) <| .cons (.plain .text) (by decide) <|
    .cons (.vocabulary _ rfl _) (by decide) <| .cons (.plain (.optional .text)) (by decide) <|
    .cons (.plain .flag) (by decide) <|
    .cons (.parts (Rule.keeps_decoder.list.orDefault _)) (by decide) <|
    .cons (.parts (Rollout.keeps_decoder.list.orDefault _)) (by decide) <|
    .one (.part Variant.keeps_decoder.optional)) _) _

theorem Namespace.keeps_decoder : Namespace.decoder.Keeps exact (.part .space) :=
  .record (.map (.cons (.plain .text) (by decide) <| .one (.plain (.optional .text))) _) _

/-- **The decoder of documents keeps to alterations.** -/
theorem Document.keeps_decoder : Document.decoder.Keeps exact (.part .document) :=
  .record (.map (.cons (.part (Namespace.keeps_decoder.orDefault _)) (by decide) <|
    .one (.parts (Flag.keeps_decoder.list.orDefault _))) _) _

end

/-! ### Whole texts -/

namespace Json

mutual

/-- Something shows every tree. -/
theorem Tree.exists_shows : ∀ t : Tree, ∃ n : Node, n.Shows t
  | .null => ⟨.null 0 0, .null⟩
  | .bool b => ⟨.bool 0 0 b, .bool⟩
  | .number n => ⟨_, Outline.shows_number n 0 0 fun _ => ⟨0, .numberOutOfRange⟩⟩
  | .string v => ⟨.string 0 0 (.ok ⟨v, false⟩), .string⟩
  | .array ts =>
      have ⟨ns, hns⟩ := exists_shows_items ts
      ⟨.array 0 ns (.closed 0), .array hns⟩
  | .object ms =>
      have ⟨fs, hfs⟩ := exists_shows_members ms
      ⟨.object 0 fs (.closed 0), .object hfs⟩

theorem Tree.exists_shows_items : ∀ ts : List Tree, ∃ ns, (Finding.items ns).Shows (.items ts)
  | [] => ⟨[], .noItems⟩
  | t :: ts =>
      have ⟨n, hn⟩ := exists_shows t
      have ⟨ns, hns⟩ := exists_shows_items ts
      ⟨n :: ns, .item hn hns⟩

theorem Tree.exists_shows_members :
    ∀ ms : List (String × Tree), ∃ fs, (Finding.members fs).Shows (.members ms)
  | [] => ⟨[], .noMembers⟩
  | (name, t) :: ms =>
      have ⟨n, hn⟩ := exists_shows t
      have ⟨fs, hfs⟩ := exists_shows_members ms
      ⟨⟨⟨.ok ⟨name, false⟩, 0, 0⟩, n, 0⟩ :: fs, .member rfl hn hfs⟩

end

variable {α : Type} {d : Decoder α} {slot : Slot} {t u : Tree} {a : α}

/-- What is read off one text is read off every text that holds the same. -/
theorem Decoder.Keeps.takes (h : d.Keeps True slot) {n : Node} (hn : n.Shows t) (ha : d n = .ok a) :
    d.Takes t a := by
  intro k hk
  obtain ⟨b, hb, hexact⟩ := h .same hn hk ha
  rw [hb, hexact trivial]

/-- A text is decoded as a value if this value is taken for its tree. -/
theorem Decoder.Keeps.decode_iff (h : d.Keeps True slot) {s : List Char} (hs : Spelling.OfTree s t) :
    decode d (Utf8.encodeChars s) = .ok a ↔ d.Takes t a := by
  refine decode_iff_of_found ((Outline.found_of_part hs).imp fun n hn => ?_)
  exact ⟨fun ha => h.takes hn ha, fun htakes => htakes n hn⟩

/-- An exact alteration does not change what a tree is taken for. -/
theorem Decoder.Keeps.takes_exact (h : d.Keeps True slot) (hu : Alters True slot t u) (ha : d.Takes t a) :
    d.Takes u a := by
  obtain ⟨n, hn⟩ := t.exists_shows
  intro k hk
  obtain ⟨b, hb, hexact⟩ := h hu hn hk (ha n hn)
  rw [hb, hexact trivial]

/-- Behind any other alteration a tree is taken for something. -/
theorem Decoder.Keeps.exists_takes (h : ∀ exact, d.Keeps exact slot) (hu : Alters False slot t u)
    (ha : d.Takes t a) : ∃ b, d.Takes u b := by
  obtain ⟨n, hn⟩ := t.exists_shows
  obtain ⟨k, hk⟩ := u.exists_shows
  obtain ⟨b, hb, -⟩ := h False hu hn hk (ha n hn)
  exact ⟨b, (h True).takes hk hb⟩

end Json

namespace Document

open Json.Spelling (OfTree)

/-- A document is newer than another if it has one more member, which its object does not define, or if a
choice in it is not recognised. -/
def Newer (t u : Tree) : Prop := Extends t u ∨ ∃ w, Replaces t u w

/-- **A document that was written for a newer engine can be read.**  With one more member, which its object
does not define, it is read as the same document; with a choice that is not recognised as the document in
which this choice is missing; and however often such things are done to it, it can be read. -/
theorem reads_newer {s : List Char} {t : Tree} {d : Document} (hs : OfTree s t)
    (hd : Json.decode decoder (Utf8.encodeChars s) = .ok d) :
    (∀ u s', Extends t u → OfTree s' u → Json.decode decoder (Utf8.encodeChars s') = .ok d) ∧
    (∀ u w s' s'', Replaces t u w → OfTree s' u → OfTree s'' w →
      ∃ d', Json.decode decoder (Utf8.encodeChars s') = .ok d' ∧
        Json.decode decoder (Utf8.encodeChars s'') = .ok d') ∧
    ∀ u s', Relation.ReflTransGen Newer t u → OfTree s' u →
      ∃ d', Json.decode decoder (Utf8.encodeChars s') = .ok d' := by
  have hkeeps : ∀ exact, decoder.Keeps exact (.part .document) := fun _ => keeps_decoder
  have htakes := ((hkeeps True).decode_iff hs).1 hd
  refine ⟨fun u s' hu hs' => ?_, fun u w s' s'' hreplaces hs' hs'' => ?_, fun u s' hu hs' => ?_⟩
  · exact ((hkeeps True).takes_exact hu.alters htakes).decode_spelling hs'
  · obtain ⟨d', hd'⟩ := Decoder.Keeps.exists_takes hkeeps (hreplaces.alters id) htakes
    exact ⟨d', hd'.decode_spelling hs',
      ((hkeeps True).takes_exact hreplaces.alters_exact hd').decode_spelling hs''⟩
  · have hnewer : ∃ d', decoder.Takes u d' := by
      clear hs'
      induction hu with
      | refl => exact ⟨d, htakes⟩
      | tail _ hstep ih =>
          obtain ⟨d', hd'⟩ := ih
          rcases hstep with hextends | ⟨w, hreplaces⟩
          · exact ⟨d', (hkeeps True).takes_exact hextends.alters hd'⟩
          · exact Decoder.Keeps.exists_takes hkeeps (hreplaces.alters id) hd'
    obtain ⟨d', hd'⟩ := hnewer
    exact ⟨d', hd'.decode_spelling hs'⟩

/-- A boolean flag with an owner, which flags do not have, and one of a kind that is not recognised. -/
theorem reads_newer_flag :
    let flags (members : List (String × Value)) : Value :=
      .object [("flags", .array [.object (("key", .string "f") :: members)])]
    let old := flags [("type", .string "BOOLEAN_FLAG_TYPE")]
    let owned := flags [("type", .string "BOOLEAN_FLAG_TYPE"), ("owner", .array [.null])]
    let other := flags [("type", .string "MULTI_FLAG_TYPE")]
    let d : Document := ⟨⟨"", none⟩, [⟨"f", "", .boolean, none, false, [], [], none⟩]⟩
    OfTree old.chars old.tree ∧ Json.decode decoder (Utf8.encodeChars old.chars) = .ok d ∧
      Extends old.tree owned.tree ∧ Replaces old.tree other.tree (flags []).tree ∧
      Json.decode decoder (Utf8.encodeChars owned.chars) = .ok d ∧
      ∃ d', Json.decode decoder (Utf8.encodeChars other.chars) = .ok d' ∧
        Json.decode decoder (Utf8.encodeChars (flags []).chars) = .ok d' := by
  intro flags old owned other d
  -- the place of the flag in the document
  have hflag : Around .document .flag fun t =>
      .object ([] ++ ("flags", .array ([] ++ t :: [])) :: []) := .item rfl .here
  have hdecode : Json.decode decoder (Utf8.encodeChars old.chars) = .ok d := by decide +kernel
  have howned : Extends old.tree owned.tree :=
    @Extends.of .flag _ [("key", .string "f"), ("type", .string "BOOLEAN_FLAG_TYPE")] [] "owner" _ hflag rfl
  have hother : Replaces old.tree other.tree (flags []).tree :=
    @Replaces.of .flag _ [("key", .string "f")] [] "type" _ _ _ hflag rfl (.name (by decide))
  obtain ⟨hextends, hreplaces, -⟩ := reads_newer old.spells hdecode
  exact ⟨old.spells, hdecode, howned, hother, hextends _ _ howned owned.spells,
    hreplaces _ _ _ _ hother other.spells (flags []).spells⟩

end Document

end FeatureFlags
