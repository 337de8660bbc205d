/-
**Decoders do not look at places.**

A decoder uses the places of a tree in its faults only: whether it gives a value, and which, is the same for
trees that differ only in places.  This holds of the decoders of plain kinds, and lists, optional values and
records pass it on from their parts, so it holds of every part of a document.

Main definitions:

* `Json.Decoder.Placeless`, `Json.Record.Placeless` — **a decoder, and a reader of members, that does not
  look at places**.

Main results:

* `Json.Decoder.Placeless.list`, `Json.Decoder.Placeless.optional`, `Json.Decoder.Placeless.record` — what
  is put together of decoders that do not look at places does not either;
* `Json.toOption_decode` — a text is decoded as what is read off everything that may be found of it;
* `Document.placeless_decoder` — **the decoder of documents does not look at places.**
-/
import FeatureFlags.Document.Decode
import FeatureFlags.Proofs.WellFormed

set_option autoImplicit false

namespace FeatureFlags

namespace Json

variable {α β : Type}

/-- A decoder gives the same value for trees that differ only in places, or none for both. -/
def Decoder.Placeless (d : Decoder α) : Prop :=
  ∀ ⦃n n' : Node⦄, n.Alike n' → (d n).toOption = (d n').toOption

/-! ### Values that are mapped or skipped -/

theorem toOption_map {ε : Type} (f : α → β) (r : Except ε α) : (r.map f).toOption = r.toOption.map f := by
  cases r <;> rfl

theorem toOption_eq_some_iff {ε : Type} {r : Except ε α} {a : α} : r.toOption = some a ↔ r = .ok a := by
  cases r <;> simp [Except.toOption]

theorem toOption_eq_none_iff {ε : Type} {r : Except ε α} : r.toOption = none ↔ ∃ f, r = .error f := by
  cases r <;> simp [Except.toOption]

/-- Of two results with the same value neither has one, or both have this value. -/
theorem error_or_ok_of_toOption {ε : Type} {r r' : Except ε α} (h : r.toOption = r'.toOption) :
    (∃ f f', r = .error f ∧ r' = .error f') ∨ ∃ a, r = .ok a ∧ r' = .ok a := by
  cases r with
  | error f =>
      cases r' with
      | error f' => exact Or.inl ⟨f, f', rfl, rfl⟩
      | ok a => cases h
  | ok a =>
      cases r' with
      | error f' => cases h
      | ok a' =>
          cases h
          exact Or.inr ⟨a, rfl, rfl⟩

theorem Decoder.Placeless.map {d : Decoder α} (hd : d.Placeless) (f : α → β) :
    Decoder.Placeless fun n => (d n).map f := by
  intro n n' h
  rw [toOption_map, toOption_map, hd h]

/-- Nothing in a tree that is like another breaks a rule. -/
theorem skip_of_alike {x y : Finding} (h : x.Alike y) :
    (∀ n, x = .value n → n.skip = .ok ()) ∧ (∀ ns, x = .items ns → skipItems ns = .ok ()) ∧
      ∀ fs, x = .members fs → skipMembers fs = .ok () := by
  induction h with
  | null | bool | number | string => simp [Node.skip]
  | array _ ih => simp [Node.skip, ih, Tail.skip]
  | object _ ih => simp [Node.skip, ih, Tail.skip]
  | noItems => simp [skipItems]
  | item _ _ ih ih' => simp [skipItems, ih, ih']
  | noMembers => simp [skipMembers]
  | member _ _ _ ih ih' => simp [skipMembers, ih, ih']

/-- What is like another is so the other way round. -/
theorem Finding.Alike.symm {x y : Finding} (h : x.Alike y) : y.Alike x := by
  induction h with
  | null => exact .null
  | bool => exact .bool
  | number h => exact .number h.symm
  | string h => exact .string h.symm
  | array _ ih => exact .array ih
  | object _ ih => exact .object ih
  | noItems => exact .noItems
  | item _ _ ih ih' => exact .item ih ih'
  | noMembers => exact .noMembers
  | member h _ _ ih ih' => exact .member h.symm ih ih'

/-- Trees that differ only in places are both skipped. -/
theorem Node.Alike.skip_eq {n n' : Node} (h : n.Alike n') : n.skip = .ok () ∧ n'.skip = .ok () :=
  ⟨(skip_of_alike h).1 n rfl, (skip_of_alike (Finding.Alike.symm h)).1 n' rfl⟩

/-! ### Plain kinds -/

namespace Decoder.Placeless

variable {d : Decoder α}

theorem textAs (want : String) : (textAs want).Placeless := by
  intro n n' h
  cases h with
  | @string _ _ _ _ r r' h =>
      have htext : ∀ start stop (r : Except Fault Quoted),
          (Decoder.textAs want (.string start stop r)).toOption = r.toOption.map (·.text) := by
        intro start stop r
        cases r <;> rfl
      rw [htext, htext, h]
  | null | bool | number | array | object => rfl

theorem text : text.Placeless := textAs "a string"

theorem flag : flag.Placeless := by
  intro n n' h
  cases h <;> rfl

theorem single : single.Placeless := by
  intro n n' h
  cases h with
  | @number _ _ _ _ r r' h =>
      have hvalue : ∀ start stop (r : Except Fault Number),
          (Decoder.single (.number start stop r)).toOption = r.toOption.map (·.toSingle) := by
        intro start stop r
        cases r <;> rfl
      rw [hvalue, hvalue, h]
  | null | bool | string | array | object => rfl

theorem unit : unit.Placeless := by
  intro n n' h
  cases h <;> rfl

/-! ### Lists and optional values -/

/-- The values of items that differ only in places. -/
theorem items (hd : d.Placeless) {ns ns' : List Node} (h : (Finding.items ns).Alike (.items ns')) :
    (items d ns).toOption = (items d ns').toOption := by
  have hcons : ∀ n ns, (Decoder.items d (n :: ns)).toOption =
      (d n).toOption.bind fun a => (Decoder.items d ns).toOption.map (a :: ·) := by
    intro n ns
    rw [Decoder.items]
    cases d n with
    | error f => rfl
    | ok a => cases Decoder.items d ns <;> rfl
  induction ns generalizing ns' with
  | nil =>
      cases h
      rfl
  | cons n ns ih =>
      cases h with
      | item hn hns => rw [hcons, hcons, hd hn, ih hns]

/-- A list does not look at places if its items do not. -/
theorem list (hd : d.Placeless) : d.list.Placeless := by
  intro n n' h
  cases h with
  | @array a b a' b' ns ns' hns =>
      have hlist : ∀ start stop ns, (Decoder.list d (.array start ns (.closed stop))).toOption =
          (Decoder.items d ns).toOption := by
        intro start stop ns
        rw [Decoder.list]
        cases Decoder.items d ns <;> rfl
      rw [hlist, hlist, hd.items hns]
  | null | bool | number | string | object => rfl

/-- An optional value does not look at places if the value does not. -/
theorem optional (hd : d.Placeless) : d.optional.Placeless := by
  intro n n' h
  have hsome : ∀ {n n' : Node}, d.optional n = (d n).map some → d.optional n' = (d n').map some →
      n.Alike n' → (d.optional n).toOption = (d.optional n').toOption := by
    intro n n' hn hn' h
    rw [hn, hn', toOption_map, toOption_map, hd h]
  cases h with
  | null => rfl
  | bool => exact hsome rfl rfl .bool
  | number h => exact hsome rfl rfl (.number h)
  | string h => exact hsome rfl rfl (.string h)
  | array h => exact hsome rfl rfl (.array h)
  | object h => exact hsome rfl rfl (.object h)

/-- An optional value is the value where no null stands. -/
theorem optional_of_alike (hd : d.Placeless) {n k : Node} (h : n.Alike k)
    (hnull : ∀ start stop, k ≠ .null start stop) : (d.optional n).toOption = (d k).toOption.map some := by
  rw [hd.optional h]
  cases h with
  | null => exact absurd rfl (hnull _ _)
  | bool | number | string | array | object => exact toOption_map some (d _)

theorem orDefault (hd : d.Placeless) (a : α) : (d.orDefault a).Placeless := by
  intro n n' h
  rw [Decoder.orDefault, Decoder.orDefault, toOption_map, toOption_map, hd.optional h]

end Decoder.Placeless

/-! ### Names -/

section

variable (v : Vocabulary α) (start stop : Nat)

theorem Vocabulary.toOption_named (name : String) : (v.named name stop).toOption = v.value? name := by
  rw [Vocabulary.named]
  cases v.value? name <;> rfl

/-- What the name in a string stands for. -/
theorem Vocabulary.toOption_string (r : Except Fault Quoted) :
    (v.decoder (.string start stop r)).toOption = r.toOption.bind fun q => v.value? q.text := by
  cases r with
  | error f => rfl
  | ok q => exact v.toOption_named stop q.text

/-- What the name of a member stands for. -/
theorem Vocabulary.toOption_member (key : Key) (n : Node) (next : Nat) (fs : List (Field Node)) :
    (v.decoder (.object start (⟨key, n, next⟩ :: fs) (.closed stop))).toOption =
      key.text.toOption.bind fun q => (v.value? q.text).bind fun a =>
        (Decoder.unit n).toOption.bind fun _ => if fs.isEmpty then some a else none := by
  rw [Vocabulary.decoder]
  cases key.text with
  | error f => rfl
  | ok q =>
      simp only [Vocabulary.named, Except.toOption, Option.bind_some]
      cases v.value? q.text with
      | none => rfl
      | some a =>
          cases Decoder.unit n with
          | error f => rfl
          | ok _ => cases fs <;> rfl

end

/-- A name does not look at places. -/
theorem Decoder.Placeless.vocabulary (v : Vocabulary α) : v.decoder.Placeless := by
  intro n n' h
  cases h with
  | string h => rw [v.toOption_string, v.toOption_string, h]
  | @object start stop start' stop' fs fs' h =>
      cases h with
      | noMembers => rfl
      | @member key key' n n' next next' ms ms' hkey hn hms =>
          have hsame : ms.isEmpty = ms'.isEmpty := by cases hms <;> rfl
          rw [v.toOption_member, v.toOption_member, hkey, unit hn, hsame]
  | null | bool | number | array => rfl

/-! ### Records -/

namespace Record

/-- What members are read off two lists of items that differ only in places: none, or the same with items
left that differ only in places. -/
inductive Agrees : Except Shortage (α × List Node) → Except Shortage (α × List Node) → Prop
  | error (e e' : Shortage) : Agrees (.error e) (.error e')
  | ok (a : α) {left left' : List Node} : (Finding.items left).Alike (.items left') →
      Agrees (.ok (a, left)) (.ok (a, left'))

/-- A reader of members that does not look at places. -/
structure Placeless (r : Record α) : Prop where
  claim : ∀ s name read, r.claim s name = .take read → Decoder.Placeless read
  ofItems : ∀ i ns ns', (Finding.items ns).Alike (.items ns') → Agrees (r.ofItems i ns) (r.ofItems i ns')

namespace Placeless

variable {r : Record α} {t : Record β}

/-- A member does not look at places if its decoder does not. -/
theorem one {m : Member α} (hm : m.decoder.Placeless) : (Record.one m).Placeless where
  claim := by
    intro s name read h n n' halike
    simp only [Record.one] at h
    split at h
    · cases s with
      | some a => cases h
      | none =>
          cases h
          exact hm.map some halike
    · cases h
  ofItems := by
    intro i ns ns' h
    cases h with
    | noItems =>
        simp only [Record.one]
        cases m.missing with
        | none => exact .error _ _
        | some a => exact .ok a .noItems
    | @item n n' ns ns' hn hns =>
        simp only [Record.one]
        rcases error_or_ok_of_toOption (hm hn) with ⟨f, f', hd, hd'⟩ | ⟨a, hd, hd'⟩
        · rw [hd, hd']
          exact .error _ _
        · rw [hd, hd']
          exact .ok a hns

section

variable {d : Decoder α} (hd : d.Placeless) (name : String)
include hd

theorem required : (Record.one (.required name d)).Placeless := one hd

theorem withDefault (a : α) : (Record.one (.withDefault name d a)).Placeless := one hd

theorem optional : (Record.one (.optional name d)).Placeless := one hd.optional

theorem orDefault (a : α) : (Record.one (.orDefault name d a)).Placeless := one (hd.orDefault a)

end

/-- The members of two readers do not look at places if neither reader does. -/
theorem and (hr : r.Placeless) (ht : t.Placeless) : (r.and t).Placeless where
  claim := by
    rintro ⟨s, s'⟩ name read h n n' halike
    simp only [Record.and] at h
    cases hclaim : r.claim s name with
    | again => simp [hclaim] at h
    | take read =>
        simp only [hclaim] at h
        cases h
        exact (Decoder.Placeless.map (hr.claim _ _ _ hclaim) _) halike
    | unknown =>
        cases hclaim' : t.claim s' name with
        | again => simp [hclaim, hclaim'] at h
        | unknown => simp [hclaim, hclaim'] at h
        | take read =>
            simp only [hclaim, hclaim'] at h
            cases h
            exact (Decoder.Placeless.map (ht.claim _ _ _ hclaim') _) halike
  ofItems := by
    intro i ns ns' h
    have hfirst := hr.ofItems i ns ns' h
    simp only [Record.and]
    generalize r.ofItems i ns = x at hfirst ⊢
    generalize r.ofItems i ns' = x' at hfirst ⊢
    cases hfirst with
    | error e e' => exact .error e e'
    | @ok a left left' hleft =>
        have hsecond := ht.ofItems (i + r.names.length) left left' hleft
        dsimp only
        generalize t.ofItems (i + r.names.length) left = y at hsecond ⊢
        generalize t.ofItems (i + r.names.length) left' = y' at hsecond ⊢
        cases hsecond with
        | error e e' => exact .error e e'
        | ok b hleft => exact .ok (a, b) hleft

theorem map (hr : r.Placeless) (f : α → β) : (r.map f).Placeless where
  claim := hr.claim
  ofItems := by
    intro i ns ns' h
    have hitems := hr.ofItems i ns ns' h
    simp only [Record.map]
    generalize r.ofItems i ns = x at hitems ⊢
    generalize r.ofItems i ns' = x' at hitems ⊢
    cases hitems with
    | error e e' => exact .error e e'
    | ok a hleft => exact .ok (f a) hleft

/-- Members that differ only in places are read as the same. -/
theorem members (hr : r.Placeless) {fs fs' : List (Field Node)}
    (h : (Finding.members fs).Alike (.members fs')) (s : r.State) :
    (r.members s fs).toOption = (r.members s fs').toOption := by
  induction fs generalizing fs' s with
  | nil =>
      cases h
      rfl
  | cons m fs ih =>
      cases h with
      | @member key key' n n' next next' fs fs' hkey hn hfs =>
          rcases error_or_ok_of_toOption hkey with ⟨f, f', hk, hk'⟩ | ⟨q, hk, hk'⟩
          · simp only [Record.members, hk, hk']
            rfl
          · simp only [Record.members, hk, hk']
            cases hclaim : r.claim s q.text with
            | again => rfl
            | unknown =>
                obtain ⟨hskip, hskip'⟩ := Node.Alike.skip_eq hn
                simp only [hskip, hskip']
                exact ih hfs s
            | take read =>
                dsimp only
                rcases error_or_ok_of_toOption (hr.claim s _ read hclaim hn) with
                  ⟨f, f', hread, hread'⟩ | ⟨s', hread, hread'⟩
                · simp only [hread, hread']
                  rfl
                · simp only [hread, hread']
                  exact ih hfs s'

end Placeless

end Record

/-- **A record does not look at places if its members do not.** -/
theorem Decoder.Placeless.record {r : Record α} (hr : r.Placeless) (name : String) :
    (Record.decoder name r).Placeless := by
  intro n n' h
  cases h with
  | @object start stop start' stop' fs fs' hfs =>
      simp only [Record.decoder, Tail.read]
      rcases error_or_ok_of_toOption (hr.members hfs r.start) with ⟨f, f', hs, hs'⟩ | ⟨s, hs, hs'⟩
      · simp only [hs, hs']
        rfl
      · simp only [hs, hs']
        cases r.finish s <;> rfl
  | @array start stop start' stop' ns ns' hns =>
      have hitems := hr.ofItems 0 ns ns' hns
      simp only [Record.decoder]
      generalize r.ofItems 0 ns = x at hitems ⊢
      generalize r.ofItems 0 ns' = x' at hitems ⊢
      cases hitems with
      | error e e' => cases e <;> cases e' <;> rfl
      | ok a hleft => cases hleft <;> rfl
  | null | bool | number | string => rfl

/-! ### Whole texts -/

/-- A text is decoded as what is read off everything that may be found of it. -/
theorem toOption_decode {d : Decoder α} {s : List Char} {o : Option α}
    (h : Outline.FoundValue s fun n => (d n).toOption = o) :
    (Json.decode d (Utf8.encodeChars s)).toOption = o := by
  obtain ⟨-, hroot, hrest⟩ := Outline.of_foundValue h
  rw [← hroot, Json.decode, Json.read]
  cases d (Outline.of (Utf8.encodeChars s)).root with
  | error f => rfl
  | ok a =>
      simp only [hrest, List.isEmpty_nil, ↓reduceIte]
      rfl

/-- A text is decoded as a value if it is read off everything that may be found of it. -/
theorem decode_iff_of_found {d : Decoder α} {s : List Char} {a : α} {p : Prop}
    (h : Outline.FoundValue s fun n => d n = .ok a ↔ p) :
    Json.decode d (Utf8.encodeChars s) = .ok a ↔ p := by
  obtain ⟨-, hroot, hrest⟩ := Outline.of_foundValue h
  rw [← hroot, Json.decode, Json.read]
  cases d (Outline.of (Utf8.encodeChars s)).root with
  | error f => simp
  | ok b => simp [hrest]

end Json

/-! ### Parts of a document -/

open Json Json.Record.Placeless Json.Decoder.Placeless

theorem Constraint.placeless_decoder : Constraint.decoder.Placeless :=
  .record (.map (.and (.orDefault (.vocabulary _) _ _) <| .and (.required .text _) <|
    .and (.required .text _) <| .withDefault .text _ _) _) _

theorem Segment.placeless_decoder : Segment.decoder.Placeless :=
  .record (.map (.and (.required .text _) <| .and (.orDefault (.vocabulary _) _ _) <|
    .orDefault Constraint.placeless_decoder.list _ _) _) _

theorem Distribution.placeless_decoder : Distribution.decoder.Placeless :=
  .record (.map (.and (.required .text _) <| .and (.required .single _) <| .optional .text _) _) _

theorem Rule.placeless_decoder : Rule.decoder.Placeless :=
  .record (.map (.and (.orDefault Segment.placeless_decoder.list _ _) <|
    .and (.orDefault (.vocabulary _) _ _) <|
    .orDefault Distribution.placeless_decoder.list _ _) _) _

theorem SegmentRollout.placeless_decoder : SegmentRollout.decoder.Placeless :=
  .record (.map (.and (.orDefault (.vocabulary _) _ _) <| .and (.required .flag _) <|
    .orDefault Segment.placeless_decoder.list _ _) _) _

theorem Threshold.placeless_decoder : Threshold.decoder.Placeless :=
  .record (.map (.and (.required .single _) <| .required .flag _) _) _

theorem Rollout.placeless_decoder : Rollout.decoder.Placeless :=
  .record (.map (.and (.optional .text _) <|
    .and (.optional SegmentRollout.placeless_decoder _) <|
    .optional Threshold.placeless_decoder _) _) _

theorem Variant.placeless_decoder : Variant.decoder.Placeless :=
  .record (.map (.and (.required .text _) <| .optional .text _) _) _

theorem Flag.placeless_decoder : Flag.decoder.Placeless :=
  .record (.map (.and (.required .text _) <| .and (.withDefault .text _ _) <|
    .and (.orDefault (.vocabulary _) _ _) <| .and (.optional .text _) <|
    .and (.withDefault .flag _ _) <| .and (.orDefault Rule.placeless_decoder.list _ _) <|
    .and (.orDefault Rollout.placeless_decoder.list _ _) <|
    .optional Variant.placeless_decoder _) _) _

theorem Namespace.placeless_decoder : Namespace.decoder.Placeless :=
  .record (.map (.and (.withDefault .text _ _) <| .optional .text _) _) _

/-- **The decoder of documents does not look at places.** -/
theorem Document.placeless_decoder : Document.decoder.Placeless :=
  .record (.map (.and (.orDefault Namespace.placeless_decoder _ _) <|
    .orDefault Flag.placeless_decoder.list _ _) _) _

end FeatureFlags
