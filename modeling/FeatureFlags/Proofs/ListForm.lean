/-
**Records that are written as lists.**

Options, requests and documents are meant to be written as objects.  But every record can as well be
written as a list of what its members hold, in the order in which they are declared, and the list may
stop as soon as every member behind it can be missing.  So of the texts that are no object each of the
three takes some: the options and the documents take even the empty list, and a request takes the names
of a flag and an entity.  All other such texts are faults, and then an engine is not built, a request is
answered by a failure, and a file changes nothing.

Main definitions:

* `Json.NoObject`, `Json.IsList` — **texts that are no object**, and those that are a list of items;
* `Json.Stands` — what the place of a member in a list comes to;
* `Options.Listed`, `Request.Listed`, `Document.Listed` — the lists that are taken for each of the three.

Main results:

* `Json.Record.decode_iff_of_noObject` — of the texts that are no object, a record takes lists only;
* `listed_iff_taken` — **which texts are taken although they are no object, and what happens with the
  others**;
* `emptyList_taken` — the empty list replaces a snapshot.
-/
import Mathlib.Control.Monad.Basic
import FeatureFlags.Engine.Basic
import FeatureFlags.Proofs.Descent
import FeatureFlags.Proofs.Refresh
import FeatureFlags.Proofs.Served

set_option autoImplicit false

namespace FeatureFlags

namespace Json

/-! ### Texts that are no object -/

/-- The first byte that is no blank, if there is one, is no brace that opens an object. -/
def NoObject (text : List UInt8) : Prop := (text.dropWhile Cursor.isBlank).head? ≠ some 0x7B

instance : DecidablePred NoObject := fun text =>
  inferInstanceAs (Decidable ((text.dropWhile Cursor.isBlank).head? ≠ some 0x7B))

/-- The text is a list of these items, and only blanks stand after it. -/
structure IsList (text : List UInt8) (items : List Node) : Prop where
  root : ∃ start stop, (Outline.of text).root = .array start items (.closed stop)
  rest : (Outline.of text).after.skipBlank.rest = []

/-- What the place of a member in a list comes to: an item is read, and without an item that counts which
stands for a missing one. -/
inductive Stands {α : Type} (d : Decoder α) (missing : Option α) : Option Node → α → Prop
  | item {n : Node} {a : α} : d n = .ok a → Stands d missing (some n) a
  | missing {a : α} : missing = some a → Stands d missing none a

theorem stands_some_iff {α : Type} {d : Decoder α} {missing : Option α} {n : Node} {a : α} :
    Stands d missing (some n) a ↔ d n = .ok a :=
  ⟨fun h => by cases h; assumption, .item⟩

theorem stands_none_iff {α : Type} {d : Decoder α} {missing : Option α} {a : α} :
    Stands d missing none a ↔ missing = some a :=
  ⟨fun h => by cases h; assumption, .missing⟩

/-- What is no object where no value begins. -/
theorem Outline.ident_ne_object {c : Cursor} {name : List UInt8} {value : Nat → Node} {start : Nat}
    {ms : List (Field Node)} {tail : Tail} (hvalue : ∀ stop, value stop ≠ .object start ms tail) :
    (ident c name value).1 ≠ .object start ms tail := by
  simp only [ident]
  split
  · exact hvalue _
  · intro h
    cases h

theorem Outline.string_ne_object {start : Nat} (c d : Cursor) (ms : List (Field Node)) (tail : Tail) :
    (string c d).1 ≠ .object start ms tail := by
  rw [string]
  split <;>
    · intro h
      cases h

theorem Outline.numeral_ne_object {start : Nat} (c : Cursor) (ms : List (Field Node)) (tail : Tail) :
    (numeral c).1 ≠ .object start ms tail := by
  rw [numeral]
  split <;>
    · intro h
      cases h

/-- The tree of a text is an object only if its first byte is a brace. -/
theorem Outline.head_of_object {bound start : Nat} {c : Cursor} {ms : List (Field Node)} {tail : Tail}
    (h : (value bound c).1 = .object start ms tail) : c.skipBlank.rest.head? = some 0x7B := by
  cases bound with
  | zero =>
      rw [value.eq_def] at h
      cases h
  | succ bound =>
      rw [value.eq_def] at h
      cases hrest : c.skipBlank.rest with
      | nil =>
          simp only [hrest] at h
          cases h
      | cons b rest =>
          simp only [hrest] at h
          by_cases hb : b = 0x7B
          · rw [hb]
            rfl
          · -- each of the other bytes begins a value of another kind, or none at all
            rw [if_neg hb] at h
            split_ifs at h
            · exact absurd h (ident_ne_object fun _ => Node.noConfusion)
            · exact absurd h (ident_ne_object fun _ => Node.noConfusion)
            · exact absurd h (ident_ne_object fun _ => Node.noConfusion)
            · exact absurd h (string_ne_object _ _ _ _)
            · exact absurd h (numeral_ne_object _ _ _)
            · cases h

/-- The tree of a text that is no object is none either. -/
theorem root_ne_object {text : List UInt8} (h : NoObject text) (start : Nat) (ms : List (Field Node))
    (tail : Tail) : (Outline.of text).root ≠ .object start ms tail := by
  intro hroot
  have hvalue : (Outline.value (2 * text.length + 2) (Cursor.start text)).1 =
      .object start ms tail := hroot
  have hhead := Outline.head_of_object hvalue
  rw [Cursor.skipBlank_rest] at hhead
  exact h hhead

/-! ### Records in lists -/

namespace Record

variable {α β : Type}

/-- One member takes what stands in its place. -/
theorem one_ofItems_iff {m : Member α} {i place : Nat} {items left : List Node} {a : α} :
    (one m).ofItems i (items.drop place) = .ok (a, left) ↔
      Stands m.decoder m.missing items[place]? a ∧ left = items.drop (place + 1) := by
  rw [← List.head?_drop, ← List.tail_drop]
  cases items.drop place with
  | nil =>
      rw [List.head?_nil, stands_none_iff]
      simp only [one]
      cases m.missing with
      | none => simp
      | some b => simp [eq_comm]
  | cons n items =>
      rw [List.head?_cons, stands_some_iff]
      simp only [one]
      cases m.decoder n with
      | error f => simp
      | ok b => simp [eq_comm]

/-- The last member takes what stands in its place, and nothing may be left behind it. -/
theorem one_ofItems_nil_iff {m : Member α} {i place : Nat} {items : List Node} {a : α} :
    (one m).ofItems i (items.drop place) = .ok (a, []) ↔
      Stands m.decoder m.missing items[place]? a ∧ items.length ≤ place + 1 := by
  rw [one_ofItems_iff, eq_comm, List.drop_eq_nil_iff]

/-- The members of a second record take what those of the first have left. -/
theorem and_ofItems_iff {r : Record α} {t : Record β} {i : Nat} {items left : List Node} {p : α × β} :
    (r.and t).ofItems i items = .ok (p, left) ↔
      ∃ mid, r.ofItems i items = .ok (p.1, mid) ∧
        t.ofItems (i + r.names.length) mid = .ok (p.2, left) := by
  obtain ⟨a, b⟩ := p
  simp only [Record.and]
  cases r.ofItems i items with
  | error e => simp
  | ok q =>
      obtain ⟨a', mid⟩ := q
      cases ht : t.ofItems (i + r.names.length) mid with
      | error e => simp [ht]
      | ok q =>
          obtain ⟨b', left'⟩ := q
          simp [ht, and_assoc]

/-- The members after the first take what stands in the places behind it. -/
theorem one_and_ofItems_iff {m : Member α} {t : Record β} {i place : Nat} {items left : List Node}
    {p : α × β} : ((one m).and t).ofItems i (items.drop place) = .ok (p, left) ↔
      Stands m.decoder m.missing items[place]? p.1 ∧
        t.ofItems (i + 1) (items.drop (place + 1)) = .ok (p.2, left) := by
  rw [and_ofItems_iff]
  constructor
  · rintro ⟨mid, hm, ht⟩
    obtain ⟨hstands, rfl⟩ := one_ofItems_iff.1 hm
    exact ⟨hstands, ht⟩
  · rintro ⟨hstands, ht⟩
    exact ⟨_, one_ofItems_iff.2 ⟨hstands, rfl⟩, ht⟩

theorem map_ofItems_iff {r : Record α} {f : α → β} {i : Nat} {items left : List Node} {b : β} :
    (r.map f).ofItems i items = .ok (b, left) ↔ ∃ a, r.ofItems i items = .ok (a, left) ∧ f a = b := by
  simp only [Record.map]
  cases r.ofItems i items with
  | error e => simp [Except.map]
  | ok q =>
      obtain ⟨a, left'⟩ := q
      simp only [Except.map, Except.ok.injEq, Prod.mk.injEq]
      constructor
      · rintro ⟨hb, hleft⟩
        exact ⟨a, ⟨rfl, hleft⟩, hb⟩
      · rintro ⟨_, ⟨rfl, hleft⟩, hb⟩
        exact ⟨hb, hleft⟩

/-- A list is taken for a record if it is closed and nothing is left of it. -/
theorem decoder_array_iff {name : String} {r : Record α} {start : Nat} {items : List Node} {tail : Tail}
    {a : α} : r.decoder name (.array start items tail) = .ok a ↔
      r.ofItems 0 items = .ok (a, []) ∧ ∃ stop, tail = .closed stop := by
  simp only [decoder]
  cases r.ofItems 0 items with
  | error e => cases e <;> cases tail <;> simp
  | ok p =>
      obtain ⟨b, left⟩ := p
      cases left <;> cases tail <;> simp

/-- **Of the texts that are no object, a record takes lists only.** -/
theorem decode_iff_of_noObject {name : String} {r : Record α} {text : List UInt8} {a : α}
    (h : NoObject text) : decode (r.decoder name) text = .ok a ↔
      ∃ items, IsList text items ∧ r.ofItems 0 items = .ok (a, []) := by
  have hroot := root_ne_object h
  have hread : decode (r.decoder name) text = .ok a ↔
      r.decoder name (Outline.of text).root = .ok a ∧ (Outline.of text).after.skipBlank.rest = [] := by
    simp only [decode, read]
    cases r.decoder name (Outline.of text).root with
    | error f => simp
    | ok b => cases (Outline.of text).after.skipBlank.rest <;> simp
  rw [hread]
  constructor
  · rintro ⟨hdecode, hrest⟩
    cases hof : (Outline.of text).root with
    | object start ms tail => exact absurd hof (hroot start ms tail)
    | array start items tail =>
        rw [hof, decoder_array_iff] at hdecode
        obtain ⟨hitems, stop, rfl⟩ := hdecode
        exact ⟨items, ⟨⟨start, stop, hof⟩, hrest⟩, hitems⟩
    | null | bool | number | string | broken =>
        rw [hof] at hdecode
        cases hdecode
  · rintro ⟨items, ⟨⟨start, stop, hof⟩, hrest⟩, hitems⟩
    rw [hof, decoder_array_iff]
    exact ⟨⟨hitems, stop, rfl⟩, hrest⟩

end Record

end Json

/-! ### The three kinds of texts -/

open Json

/-- A list that is taken for options: its items stand for the members of options in their order, and those
at the end may be missing. -/
structure Options.Listed (items : List Node) (o : Options) : Prop where
  source : Stands SourceKind.vocabulary.decoder (some .inline) items[0]? o.source
  document : Stands (.optional Document.decoder) (some none) items[1]? o.document
  path : Stands (.optional (.textAs "path string")) (some none) items[2]? o.path
  interval : Stands .natural (some 120) items[3]? o.interval
  strategy : Stands ErrorStrategy.vocabulary.decoder (some .fail) items[4]? o.strategy
  logLevel : Stands (.optional .text) (some none) items[5]? o.logLevel
  length : items.length ≤ 6

/-- A list that is taken for a request: only the properties of the entity may be missing. -/
structure Request.Listed (items : List Node) (r : Request) : Prop where
  flag : Stands .text none items[0]? r.flag
  id : Stands .text none items[1]? r.entity.id
  context : ∃ members, Stands (.optional (Value.entries (Value.depthLimit - 2))) (some none) items[2]?
    members ∧ r.entity.context = Context.ofMembers (members.getD [])
  length : items.length ≤ 3

/-- A list that is taken for a document: the namespace and the flags may be missing. -/
structure Document.Listed (items : List Node) (d : Document) : Prop where
  space : Stands (.orDefault Namespace.decoder ⟨"", none⟩) (some ⟨"", none⟩) items[0]? d.space
  flags : Stands (.orDefault (.list Flag.decoder) []) (some []) items[1]? d.flags
  length : items.length ≤ 2

variable {text : List UInt8}

/-- The options that a text holds which is no object. -/
theorem Options.decode_iff_of_noObject (h : NoObject text) {o : Options} :
    Json.decode Options.decoder text = .ok o ↔ ∃ items, IsList text items ∧ Options.Listed items o := by
  rw [Options.decoder, Record.decode_iff_of_noObject h]
  refine exists_congr fun items => and_congr_right fun _ => ?_
  rw [← items.drop_zero]
  simp only [Record.map_ofItems_iff, Record.one_and_ofItems_iff, Record.one_ofItems_nil_iff]
  constructor
  · rintro ⟨⟨source, document, path, interval, strategy, logLevel⟩, hitems, rfl⟩
    obtain ⟨hsource, hdocument, hpath, hinterval, hstrategy, hlogLevel, hlength⟩ := hitems
    exact ⟨hsource, hdocument, hpath, hinterval, hstrategy, hlogLevel, hlength⟩
  · rintro ⟨hsource, hdocument, hpath, hinterval, hstrategy, hlogLevel, hlength⟩
    exact ⟨(o.source, o.document, o.path, o.interval, o.strategy, o.logLevel),
      ⟨hsource, hdocument, hpath, hinterval, hstrategy, hlogLevel, hlength⟩, rfl⟩

/-- The request that a text holds which is no object. -/
theorem Request.decode_iff_of_noObject (h : NoObject text) {r : Request} :
    Request.decode text = .ok r ↔ ∃ items, IsList text items ∧ Request.Listed items r := by
  rw [Request.decode, Request.decoder, Record.decode_iff_of_noObject h]
  refine exists_congr fun items => and_congr_right fun _ => ?_
  rw [← items.drop_zero]
  simp only [Record.map_ofItems_iff, Record.one_and_ofItems_iff, Record.one_ofItems_nil_iff]
  constructor
  · rintro ⟨⟨flag, id, context⟩, ⟨hflag, hid, hcontext, hlength⟩, rfl⟩
    exact ⟨hflag, hid, ⟨context, hcontext, rfl⟩, hlength⟩
  · rintro ⟨hflag, hid, ⟨members, hmembers, hcontext⟩, hlength⟩
    refine ⟨(r.flag, r.entity.id, members), ⟨hflag, hid, hmembers, hlength⟩, ?_⟩
    rw [← hcontext]

/-- The document that a text holds which is no object. -/
theorem Document.decode_iff_of_noObject (h : NoObject text) {d : Document} :
    Json.decode Document.decoder text = .ok d ↔ ∃ items, IsList text items ∧ Document.Listed items d := by
  rw [Document.decoder, Record.decode_iff_of_noObject h]
  refine exists_congr fun items => and_congr_right fun _ => ?_
  rw [← items.drop_zero]
  simp only [Record.map_ofItems_iff, Record.one_and_ofItems_iff, Record.one_ofItems_nil_iff]
  constructor
  · rintro ⟨⟨space, flags⟩, ⟨hspace, hflags, hlength⟩, rfl⟩
    exact ⟨hspace, hflags, hlength⟩
  · rintro ⟨hspace, hflags, hlength⟩
    exact ⟨(d.space, d.flags), ⟨hspace, hflags, hlength⟩, rfl⟩

/-! ### What comes of them -/

theorem Options.parse_eq_ok_iff {o : Options} :
    parse text = .ok o ↔ Json.decode decoder text = .ok o ∧ o.check = .ok () := by
  rw [parse]
  cases Json.decode decoder text with
  | error p => simp
  | ok o' =>
      constructor
      · intro h
        cases hcheck : o'.check with
        | error f =>
            simp only [hcheck] at h
            cases h
        | ok u =>
            simp only [hcheck] at h
            cases h
            exact ⟨rfl, hcheck⟩
      · rintro ⟨⟨⟩, hcheck⟩
        simp only [hcheck]

/-- Whatever is wrong with the options, that is the fault. -/
theorem Options.fault_of_parse {fault : EngineFault} (h : parse text = .error fault) :
    ∃ detail, fault = .options detail := by
  rw [parse] at h
  cases hdecode : Json.decode decoder text with
  | error p =>
      rw [hdecode] at h
      exact ⟨_, (Except.error.inj h).symm⟩
  | ok o =>
      simp only [hdecode, check] at h
      split_ifs at h
      · exact ⟨_, (Except.error.inj h).symm⟩

/-- Options are taken from lists that can be followed.  From no other text that is no object is an engine
built. -/
theorem Options.parse_of_noObject (h : NoObject text) :
    (∀ o, parse text = .ok o ↔ ∃ items, IsList text items ∧ Options.Listed items o ∧ o.check = .ok ()) ∧
    ((∀ o, parse text ≠ .ok o) → ∃ detail, parse text = .error (.options detail) ∧
      ∀ read ns, Engine.parse read ns text = .error (.options detail)) := by
  constructor
  · intro o
    rw [parse_eq_ok_iff, Options.decode_iff_of_noObject h]
    simp only [← and_assoc, exists_and_right]
  · intro hnone
    cases hparse : parse text with
    | ok o => exact absurd hparse (hnone o)
    | error fault =>
        obtain ⟨detail, rfl⟩ := fault_of_parse hparse
        refine ⟨detail, rfl, fun read ns => ?_⟩
        rw [Engine.parse, hparse]
        rfl

/-- Requests are taken from lists.  Every other text that is no object is answered by a failure. -/
theorem Request.evaluate_of_noObject (h : NoObject text) :
    (∀ r, Request.decode text = .ok r ↔ ∃ items, IsList text items ∧ Request.Listed items r) ∧
    ((∀ r, Request.decode text ≠ .ok r) → ∃ p : Problem, Request.decode text = .error p ∧
      ∀ (e : Evaluator) (clock : Clock) (kind : Evaluation), kind ≠ .batch →
        e.evaluate kind text clock = .failure p.failure.message) := by
  refine ⟨fun r => Request.decode_iff_of_noObject h, fun hnone => ?_⟩
  cases hdecode : Request.decode text with
  | ok r => exact absurd hdecode (hnone r)
  | error p =>
      refine ⟨p, rfl, fun e clock kind hkind => ?_⟩
      cases kind with
      | boolean => simp only [Evaluator.evaluate, hdecode]
      | variant => simp only [Evaluator.evaluate, hdecode]
      | batch => exact absurd rfl hkind

/-- Documents are taken from lists.  Every other text that is no object is a fault when it is fetched from a
file, and the snapshot stays. -/
theorem Fetcher.file_of_noObject (h : NoObject text) {read : Reader} {path : String}
    (hread : read path = .ok text) :
    (∀ known, known ≠ some (Sha256.digest text) → ∀ d,
      ((Fetcher.file read path).fetch known).1 = .ok (some d) ↔
        ∃ items, IsList text items ∧ Document.Listed items d) ∧
    ((∀ items, IsList text items → ∀ d, ¬Document.Listed items d) →
      (∀ known, known ≠ some (Sha256.digest text) → ∃ p : Problem,
        (Fetcher.file read path).fetch known = (.error (.evaluation p.failure), known)) ∧
      ∀ known strategy e,
        (refresh (Fetcher.file read path) strategy (known, e)).2.snapshot = e.snapshot) := by
  constructor
  · intro known hknown d
    rw [← Document.decode_iff_of_noObject h]
    simp only [file, hread, if_neg hknown]
    cases Json.decode Document.decoder text <;> simp
  · intro hnone
    have hdecode : ∃ p, Json.decode Document.decoder text = .error p := by
      cases hdecode : Json.decode Document.decoder text with
      | error p => exact ⟨p, rfl⟩
      | ok d =>
          obtain ⟨items, hlist, hd⟩ := (Document.decode_iff_of_noObject h).1 hdecode
          exact absurd hd (hnone items hlist d)
    obtain ⟨p, hdecode⟩ := hdecode
    have hfetch : ∀ known, known ≠ some (Sha256.digest text) →
        (Fetcher.file read path).fetch known = (.error (.evaluation p.failure), known) := by
      intro known hknown
      simp only [file, hread, if_neg hknown, hdecode]
    refine ⟨fun known hknown => ⟨p, hfetch known hknown⟩, fun known strategy e => ?_⟩
    rw [refresh_eq]
    by_cases hknown : known = some (Sha256.digest text)
    · have hsame : (Fetcher.file read path).fetch known = (.ok none, known) := by
        simp only [file, hread, if_pos hknown]
      rw [hsame]
      rfl
    · rw [hfetch known hknown]
      cases strategy <;> rfl

/-- **Which texts are taken although they are no object, and what happens with the others.**  Options, a
request and a document are taken from lists whose items stand for their members, and from nothing else.
Of other options no engine is built, another request is answered by a failure, and another file is a fault
that leaves the snapshot as it is. -/
theorem listed_iff_taken (h : NoObject text) :
    ((∀ o, Options.parse text = .ok o ↔
        ∃ items, IsList text items ∧ Options.Listed items o ∧ o.check = .ok ()) ∧
      ((∀ o, Options.parse text ≠ .ok o) → ∃ detail, Options.parse text = .error (.options detail) ∧
        ∀ read ns, Engine.parse read ns text = .error (.options detail))) ∧
    ((∀ r, Request.decode text = .ok r ↔ ∃ items, IsList text items ∧ Request.Listed items r) ∧
      ((∀ r, Request.decode text ≠ .ok r) → ∃ p : Problem, Request.decode text = .error p ∧
        ∀ (e : Evaluator) (clock : Clock) (kind : Evaluation), kind ≠ .batch →
          e.evaluate kind text clock = .failure p.failure.message)) ∧
    ∀ (read : Reader) (path : String), read path = .ok text →
      (∀ known, known ≠ some (Sha256.digest text) → ∀ d,
        ((Fetcher.file read path).fetch known).1 = .ok (some d) ↔
          ∃ items, IsList text items ∧ Document.Listed items d) ∧
      ((∀ items, IsList text items → ∀ d, ¬Document.Listed items d) →
        (∀ known, known ≠ some (Sha256.digest text) → ∃ p : Problem,
          (Fetcher.file read path).fetch known = (.error (.evaluation p.failure), known)) ∧
        ∀ known strategy e,
          (refresh (Fetcher.file read path) strategy (known, e)).2.snapshot = e.snapshot) :=
  ⟨Options.parse_of_noObject h, Request.evaluate_of_noObject h,
    fun _ _ hread => Fetcher.file_of_noObject h hread⟩

/-- The empty list is taken for options and for a document; a text in quotes is taken for nothing, and a
file that holds it leaves the snapshot as it is. -/
theorem listed_iff_taken_empty :
    let empty := Utf8.encode "[]"
    let quoted := Utf8.encode "\"no\""
    let read (text : List UInt8) : Reader := fun _ => .ok text
    let flag : Flag := ⟨"f", "F", .boolean, none, true, [], [], none⟩
    let served : Evaluator := Evaluator.new "ns" (.ofDocument ⟨⟨"ns", none⟩, [flag]⟩)
    NoObject empty ∧ NoObject quoted ∧
      (∃ items, IsList empty items ∧ Options.Listed items .standard) ∧
      (∃ items, IsList empty items ∧ Document.Listed items ⟨⟨"", none⟩, []⟩) ∧
      (∃ p : Problem, ∀ clock, served.evaluate .boolean quoted clock = .failure p.failure.message) ∧
      (refresh (Fetcher.file (read quoted) "flags.json") .fail (none, served)).2.snapshot =
        served.snapshot := by
  intro empty quoted read flag served
  have hempty : NoObject empty := by decide +kernel
  have hquoted : NoObject quoted := by decide +kernel
  have hstandard : Options.parse empty = .ok .standard := by decide +kernel
  have hfetched : ((Fetcher.file (read empty) "flags.json").fetch none).1 =
      .ok (some ⟨⟨"", none⟩, []⟩) := by decide +kernel
  have hrequest : ∀ r, Request.decode quoted ≠ .ok r := by
    have hfault : Request.decode quoted =
        .error ⟨1, 4, .wrongType (.string "no") "struct RequestPayload"⟩ := by decide +kernel
    rw [hfault]
    exact fun r hr => nomatch hr
  have hdocument : ∀ items, IsList quoted items → ∀ d, ¬Document.Listed items d := by
    have hfault : Json.decode Document.decoder quoted =
        .error ⟨1, 4, .wrongType (.string "no") "struct Document"⟩ := by decide +kernel
    intro items hlist d hd
    have hd := (Document.decode_iff_of_noObject hquoted).2 ⟨items, hlist, hd⟩
    rw [hfault] at hd
    cases hd
  obtain ⟨⟨hoptions, -⟩, -, hfile⟩ := listed_iff_taken hempty
  obtain ⟨-, ⟨-, hevaluate⟩, hfile'⟩ := listed_iff_taken hquoted
  obtain ⟨items, hlist, hlisted, -⟩ := (hoptions _).1 hstandard
  obtain ⟨p, -, hp⟩ := hevaluate hrequest
  exact ⟨hempty, hquoted, ⟨items, hlist, hlisted⟩,
    ((hfile (read empty) "flags.json" rfl).1 none (fun h => nomatch h) _).1 hfetched,
    ⟨p, fun clock => hp served clock .boolean (fun h => nomatch h)⟩,
    ((hfile' (read quoted) "flags.json" rfl).2 hdocument).2 none .fail served⟩

/-- **The empty list is taken for options and for a document**, and a list of two texts for a request; and
a snapshot with a flag is replaced by one without. -/
theorem emptyList_taken :
    let empty := Utf8.encode "[]"
    let two := Utf8.encode "[\"f\",\"e\"]"
    let read : Reader := fun _ => .ok empty
    let flag : Flag := ⟨"f", "F", .boolean, none, true, [], [], none⟩
    let served : Evaluator := Evaluator.new "ns" (.ofDocument ⟨⟨"ns", none⟩, [flag]⟩)
    NoObject empty ∧ NoObject two ∧ Options.parse empty = .ok .standard ∧
      Request.decode two = .ok ⟨"f", ⟨"e", ⟨[]⟩⟩⟩ ∧
      (refresh (Fetcher.file read "flags.json") .fallback (none, served)).2.snapshot = .empty "ns" ∧
      served.snapshot ≠ .empty "ns" := by
  intro empty two read flag served
  exact ⟨by decide +kernel, by decide +kernel, by decide +kernel, by decide +kernel, by decide +kernel,
    by decide +kernel⟩

end FeatureFlags
