/-
**A document that is served comes back as it was.**

A snapshot is asked for its document, and the text of the answer is given to another engine, in a file
or among the options.  The other engine then serves the same snapshot, and so it answers everything
alike.

Documents are written and read member by member, and each part of a document has one lemma: its reader
takes what its writer writes.  A member that is left out by the writer is one for which the reader has
just the value that was left out, and a choice that is written by its name is found under this name.
The only loss there could be is in a percentage, of which the text has no more digits than it takes to
tell it from the others; that none is lost is a hypothesis, which is about single numbers and is decided
by reading them.

Main definitions:

* `Single.ReadBack` — a number that is read back from its own text;
* `Document.percentages` — the percentages of a document;
* `Engine.AnswersAs`, `Engine.ServesAs` — an engine answers everything as an evaluator does, and was built;
* `Snapshot.ComesBack` — **what becomes of the document that a snapshot gives away.**

Main results:

* `Constraint.takes`, …, `Flag.takes`, `Document.takes` — the reader of a part takes what is written of
  it;
* `Snapshot.build_again` — a document that was adopted by a namespace is adopted by it again;
* `Snapshot.comesBack` — **a document that is served comes back as it was.**
-/
import FeatureFlags.Engine.Basic
import FeatureFlags.Proofs.Members
import FeatureFlags.Proofs.Refresh
import FeatureFlags.Proofs.Served

set_option autoImplicit false

namespace FeatureFlags

open Json (Value)
open Json.Record Json.Decoder

/-! ### Numbers -/

/-- A number that is read back from its own text. -/
def Single.ReadBack (x : Single) : Prop :=
  Json.decode Json.Decoder.single (Utf8.encode (Value.number (.single x)).text) = .ok x

instance (x : Single) : Decidable x.ReadBack := inferInstanceAs (Decidable (_ = _))

theorem Json.Decoder.takes_single {x : Single} (h : x.ReadBack) :
    single.Takes (Value.number (.single x)).tree x := by
  intro n hn
  have hreads := Json.readsAs_of_tree (Value.number (.single x)).spells
  rw [Single.ReadBack, Utf8.encode, Value.text, String.toList_ofList, Json.decode, Json.read] at h
  cases hroot : single (Json.Outline.of (Utf8.encodeChars (Value.number (.single x)).chars)).root with
  | error f =>
      rw [hroot] at h
      cases h
  | ok y =>
      rw [hroot] at h
      simp only [hreads.rest, List.isEmpty_nil, ↓reduceIte] at h
      cases h
      exact single_of_shows hreads.root hn hroot

/-- The percentages of a flag: what its rules give away, and the thresholds of its rollouts. -/
def Flag.percentages (f : Flag) : List Single :=
  f.rules.flatMap Rule.percentages ++ thresholdPercentages f.rollouts

/-- The percentages of a document. -/
def Document.percentages (d : Document) : List Single := d.flags.flatMap Flag.percentages

/-! ### Choices -/

theorem ConstraintKind.takes_name (k : ConstraintKind) :
    (vocabulary.decoder.orDefault .unknown).Takes (.string k.name) k :=
  Json.Vocabulary.takes_orDefault (by cases k <;> decide) _

theorem MatchType.takes_name (t : MatchType) :
    (vocabulary.decoder.orDefault .any).Takes (.string t.name) t :=
  Json.Vocabulary.takes_orDefault (by cases t <;> decide) _

theorem SegmentOperator.takes_name (o : SegmentOperator) :
    (vocabulary.decoder.orDefault .or).Takes (.string o.name) o :=
  Json.Vocabulary.takes_orDefault (by cases o <;> decide) _

theorem FlagKind.takes_name (k : FlagKind) :
    (vocabulary.decoder.orDefault .variant).Takes (.string k.name) k :=
  Json.Vocabulary.takes_orDefault (by cases k <;> decide) _

/-! ### The parts of a document -/

/-- A text that may be missing. -/
theorem Json.Decoder.takes_present (o : Option String) :
    ∀ s ∈ o, text.Takes (Value.string s).tree s ∧ (Value.string s).tree ≠ .null :=
  fun s _ => ⟨takes_text s, fun h => nomatch h⟩

theorem Constraint.takes (c : Constraint) : Constraint.decoder.Takes c.toJson.tree c := by
  refine Takes.decoder (.map (a := (c.kind, c.property, c.operator, c.value)) ?_ _) _
  refine .and ?_ c.kind.takes_name (by decide)
  refine .and ?_ (takes_text c.property) (by decide)
  refine .and ?_ (takes_text c.operator) (by decide)
  exact takes_one (m := .withDefault "value" .text "") (takes_text c.value)

theorem Segment.takes (s : Segment) : Segment.decoder.Takes s.toJson.tree s := by
  refine Takes.decoder (.map (a := (s.key, s.matchType, s.constraints)) ?_ _) _
  refine .and ?_ (takes_text s.key) (by decide)
  refine .and ?_ s.matchType.takes_name (by decide)
  exact takes_one (takes_listOrEmpty fun c _ => c.takes)

theorem Distribution.takes (d : Distribution) (h : d.percentage.ReadBack) :
    Distribution.decoder.Takes d.toJson.tree d := by
  refine Takes.decoder (.map (a := (d.variant, d.percentage, d.attachment)) ?_ _) _
  refine .and ?_ (takes_text d.variant) (by decide)
  refine .and ?_ (takes_single h) (by decide)
  exact takes_optional (takes_present _)

theorem Rule.takes (r : Rule) (h : ∀ x ∈ r.percentages, x.ReadBack) :
    Rule.decoder.Takes r.toJson.tree r := by
  rw [Rule.percentages, List.forall_mem_map] at h
  refine Takes.decoder (.map (a := (r.segments, r.operator, r.distributions)) ?_ _) _
  refine .and ?_ (takes_listOrEmpty fun s _ => s.takes) (by decide)
  refine .and ?_ r.operator.takes_name (by decide)
  exact takes_one (takes_listOrEmpty fun d hd => d.takes (h d hd))

theorem SegmentRollout.takes (r : SegmentRollout) : SegmentRollout.decoder.Takes r.toJson.tree r := by
  refine Takes.decoder (.map (a := (r.operator, r.value, r.segments)) ?_ _) _
  refine .and ?_ r.operator.takes_name (by decide)
  refine .and ?_ (takes_flag r.value) (by decide)
  exact takes_one (takes_listOrEmpty fun s _ => s.takes)

theorem Threshold.takes (t : Threshold) (h : t.percentage.ReadBack) :
    Threshold.decoder.Takes t.toJson.tree t := by
  refine Takes.decoder (.map (a := (t.percentage, t.value)) ?_ _) _
  refine .and ?_ (takes_single h) (by decide)
  exact takes_one (takes_flag t.value)

theorem Rollout.takes (r : Rollout) (h : ∀ t ∈ r.threshold, t.percentage.ReadBack) :
    Rollout.decoder.Takes r.toJson.tree r := by
  rw [Rollout.toJson, Value.tree, Value.memberTrees_append, Value.memberTrees_append, List.append_assoc]
  refine Takes.decoder (.map (a := (r.description, r.segment, r.threshold)) ?_ _) _
  refine .and_optional ?_ (takes_present _) (by decide)
  refine .and_optional ?_ (fun s _ => ⟨s.takes, fun h => nomatch h⟩) (by decide)
  exact takes_optional fun t ht => ⟨t.takes (h t ht), fun h => nomatch h⟩

theorem Variant.takes (v : Variant) : Variant.decoder.Takes v.toJson.tree v := by
  refine Takes.decoder (.map (a := (v.key, v.attachment)) ?_ _) _
  refine .and ?_ (takes_text v.key) (by decide)
  exact takes_optional (takes_present _)

theorem Flag.takes (f : Flag) (h : ∀ x ∈ f.percentages, x.ReadBack) :
    Flag.decoder.Takes f.toJson.tree f := by
  rw [Flag.percentages, List.forall_mem_append] at h
  have hrules : ∀ r ∈ f.rules, Rule.decoder.Takes r.toJson.tree r := by
    intro r hr
    exact r.takes fun x hx => h.1 x (List.mem_flatMap_of_mem hr hx)
  have hrollouts : ∀ r ∈ f.rollouts, Rollout.decoder.Takes r.toJson.tree r := by
    intro r hr
    refine r.takes fun t ht => h.2 _ ?_
    rw [thresholdPercentages, List.mem_filterMap]
    exact ⟨r, hr, by rw [ht]; rfl⟩
  rw [Flag.toJson, Value.tree]
  simp only [Value.memberTrees_append, List.append_assoc]
  refine Takes.decoder (.map (a := (f.key, f.name, f.kind, f.description, f.enabled, f.rules,
    f.rollouts, f.defaultVariant)) ?_ _) _
  refine .and ?_ (takes_text f.key) (by decide)
  refine .and ?_ (takes_text f.name) (by decide)
  refine .and ?_ f.kind.takes_name (by decide)
  refine .and_optional ?_ (takes_present _) (by decide)
  refine .and ?_ (takes_flag f.enabled) (by decide)
  refine .and_list ?_ hrules (by decide)
  refine .and_list ?_ hrollouts (by decide)
  exact takes_optional fun v _ => ⟨v.takes, fun h => nomatch h⟩

theorem Namespace.takes (n : Namespace) : Namespace.decoder.Takes n.toJson.tree n := by
  refine Takes.decoder (.map (a := (n.key, n.name)) ?_ _) _
  refine .and ?_ (takes_text n.key) (by decide)
  exact takes_optional (takes_present _)

/-- **The reader of documents takes what is written of a document.** -/
theorem Document.takes (d : Document) (h : ∀ x ∈ d.percentages, x.ReadBack) :
    Document.decoder.Takes d.toJson.tree d := by
  have hflags : ∀ f ∈ d.flags, Flag.decoder.Takes f.toJson.tree f := by
    intro f hf
    exact f.takes fun x hx => h x (List.mem_flatMap_of_mem hf hx)
  refine Takes.decoder (.map (a := (d.space, d.flags)) ?_ _) _
  refine .and ?_ (d.space.takes.orDefault (fun h => nomatch h) _) (by decide)
  exact takes_one (takes_listOrEmpty hflags)

/-! ### Options that hold a document -/

/-- The text of options of which the document is the only member. -/
def Document.asOptions (d : Document) : String := "\x7b\"snapshot\":" ++ d.toJson.text ++ "\x7d"

theorem Document.asOptions_eq (d : Document) :
    d.asOptions = (Value.object [("snapshot", d.toJson)]).text := by
  have hname : Value.stringChars "snapshot" = "\"snapshot\"".toList := by decide
  rw [asOptions, Value.text, Value.text, Value.chars, Value.memberChars, hname, ← String.toList_inj]
  simp only [String.toList_append, String.toList_ofList, List.cons_append]
  simp

theorem Options.takes_document {d : Document} (h : ∀ x ∈ d.percentages, x.ReadBack) :
    Options.decoder.Takes (Value.object [("snapshot", d.toJson)]).tree
      { Options.standard with document := some d } := by
  refine Takes.decoder (.map (a := (standard.source, some d, none, standard.interval,
    standard.strategy, none)) ?_ _) _
  refine .and_missing ?_ rfl (by decide)
  refine .and ?_ ((d.takes h).optional fun h => nomatch h) (by decide)
  refine .and_missing ?_ rfl (by decide)
  refine .and_missing ?_ rfl (by decide)
  refine .and_missing ?_ rfl (by decide)
  exact takes_one_missing rfl

theorem Options.parse_asOptions {d : Document} (h : ∀ x ∈ d.percentages, x.ReadBack) :
    Options.parse (Utf8.encode d.asOptions) = .ok { Options.standard with document := some d } := by
  rw [Options.parse, d.asOptions_eq, (takes_document h).decode]
  rfl

/-! ### Building again -/

/-- A document that was adopted by a namespace is adopted by it again. -/
theorem Document.adopt_adopt (ns : String) (d : Document) : (d.adopt ns).adopt ns = d.adopt ns := by
  by_cases hempty : d.space.key.isEmpty = true
  · have hadopt : d.adopt ns = { d with space := { d.space with key := ns } } := if_pos hempty
    rw [hadopt, adopt, ite_self]
  · have hadopt : d.adopt ns = d := if_neg hempty
    rw [hadopt, hadopt]

/-- The document of a snapshot makes the same snapshot. -/
theorem Snapshot.build_again {ns : String} {d : Document} {s : Snapshot} (h : build ns d = .ok s) :
    build ns s.document = .ok s := by
  rw [(build_ok h).1, build, Document.adopt_adopt]
  exact h

/-! ### Engines that serve the document -/

namespace Engine

/-- An engine answers everything as an evaluator does. -/
structure AnswersAs (e : Engine) (f : Evaluator) : Prop where
  evaluate : ∀ clock kind request,
    e.evaluate kind request clock = (f.evaluate kind (Utf8.encode request) clock).text
  query : ∀ kind, e.query kind = (f.query kind).text

/-- An engine was built that answers everything as an evaluator does, and a refresh changes nothing. -/
def ServesAs (read : Reader) (outcome : Except EngineFault Engine) (f : Evaluator) : Prop :=
  ∃ e, outcome = .ok e ∧ e.refresh read = e ∧ e.AnswersAs f

theorem answersAs {e : Engine} {f : Evaluator} (h : e.evaluator = f) : e.AnswersAs f where
  evaluate clock kind request := by rw [Engine.evaluate, h]
  query kind := by rw [Engine.query, h]

/-- A source that brings nothing new changes nothing. -/
theorem refresh_of_nothing {read : Reader} {e : Engine}
    (h : (Source.fetcher read).fetch e.source = (.ok none, e.source)) : e.refresh read = e := by
  rw [Engine.refresh, refresh_eq, h]
  rfl

variable {read : Reader} {ns : Option String} {o : Options} {s : Snapshot}

/-- An engine is built of the first document that its source brings. -/
theorem new_of_fetched {d : Document} {source kept : Source} (hsource : sourceOf o = .ok source)
    (hfetched : (Source.fetcher read).fetch source = (.ok (some d), kept)) :
    new read ns o =
      match Snapshot.build (spaceOf ns) d with
      | .error f => .error (.evaluation f.failure)
      | .ok s => .ok ⟨.new (spaceOf ns) s, kept, o.strategy, o.refreshInterval?⟩ := by
  simp only [new, hsource, bind, Except.bind, hfetched, Option.getD_some]
  cases Snapshot.build (spaceOf ns) d <;> rfl

/-- A file that was not read before and holds a document brings it. -/
theorem fetch_file {path : String} {bytes : List UInt8} {d : Document} (hread : read path = .ok bytes)
    (hdecoded : Json.decode Document.decoder bytes = .ok d) :
    (Source.fetcher read).fetch (.file path none) =
      (.ok (some d), .file path (some (Sha256.digest bytes))) := by
  simp only [Source.fetcher, Fetcher.file, hread, hdecoded, reduceCtorEq, ↓reduceIte]

/-- A source that brings a document once, and then nothing new. -/
theorem servesAs_of_fetched {d : Document} {source kept : Source} (hsource : sourceOf o = .ok source)
    (hfetched : (Source.fetcher read).fetch source = (.ok (some d), kept))
    (hkept : (Source.fetcher read).fetch kept = (.ok none, kept))
    (hbuilt : Snapshot.build (spaceOf ns) d = .ok s) :
    ServesAs read (new read ns o) (.new (spaceOf ns) s) := by
  have hnew : new read ns o = .ok ⟨.new (spaceOf ns) s, kept, o.strategy, o.refreshInterval?⟩ := by
    rw [new_of_fetched hsource hfetched, hbuilt]
  exact ⟨_, hnew, refresh_of_nothing hkept, answersAs rfl⟩

/-- A document among the options is served. -/
theorem servesAs_inline (hsource : o.source = .inline) (hdocument : o.document = some s.document)
    (hbuilt : Snapshot.build (spaceOf ns) s.document = .ok s) :
    ServesAs read (new read ns o) (.new (spaceOf ns) s) := by
  have hof : sourceOf o = .ok (.inline (some s.document)) := by
    simp only [sourceOf, hsource, hdocument, Source.ofDocument, Option.getD_some]
  exact servesAs_of_fetched hof rfl rfl hbuilt

/-- A document in a file is served. -/
theorem servesAs_file {path : String} {bytes : List UInt8} (hsource : o.source = .file)
    (hpath : o.path = some path) (hread : read path = .ok bytes)
    (hdecoded : Json.decode Document.decoder bytes = .ok s.document)
    (hbuilt : Snapshot.build (spaceOf ns) s.document = .ok s) :
    ServesAs read (new read ns o) (.new (spaceOf ns) s) := by
  have hof : sourceOf o = .ok (.file path none) := by
    simp only [sourceOf, hsource, hpath, Source.ofPath]
  have hkept : (Source.fetcher read).fetch (.file path (some (Sha256.digest bytes))) =
      (.ok none, .file path (some (Sha256.digest bytes))) := by
    simp only [Source.fetcher, Fetcher.file, hread, ↓reduceIte]
  exact servesAs_of_fetched hof (fetch_file hread hdecoded) hkept hbuilt

end Engine

/-! ### What becomes of the document -/

/-- What becomes of the document that a snapshot gives away. -/
structure Snapshot.ComesBack (ns : String) (s : Snapshot) : Prop where
  /-- The document is the answer to the query for it. -/
  given : (Evaluator.new ns s).query .snapshot = .success s.document.toJson
  /-- Its text is read as the same document. -/
  decoded : Json.decode Document.decoder (Utf8.encode s.document.toJson.text) = .ok s.document
  /-- The document makes the same snapshot, with the same flags in the same order. -/
  built : build ns s.document = .ok s
  /-- Options that hold the document make an engine that answers as before. -/
  inline : ∀ read name, Engine.spaceOf name = ns → ∀ o : Options, o.source = .inline →
    o.document = some s.document → Engine.ServesAs read (Engine.new read name o) (.new ns s)
  /-- So does the text of options with the text of the document in it. -/
  asOptions : ∀ read name, Engine.spaceOf name = ns → Engine.ServesAs read
    (Engine.parse read name (Utf8.encode s.document.asOptions)) (.new ns s)
  /-- So does a file with the text of the document. -/
  file : ∀ read name, Engine.spaceOf name = ns → ∀ (o : Options) path, o.source = .file →
    o.path = some path → read path = .ok (Utf8.encode s.document.toJson.text) →
    Engine.ServesAs read (Engine.new read name o) (.new ns s)

/-- **A document that is served comes back as it was**, if each of its percentages is read back from its
own text: the text that a snapshot gives away is read as the same document, which makes the same
snapshot, and an engine that gets it answers everything as before. -/
theorem Snapshot.comesBack {ns : String} {d : Document} {s : Snapshot} (h : build ns d = .ok s)
    (hd : ∀ x ∈ d.percentages, x.ReadBack) : ComesBack ns s := by
  have hs : ∀ x ∈ s.document.percentages, x.ReadBack := by
    rwa [(build_ok h).1, Document.percentages, Document.adopt_flags]
  have hdecoded := (s.document.takes hs).decode
  have hbuilt := build_again h
  exact {
    given := rfl
    decoded := hdecoded
    built := hbuilt
    inline := by
      rintro read name rfl o hsource hdocument
      exact Engine.servesAs_inline hsource hdocument hbuilt
    asOptions := by
      rintro read name rfl
      rw [Engine.parse, Options.parse_asOptions hs]
      exact Engine.servesAs_inline (o := { Options.standard with document := some s.document }) rfl rfl
        hbuilt
    file := by
      rintro read name rfl o path hsource hpath hread
      exact Engine.servesAs_file hsource hpath hread hdecoded hbuilt }

/-- A document without a namespace, with members that are empty, members that are missing, and
percentages that have no end in binary digits. -/
theorem Snapshot.comesBack_shop :
    let d : Document := ⟨⟨"", some ""⟩,
      [⟨"checkout", "", .variant, some "", true,
        [⟨[⟨"adults", .all, [⟨.number, "age", "gte", "18"⟩, ⟨.unknown, "", "", ""⟩]⟩], .and,
          [⟨"classic", Floating.ofDecimal false 333 (-1), none⟩,
            ⟨"express", Floating.ofDecimal false 667 (-1), some ""⟩]⟩],
        [], some ⟨"classic", none⟩⟩,
      ⟨"banner", "Banner", .boolean, none, false, [],
        [⟨none, some ⟨.or, true, []⟩, some ⟨Floating.ofNat 50, false⟩⟩, ⟨some "rest", none, none⟩],
        none⟩]⟩
    let s : Snapshot := .ofDocument (d.adopt "shop")
    build "shop" d = .ok s ∧ (∀ x ∈ d.percentages, x.ReadBack) ∧ ComesBack "shop" s := by
  intro d s
  have hbuilt : build "shop" d = .ok s := by decide +kernel
  have hread : ∀ x ∈ d.percentages, x.ReadBack := by decide +kernel
  exact ⟨hbuilt, hread, comesBack hbuilt hread⟩

end FeatureFlags
