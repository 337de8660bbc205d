/-
**A document among the options serves like one in a file.**

The text of a document can be given to an engine in two ways: as it is, as a member of the options, or in a
file whose path is among the options.  One text is read in the middle of another and the other on its own, so
the places of what is found differ.  The decoder of documents does not look at them, and so both engines get
the same document, or neither gets one.  Whether a document can be served, and by which snapshot, has nothing
to do with where it came from.

A null is left out, because among the options it stands for no document at all.

Main definitions:

* `Options.inlineText`, `Options.fileText` — the texts of options for a document, and for a file;
* `Engine.Call`, `Engine.answers` — what an engine is asked, and its answers;
* `Engine.ServesLike` — **two engines for the same namespace that answer alike.**

Main results:

* `Options.toOption_parse_inline`, `Options.parse_fileText` — what the options are read as;
* `Engine.toOption_parse_inline`, `Engine.toOption_parse_file` — the engines that they make;
* `Engine.inline_serves_like_file` — **a document among the options serves like one in a file.**
-/
import FeatureFlags.Proofs.Placeless
import FeatureFlags.Proofs.RoundTrip

set_option autoImplicit false

namespace FeatureFlags

open Json Json.Spelling Json.Outline Json.Record Json.Decoder

variable {read : Reader} {ns : Option String} {text spelling path : String} {k : Node}

/-! ### Options for a document -/

/-- The characters of a text that is put between two others. -/
theorem toList_around {head last : String} {s t : List Char} (hs : head.toList = s) (ht : last.toList = t)
    (text : String) : (head ++ text ++ last).toList = s ++ text.toList ++ t := by
  rw [String.toList_append, String.toList_append, hs, ht]

namespace Options

/-- Options that hold a document, by its text. -/
def inlineText (text : String) : String := "\x7b\"source\":\"local\",\"snapshot\":" ++ text ++ "\x7d"

/-- Options that name a file, which is read once, by a spelling of its path. -/
def fileText (spelling : String) : String :=
  "\x7b\"source\":\"file\",\"path\":" ++ spelling ++ ",\"update_interval\":0\x7d"

/-- The characters of options for a document, member by member. -/
theorem toList_inlineText (text : String) : (inlineText text).toList = '\x7b' ::
    ([] ++ ('"' :: "source".toList ++ ['"']) ++ [] ++ ':' :: ('"' :: "local".toList ++ ['"']) ++ ',' ::
      ([] ++ ('"' :: "snapshot".toList ++ ['"']) ++ [] ++ ':' :: text.toList)) ++ ['\x7d'] := by
  refine (toList_around (s := '\x7b' :: '"' :: "source".toList ++ '"' :: ':' :: '"' :: "local".toList ++
    '"' :: ',' :: '"' :: "snapshot".toList ++ ['"', ':']) (t := ['\x7d']) ?_ ?_ text).trans ?_
  · decide
  · decide
  · simp only [List.append_assoc, List.cons_append, List.nil_append]

/-- The options for a document. -/
def holding (d : Document) : Options := { standard with document := some d }

/-- The members of options for a document. -/
theorem decoder_inline {key key' : Key} {n n' : Node} {next next' start stop : Nat} {escaped escaped' : Bool}
    (hkey : key.text = .ok ⟨"source", escaped⟩) (hn : n.Shows (.string "local"))
    (hkey' : key'.text = .ok ⟨"snapshot", escaped'⟩) :
    decoder (.object start [⟨key, n, next⟩, ⟨key', n', next'⟩] (.closed stop)) =
      (Document.decoder.optional n').map fun d => { standard with document := d } := by
  have hsource : SourceKind.vocabulary.decoder n = .ok .inline := Vocabulary.takes (by decide) n hn
  cases hdocument : Document.decoder.optional n' with
  | error f =>
      simp [decoder, Record.decoder, members, Record.map, Record.and, one, Member.withDefault,
        Member.optional, hkey, hkey', hsource, hdocument, Except.map]
  | ok d =>
      simp [decoder, Record.decoder, members, Record.map, Record.and, one, Member.withDefault,
        Member.optional, hkey, hkey', hsource, hdocument, Except.map, Tail.read, standard]

/-- What is found of options for a document is read as options with this document. -/
theorem found_inlineText (hk : FoundValue text.toList (·.Alike k))
    (hnull : ∀ start stop, k ≠ .null start stop) :
    FoundValue (inlineText text).toList fun n =>
      (decoder n).toOption = (Document.decoder k).toOption.map holding := by
  have hnone : Blanks [] := by decide
  have hsource : OfChars "source".toList "source".toList := .plain (by decide)
  have hsnapshot : OfChars "snapshot".toList "snapshot".toList := .plain (by decide)
  have hlocal : FoundValue ('"' :: "local".toList ++ ['"']) (·.Shows (.string "local")) :=
    found_of_part (.string (.of (.plain (by decide))))
  have hlast := foundMembers_last hnone (skipped_of_spelling hsnapshot)
    (K := fun name => ∃ escaped, name = .ok ⟨"snapshot", escaped⟩)
    (fun offset rest => ⟨_, text_of_spelling hsnapshot offset rest⟩) hnone hk
    (Q := fun fs => ∃ key n next escaped, fs = [⟨key, n, next⟩] ∧
      key.text = .ok ⟨"snapshot", escaped⟩ ∧ n.Alike k)
    fun key n next ⟨escaped, hkey⟩ hn => ⟨key, n, next, escaped, rfl, hkey, hn⟩
  have hmembers := foundMembers_cons hnone (skipped_of_spelling hsource)
    (K := fun name => ∃ escaped, name = .ok ⟨"source", escaped⟩)
    (fun offset rest => ⟨_, text_of_spelling hsource offset rest⟩) hnone hlocal hlast
    (R := fun fs => ∀ start stop, (decoder (.object start fs (.closed stop))).toOption =
      (Document.decoder k).toOption.map holding) (by
      rintro key n next _ ⟨escaped, hkey⟩ hn ⟨key', n', next', escaped', rfl, hkey', hn'⟩ start stop
      rw [decoder_inline hkey hn hkey', toOption_map,
        Document.placeless_decoder.optional_of_alike hn' hnull, Option.map_map]
      rfl)
  rw [toList_inlineText]
  exact foundValue_object hmembers fun start fs stop h => h start stop

/-- **What options for a document are read as.** -/
theorem toOption_parse_inline (hk : FoundValue text.toList (·.Alike k))
    (hnull : ∀ start stop, k ≠ .null start stop) :
    (parse (Utf8.encode (inlineText text))).toOption =
      (Document.decoder k).toOption.map holding := by
  have hdecoded := toOption_decode (found_inlineText hk hnull)
  rw [← hdecoded, parse, Utf8.encode]
  cases hdecode : Json.decode decoder (Utf8.encodeChars (inlineText text).toList) with
  | error p => rfl
  | ok o =>
      rw [hdecode] at hdecoded
      obtain ⟨d, -, rfl⟩ := Option.map_eq_some_iff.1 hdecoded.symm
      rfl

/-! ### Options for a file -/

/-- The options for a file that is read once. -/
def once (path : String) : Options := { standard with source := .file, path := some path, interval := 0 }

theorem takes_zero : natural.Takes (.number ⟨false, [0], none, none⟩) 0 := by
  have hzero : Numeral.value ⟨false, [0], none, none⟩ = .ok (.integer 0) := by decide
  intro n hn
  cases hn with
  | number hvalue =>
      rw [hzero] at hvalue
      cases hvalue
      rfl
  | tooLarge hvalue =>
      rw [hzero] at hvalue
      cases hvalue

theorem takes_file (path : String) :
    decoder.Takes (.object [("source", .string "file"), ("path", .string path),
      ("update_interval", .number ⟨false, [0], none, none⟩)]) (once path) := by
  refine Takes.decoder (.map (a := (SourceKind.file, none, some path, 0, standard.strategy, none)) ?_ _) _
  refine .and ?_ (Vocabulary.takes (by decide)) (by decide)
  refine .and_missing ?_ rfl (by decide)
  refine .and ?_ ((takes_textAs _ path).optional fun h => nomatch h) (by decide)
  refine .and ?_ takes_zero (by decide)
  refine .and_missing ?_ rfl (by decide)
  exact takes_one_missing rfl

/-- The characters of options for a file, member by member. -/
theorem toList_fileText (spelling : String) : (fileText spelling).toList = '\x7b' ::
    (('"' :: "source".toList ++ ['"']) ++ ':' :: ('"' :: "file".toList ++ ['"']) ++ ',' ::
      (('"' :: "path".toList ++ ['"']) ++ ':' :: spelling.toList ++ ',' ::
        (('"' :: "update_interval".toList ++ ['"']) ++ ':' :: ['0']))) ++ ['\x7d'] := by
  refine (toList_around (s := '\x7b' :: '"' :: "source".toList ++ '"' :: ':' :: '"' :: "file".toList ++
    '"' :: ',' :: '"' :: "path".toList ++ ['"', ':'])
    (t := ',' :: '"' :: "update_interval".toList ++ ['"', ':', '0', '\x7d']) ?_ ?_ spelling).trans ?_
  · decide
  · decide
  · simp only [List.append_assoc, List.cons_append, List.nil_append]

/-- Options for a file, with any spelling of its path. -/
theorem spells_fileText (hpath : OfString spelling.toList path) :
    OfTree (fileText spelling).toList (.object [("source", .string "file"), ("path", .string path),
      ("update_interval", .number ⟨false, [0], none, none⟩)]) := by
  have hzero : OfTree ['0'] (.number ⟨false, [0], none, none⟩) :=
    .number (.positive (s := ['0']) .zero .none .none)
  rw [toList_fileText]
  exact .object (Value.member_plain (.of (.plain (by decide))) (.string (.of (.plain (by decide))))
    (Value.member_plain (.of (.plain (by decide))) (.string hpath)
      (Value.lastMember_plain (.of (.plain (by decide))) hzero)))

/-- **What options for a file are read as.** -/
theorem parse_fileText (hpath : OfString spelling.toList path) :
    parse (Utf8.encode (fileText spelling)) = .ok (once path) := by
  rw [parse, Utf8.encode, (takes_file path).decode_spelling (spells_fileText hpath)]
  rfl

end Options

/-! ### Engines -/

namespace Engine

/-- What an engine is asked, and by which clock. -/
inductive Call where
  | evaluate (kind : Evaluation) (request : String) (clock : Clock)
  | query (kind : Query)

/-- The text that answers a call. -/
def answer (e : Engine) : Call → String
  | .evaluate kind request clock => e.evaluate kind request clock
  | .query kind => e.query kind

/-- The texts that answer several calls, one after the other. -/
def answers (e : Engine) (calls : List Call) : List String := calls.map e.answer

/-- Two engines serve the same namespace, neither is refreshed, and they answer all calls alike. -/
structure ServesLike (e e' : Engine) : Prop where
  space : e.space = e'.space
  unrefreshed : e.interval = none ∧ e'.interval = none
  answers : ∀ calls, e.answers calls = e'.answers calls

/-- An engine that serves a snapshot and is not refreshed. -/
def still (ns : Option String) (source : Source) (s : Snapshot) : Engine :=
  ⟨.new (spaceOf ns) s, source, .fail, none⟩

/-- Where a snapshot came from does not show. -/
theorem still_servesLike (ns : Option String) (source source' : Source) (s : Snapshot) :
    (still ns source s).ServesLike (still ns source' s) where
  space := rfl
  unrefreshed := ⟨rfl, rfl⟩
  answers calls := by
    have hsame : (still ns source s).answer = (still ns source' s).answer := by
      funext call
      cases call <;> rfl
    rw [Engine.answers, Engine.answers, hsame]

/-- The snapshot of a document, if there is a document and it can be served. -/
def snapshot? (ns : Option String) (d : Option Document) : Option Snapshot :=
  d.bind fun d => (Snapshot.build (spaceOf ns) d).toOption

/-- An engine gets what is fetched first. -/
theorem toOption_new {o : Options} {source kept : Source} {d : Document}
    (hsource : sourceOf o = .ok source)
    (hfetched : (Source.fetcher read).fetch source = (.ok (some d), kept)) (hstrategy : o.strategy = .fail)
    (hinterval : o.refreshInterval? = none) :
    (new read ns o).toOption = (Snapshot.build (spaceOf ns) d).toOption.map (still ns kept) := by
  rw [new_of_fetched hsource hfetched, hstrategy, hinterval]
  cases Snapshot.build (spaceOf ns) d <;> rfl

/-- **The engine of options for a document.** -/
theorem toOption_parse_inline (hk : FoundValue text.toList (·.Alike k))
    (hnull : ∀ start stop, k ≠ .null start stop) :
    (parse read ns (Utf8.encode (Options.inlineText text))).toOption =
      (snapshot? ns (Document.decoder k).toOption).map (still ns (.inline none)) := by
  have hoptions := Options.toOption_parse_inline hk hnull
  cases hdecoded : (Document.decoder k).toOption with
  | none =>
      rw [hdecoded] at hoptions
      obtain ⟨f, hf⟩ := toOption_eq_none_iff.1 hoptions
      rw [parse, hf]
      rfl
  | some d =>
      rw [hdecoded] at hoptions
      rw [parse, toOption_eq_some_iff.1 hoptions]
      have hsource : sourceOf (Options.holding d) = .ok (.inline (some d)) := rfl
      have hfetched : (Source.fetcher read).fetch (.inline (some d)) = (.ok (some d), .inline none) := rfl
      exact toOption_new hsource hfetched rfl rfl

/-- **The engine of options for a file.** -/
theorem toOption_parse_file (hk : FoundValue text.toList (·.Alike k))
    (hpath : OfString spelling.toList path) (hread : read path = .ok (Utf8.encode text)) :
    (parse read ns (Utf8.encode (Options.fileText spelling))).toOption =
      (snapshot? ns (Document.decoder k).toOption).map
        (still ns (.file path (some (Sha256.digest (Utf8.encode text))))) := by
  have hdecoded : (Json.decode Document.decoder (Utf8.encode text)).toOption =
      (Document.decoder k).toOption := toOption_decode (hk.imp fun n h => Document.placeless_decoder h)
  have hsource : sourceOf (Options.once path) = .ok (.file path none) := rfl
  have hnew : parse read ns (Utf8.encode (Options.fileText spelling)) = new read ns (Options.once path) := by
    rw [parse, Options.parse_fileText hpath]
    rfl
  rw [hnew, ← hdecoded]
  cases hdecode : Json.decode Document.decoder (Utf8.encode text) with
  | error p =>
      have hfetched : (Source.fetcher read).fetch (.file path none) =
          (.error (.evaluation p.failure), .file path none) := by
        simp only [Source.fetcher, Fetcher.file, hread, hdecode, reduceCtorEq, ↓reduceIte]
      simp only [new, hsource, bind, Except.bind, hfetched]
      rfl
  | ok d => exact toOption_new hsource (fetch_file hread hdecode) rfl rfl

/-- **A document among the options serves like one in a file.**  Of a text that is well formed, and no
null, both engines can be built or neither, and they serve alike. -/
theorem inline_serves_like_file (htext : WellFormed .value text.toList)
    (hnull : ¬OfTree text.toList .null) (hpath : OfString spelling.toList path)
    (hread : read path = .ok (Utf8.encode text)) :
    let inline := parse read ns (Utf8.encode (Options.inlineText text))
    let file := parse read ns (Utf8.encode (Options.fileText spelling))
    ((∃ e, inline = .ok e) ↔ ∃ e, file = .ok e) ∧
      ∀ e e', inline = .ok e → file = .ok e' → e.ServesLike e' := by
  intro inline file
  obtain ⟨k, hk, hof⟩ := steady_of_wellFormed htext
  have hinline : inline.toOption = _ := toOption_parse_inline hk fun start stop h => hnull (hof start stop h)
  have hfile : file.toOption = _ := toOption_parse_file hk hpath hread
  cases hsnapshot : snapshot? ns (Document.decoder k).toOption with
  | none =>
      rw [hsnapshot] at hinline hfile
      obtain ⟨f, hf⟩ := toOption_eq_none_iff.1 hinline
      obtain ⟨f', hf'⟩ := toOption_eq_none_iff.1 hfile
      simp [hf, hf']
  | some s =>
      rw [hsnapshot] at hinline hfile
      rw [toOption_eq_some_iff.1 hinline, toOption_eq_some_iff.1 hfile]
      refine ⟨⟨fun _ => ⟨_, rfl⟩, fun _ => ⟨_, rfl⟩⟩, ?_⟩
      rintro _ _ ⟨⟩ ⟨⟩
      exact still_servesLike ..

/-- A document with blanks around it, in which half of a surrogate pair stands where no string is read. -/
theorem inline_serves_like_file_unpaired :
    let text := "\n\x7b\"flags\":[\x7b\"key\":\"a\"\x7d],\"note\":\"\\ud800\"\x7d "
    let spelling := "\"\\/flags\""
    let read : Reader := fun _ => .ok (Utf8.encode text)
    let inline := parse read none (Utf8.encode (Options.inlineText text))
    let file := parse read none (Utf8.encode (Options.fileText spelling))
    WellFormed .value text.toList ∧ ¬OfTree text.toList .null ∧ OfString spelling.toList "/flags" ∧
      (∃ e, inline = .ok e) ∧ ((∃ e, inline = .ok e) ↔ ∃ e, file = .ok e) ∧
      ∀ e e', inline = .ok e → file = .ok e' → e.ServesLike e' := by
  intro text spelling read inline file
  have htext : WellFormed .value text.toList := by
    have hchars : text.toList = ['\n'] ++ ('\x7b' ::
        ([] ++ ('"' :: "flags".toList ++ ['"']) ++ [] ++ ':' ::
          (Value.array [.object [("key", .string "a")]]).chars ++ ',' ::
          ([] ++ ('"' :: "note".toList ++ ['"']) ++ [] ++ ':' ::
            ('"' :: ('\\' :: 'u' :: ['d', '8', '0', '0'] ++ []) ++ ['"']))) ++ ['\x7d']) ++ [' '] := by
      decide
    have hdigits : FourDigits ['d', '8', '0', '0'] 0xD800 :=
      .of (w := 13) (x := 8) (y := 0) (z := 0) ⟨by decide, .inl rfl⟩ ⟨by decide, .inl rfl⟩
        ⟨by decide, .inl rfl⟩ ⟨by decide, .inl rfl⟩
    have hnone : Blanks [] := by decide
    rw [hchars]
    refine .blanks (by decide) (.object (.member hnone ?_ hnone ?_ (.lastMember hnone ?_ hnone ?_)))
      (by decide)
    · exact .of_chars (.plain (by decide))
    · exact wellFormed_of_part (Value.spells _)
    · exact .of_chars (.plain (by decide))
    · exact .string (.unit hdigits .nil)
  have hnull : ¬OfTree text.toList .null := by
    intro h
    have htakes : unit.Takes .null () := by
      rintro n ⟨⟩
      rfl
    exact absurd (htakes.decode_spelling h) (by decide +kernel)
  have hpath : OfString spelling.toList "/flags" := by
    have hchars : spelling.toList = '"' :: (['\\', '/'] ++ "flags".toList) ++ ['"'] := by decide
    have hname : "/flags".toList = '/' :: "flags".toList := by decide
    rw [hchars]
    refine .of ?_
    rw [hname]
    exact .cons (.short (by decide)) (.plain (by decide))
  have hserved : inline.toOption.isSome = true := by decide +kernel
  obtain ⟨e, he⟩ := Option.isSome_iff_exists.1 hserved
  exact ⟨htext, hnull, hpath, ⟨e, toOption_eq_some_iff.1 he⟩,
    inline_serves_like_file htext hnull hpath rfl⟩

end Engine

end FeatureFlags
