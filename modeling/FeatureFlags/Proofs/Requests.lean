/-
**Which objects are requests.**

An object is taken for a request exactly if it names one flag and one entity, both with a text, and holds
at most one context, which is null or an object.  All the other members of the object have no say, whatever
they hold, wherever they stand and however often they come.

The properties of the entity are those members of the context that are texts, numbers or truth values.  Of
members with one name the last counts, and if it is of another kind there is no such property, even if one
before it would be one.

Main definitions:

* `Json.Tree.Property` — **a tree that is a property, and its text**;
* `Request.Held` — what the members of a request come to;
* `Request.Members` — **the members of an object that is a request.**

Main results:

* `Context.value?_merge` — the properties that a context holds;
* `Request.decoder_object_iff`, `Request.decoder_array_iff` — a request as an object and as a list;
* `Request.object_taken_iff` — **which objects are taken for requests, for which ones, and what has no
  say.**
-/
import FeatureFlags.Evaluation.RequestDecode
import FeatureFlags.Proofs.Values
import FeatureFlags.Proofs.Written

set_option autoImplicit false

namespace FeatureFlags

open Json

/-! ### Properties -/

/-- A tree that is a property, and its text. -/
inductive Json.Tree.Property : Tree → String → Prop
  | string {s : String} : Property (.string s) s
  | number {n : Numeral} {x : Number} : n.value = .ok x →
      Property (.number n) (String.ofList x.chars)
  | true : Property (.bool true) "true"
  | false : Property (.bool false) "false"

theorem property?_value_iff {t : Tree} (h : t.InRange) {text : String} :
    property? t.value = some text ↔ t.Property text := by
  cases t with
  | number n =>
      obtain ⟨x, hx⟩ := h
      rw [Tree.value, hx, property?, Option.some.injEq]
      constructor
      · rintro rfl
        exact .number hx
      · rintro ⟨⟩
        next hx' =>
          rw [hx] at hx'
          cases hx'
          rfl
  | string s =>
      rw [Tree.value, property?, Option.some.injEq]
      constructor
      · rintro rfl
        exact .string
      · rintro ⟨⟩
        rfl
  | bool b =>
      cases b with
      | true =>
          constructor
          · rintro ⟨⟩
            exact .true
          · rintro ⟨⟩
            rfl
      | false =>
          constructor
          · rintro ⟨⟩
            exact .false
          · rintro ⟨⟩
            rfl
  | null | array | object =>
      constructor
      · intro h
        cases h
      · intro h
        cases h

namespace Context

/-- The property of a name is that of the member of this name. -/
theorem value?_ofMembers {ms : List (String × Value)} (h : Value.Sorted ms) (k : String) :
    (ofMembers ms).value? k = (ms.lookup k).bind property? := by
  rw [value?, ofMembers]
  induction ms with
  | nil => rfl
  | cons m ms ih =>
      obtain ⟨name, v⟩ := m
      obtain ⟨hname, hms⟩ := List.pairwise_cons.1 h
      rw [List.filterMap_cons, lookup_cons_if]
      cases hproperty : property? v with
      | some text =>
          simp only [Option.map_some, lookup_cons_if, ih hms]
          split
          · exact hproperty.symm
          · rfl
      | none =>
          simp only [Option.map_none, ih hms]
          split
          · next heq =>
              -- the name does not come again, so no other member is taken for it
              have hnone : ms.lookup k = none := by
                rw [List.lookup_eq_none_iff]
                intro m hm
                rw [heq, bne_iff_ne]
                exact ne_of_lt (hname m hm)
              rw [hnone, Option.bind_some, hproperty]
              rfl
          · rfl

/-- **The properties that a context holds**: of the members of a name the last counts. -/
theorem value?_merge {cs : List (String × Tree)} (h : (Tree.object cs).InRange) (k v : String) :
    (ofMembers (Tree.merge [] cs)).value? k = some v ↔
      ∃ t, (occurrences k cs).getLast? = some t ∧ t.Property v := by
  rw [value?_ofMembers (Tree.sorted_merge .nil cs), Tree.lookup_merge, List.lookup_nil, Option.or_none,
    Option.bind_map, Option.bind_eq_some_iff]
  refine exists_congr fun t => and_congr_right fun ht => ?_
  exact property?_value_iff (Tree.membersInRange_occurrences h t (List.mem_of_getLast? ht))

end Context

namespace Request

/-! ### The three members -/

/-- What the flag, the identifier and the context of a request come to, of which each may be there. -/
structure Held (lists : Nat) (flag id context : Option Node) (r : Request) : Prop where
  flag : Stands .text none flag r.flag
  id : Stands .text none id r.entity.id
  context : ∃ members, Stands (.optional (Value.entries (Value.depthLimit - 2 - lists))) (some none)
    context members ∧ r.entity.context = Context.ofMembers (members.getD [])

/-- **A request as an object.** -/
theorem decoder_object_iff {lists start stop : Nat} {fs : List (Json.Field Node)} (hfs : Legible fs)
    {r : Request} : decoder lists (.object start fs (.closed stop)) = .ok r ↔
      ∃ flag id context : Option Node, occurrences "flag_key" (Field.named fs) = flag.toList ∧
        occurrences "entity_id" (Field.named fs) = id.toList ∧
        occurrences "context" (Field.named fs) = context.toList ∧ Held lists flag id context r := by
  have hsplit : ∀ p : String × String × Option (List (String × Value)),
      ((Record.one (.required "flag_key" .text)).and <| (Record.one (.required "entity_id" .text)).and <|
        Record.one (.optional "context" (Value.entries (Value.depthLimit - 2 - lists)))).Reads fs p ↔
      (∃ o : Option Node, occurrences "flag_key" (Field.named fs) = o.toList ∧
        Stands .text none o p.1) ∧
      (∃ o : Option Node, occurrences "entity_id" (Field.named fs) = o.toList ∧
        Stands .text none o p.2.1) ∧
      ∃ o : Option Node, occurrences "context" (Field.named fs) = o.toList ∧
        Stands (.optional (Value.entries (Value.depthLimit - 2 - lists))) (some none) o p.2.2 := by
    intro p
    have hflag : "flag_key" ∉ ["entity_id", "context"] := by decide
    have hid : "entity_id" ∉ ["context"] := by decide
    have hown := Record.ownNames_one (.optional "context" (Value.entries (Value.depthLimit - 2 - lists)))
    rw [Record.one_and_reads_iff (Record.ownNames_and (Record.ownNames_one _) hown) hflag hfs,
      Record.one_and_reads_iff hown hid hfs, Record.reads_one_iff hfs]
    rfl
  rw [decoder, Record.decoder_object_iff, Record.reads_map_iff]
  constructor
  · rintro ⟨⟨f, i, members⟩, hreads, rfl⟩
    rw [hsplit] at hreads
    obtain ⟨⟨flag, hflag, hf⟩, ⟨id, hid, hi⟩, context, hcontext, hmembers⟩ := hreads
    exact ⟨flag, id, context, hflag, hid, hcontext, hf, hi, members, hmembers, rfl⟩
  · rintro ⟨flag, id, context, hflag, hid, hcontext, hheld⟩
    obtain ⟨members, hmembers, hproperties⟩ := hheld.context
    refine ⟨(r.flag, r.entity.id, members), ?_, ?_⟩
    · rw [hsplit]
      exact ⟨⟨flag, hflag, hheld.flag⟩, ⟨id, hid, hheld.id⟩, context, hcontext, hmembers⟩
    · simp only [← hproperties]

/-- **A request as a list.** -/
theorem decoder_array_iff {lists start stop : Nat} {items : List Node} {r : Request} :
    decoder lists (.array start items (.closed stop)) = .ok r ↔
      Held lists items[0]? items[1]? items[2]? r ∧ items.length ≤ 3 := by
  rw [decoder, Record.decoder_array_iff, ← items.drop_zero]
  simp only [Record.map_ofItems_iff, Record.one_and_ofItems_iff, Record.one_ofItems_nil_iff]
  constructor
  · rintro ⟨⟨⟨flag, id, members⟩, ⟨hflag, hid, hmembers, hlength⟩, rfl⟩, -⟩
    exact ⟨⟨hflag, hid, members, hmembers, rfl⟩, hlength⟩
  · rintro ⟨⟨hflag, hid, members, hmembers, hcontext⟩, hlength⟩
    refine ⟨⟨(r.flag, r.entity.id, members), ⟨hflag, hid, hmembers, hlength⟩, ?_⟩, stop, rfl⟩
    rw [← hcontext]

/-! ### Trees that are requests -/

/-- A text is read off at most one value exactly if there is one, and it is this text. -/
theorem exists_text_iff {ns : List Node} {ts : List Tree} (h : List.Forall₂ Node.Shows ns ts)
    {a : String} : (∃ o : Option Node, ns = o.toList ∧ Stands .text none o a) ↔ ts = [.string a] := by
  constructor
  · rintro ⟨o, rfl, ha⟩
    cases ha with
    | missing h => cases h
    | item ha =>
        cases h with
        | cons hn hnil =>
            cases hnil
            cases hn with
            | string =>
                cases ha
                rfl
            | null | bool | number | tooLarge | array | object => cases ha
  · rintro rfl
    cases h with
    | cons hn hnil =>
        cases hnil
        exact ⟨some _, rfl, .item (Decoder.takes_text a _ hn)⟩

/-- Members are read off at most one value exactly if there is none or a null, or if it is an object. -/
theorem exists_entries_iff {ns : List Node} {ts : List Tree} (h : List.Forall₂ Node.Shows ns ts)
    (hrange : ∀ t ∈ ts, t.InRange) {d : Nat} (hd : ∀ n ∈ ns, n.depth ≤ d)
    {members : Option (List (String × Value))} :
    (∃ o : Option Node, ns = o.toList ∧ Stands (.optional (Value.entries d)) (some none) o members) ↔
      ((ts = [] ∨ ts = [.null]) ∧ members = none) ∨
        ∃ cs, ts = [.object cs] ∧ members = some (Tree.merge [] cs) := by
  constructor
  · rintro ⟨o, rfl, hmembers⟩
    cases hmembers with
    | missing h' =>
        cases h
        cases h'
        exact Or.inl ⟨Or.inl rfl, rfl⟩
    | @item n _ hread =>
        cases h with
        | @cons _ t _ _ hn hnil =>
            cases hnil
            cases t with
            | null =>
                cases hn
                cases hread
                exact Or.inl ⟨Or.inr rfl, rfl⟩
            | object cs =>
                have hentries := Value.entries_of_shows hn (hrange _ (List.mem_singleton_self _))
                  (hd n (List.mem_singleton_self _))
                rw [Decoder.optional_of_shows hn (fun h => nomatch h), hentries] at hread
                cases hread
                exact Or.inr ⟨cs, rfl, rfl⟩
            | bool | number | string | array =>
                cases hn <;> cases hread
  · rintro (⟨rfl | rfl, rfl⟩ | ⟨cs, rfl, rfl⟩)
    · cases h
      exact ⟨none, rfl, .missing rfl⟩
    · cases h with
      | cons hn hnil =>
          cases hnil
          cases hn
          exact ⟨some _, rfl, .item rfl⟩
    · cases h with
      | @cons n _ _ _ hn hnil =>
          cases hnil
          have hentries := Value.entries_of_shows hn (hrange _ (List.mem_singleton_self _))
            (hd n (List.mem_singleton_self _))
          refine ⟨some n, rfl, .item ?_⟩
          rw [Decoder.optional_of_shows hn (fun h => nomatch h), hentries]
          rfl

/-- **The members of an object that is a request**: one flag, one entity, and at most one context. -/
structure Members (ms : List (String × Tree)) (r : Request) : Prop where
  flag : occurrences "flag_key" ms = [.string r.flag]
  id : occurrences "entity_id" ms = [.string r.entity.id]
  context : ((occurrences "context" ms = [] ∨ occurrences "context" ms = [.null]) ∧
      r.entity.context = .empty) ∨
    ∃ cs, occurrences "context" ms = [.object cs] ∧
      r.entity.context = Context.ofMembers (Tree.merge [] cs)

/-- An object is taken for the request whose members it has. -/
theorem decoder_iff_of_shows {lists : Nat} {n : Node} {ms : List (String × Tree)}
    (h : n.Shows (.object ms)) (hrange : (Tree.object ms).InRange)
    (hdepth : n.depth + lists < Value.depthLimit) {r : Request} :
    decoder lists n = .ok r ↔ Members ms r := by
  cases h with
  | @object start stop fs _ hfs =>
      have hflags := forall₂_occurrences "flag_key" hfs
      have hids := forall₂_occurrences "entity_id" hfs
      have hcontexts := forall₂_occurrences "context" hfs
      have hdeep : ∀ n ∈ occurrences "context" (Field.named fs), n.depth ≤
          Value.depthLimit - 2 - lists := by
        intro n hn
        have hle := depth_le_of_mem_occurrences hn
        rw [Node.depth] at hdepth
        omega
      have hentries := @exists_entries_iff _ _ hcontexts (Tree.membersInRange_occurrences hrange) _ hdeep
      rw [decoder_object_iff (legible_of_shows hfs)]
      constructor
      · rintro ⟨flag, id, context, hflag, hid, hcontext, hheld⟩
        obtain ⟨members, hmembers, hproperties⟩ := hheld.context
        refine ⟨(exists_text_iff hflags).1 ⟨flag, hflag, hheld.flag⟩,
          (exists_text_iff hids).1 ⟨id, hid, hheld.id⟩, ?_⟩
        rcases hentries.1 ⟨context, hcontext, hmembers⟩ with ⟨hnone, rfl⟩ | ⟨cs, hcs, rfl⟩
        · exact Or.inl ⟨hnone, hproperties⟩
        · exact Or.inr ⟨cs, hcs, hproperties⟩
      · rintro ⟨hflag, hid, hcontext⟩
        obtain ⟨flag, hf, hflag⟩ := (exists_text_iff hflags).2 hflag
        obtain ⟨id, hi, hid⟩ := (exists_text_iff hids).2 hid
        rcases hcontext with ⟨hnone, hproperties⟩ | ⟨cs, hcs, hproperties⟩
        · obtain ⟨context, hc, hmembers⟩ := hentries.2 (Or.inl ⟨hnone, rfl⟩)
          exact ⟨flag, id, context, hf, hi, hc, hflag, hid, none, hmembers, hproperties⟩
        · obtain ⟨context, hc, hmembers⟩ := hentries.2 (Or.inr ⟨cs, hcs, rfl⟩)
          exact ⟨flag, id, context, hf, hi, hc, hflag, hid, _, hmembers, hproperties⟩

/-! ### Texts that are requests -/

section

variable {s : List Char} {ms : List (String × Tree)}

/-- An object text is taken for the request whose members it has. -/
theorem decode_iff_members (hs : Spelling.OfTree s (.object ms)) (hrange : (Tree.object ms).InRange)
    (hdepth : Spelling.nesting s < Value.depthLimit) {r : Request} :
    decode (Utf8.encodeChars s) = .ok r ↔ Members ms r := by
  refine decode_iff_of_found (((Outline.found_of_part hs).and
    (Outline.foundValue_depth (Spelling.wellFormed_of_part hs))).imp ?_)
  rintro n ⟨hshows, hn⟩
  exact decoder_iff_of_shows hshows hrange (by omega)

theorem members_congr {ms' : List (String × Tree)} (h : ∀ name ∈ ["flag_key", "entity_id", "context"],
    occurrences name ms' = occurrences name ms) {r : Request} : Members ms' r ↔ Members ms r := by
  have hflag := h "flag_key" (by simp)
  have hid := h "entity_id" (by simp)
  have hcontext := h "context" (by simp)
  constructor
  · rintro ⟨hf, hi, hc⟩
    rw [hflag] at hf
    rw [hid] at hi
    rw [hcontext] at hc
    exact ⟨hf, hi, hc⟩
  · rintro ⟨hf, hi, hc⟩
    rw [← hflag] at hf
    rw [← hid] at hi
    rw [← hcontext] at hc
    exact ⟨hf, hi, hc⟩

/-- There is such a request exactly if one flag and one entity are named, and at most one context. -/
theorem exists_members_iff : (∃ r, Members ms r) ↔
    (∃ flag, occurrences "flag_key" ms = [.string flag]) ∧
    (∃ id, occurrences "entity_id" ms = [.string id]) ∧
    (occurrences "context" ms = [] ∨ occurrences "context" ms = [.null] ∨
      ∃ cs, occurrences "context" ms = [.object cs]) := by
  constructor
  · rintro ⟨r, hflag, hid, ⟨hnone | hnull, -⟩ | ⟨cs, hcs, -⟩⟩
    · exact ⟨⟨_, hflag⟩, ⟨_, hid⟩, Or.inl hnone⟩
    · exact ⟨⟨_, hflag⟩, ⟨_, hid⟩, Or.inr (Or.inl hnull)⟩
    · exact ⟨⟨_, hflag⟩, ⟨_, hid⟩, Or.inr (Or.inr ⟨cs, hcs⟩)⟩
  · rintro ⟨⟨flag, hflag⟩, ⟨id, hid⟩, hnone | hnull | ⟨cs, hcs⟩⟩
    · exact ⟨⟨flag, id, .empty⟩, hflag, hid, Or.inl ⟨Or.inl hnone, rfl⟩⟩
    · exact ⟨⟨flag, id, .empty⟩, hflag, hid, Or.inl ⟨Or.inr hnull, rfl⟩⟩
    · exact ⟨⟨flag, id, .ofMembers (Tree.merge [] cs)⟩, hflag, hid, Or.inr ⟨cs, hcs, rfl⟩⟩

/-- The properties of a request are those of the one context of the object. -/
theorem Members.value?_iff {r : Request} (h : Members ms r) (hrange : (Tree.object ms).InRange)
    (k v : String) : r.entity.context.value? k = some v ↔
      ∃ cs t, occurrences "context" ms = [.object cs] ∧ (occurrences k cs).getLast? = some t ∧
        t.Property v := by
  rcases h.context with ⟨hnone, hproperties⟩ | ⟨cs, hcs, hproperties⟩
  · rw [hproperties]
    constructor
    · intro hv
      cases hv
    · rintro ⟨cs, t, hcs, -⟩
      rcases hnone with hnone | hnull
      · rw [hnone] at hcs
        cases hcs
      · rw [hnull] at hcs
        cases hcs
  · have hcontext : (Tree.object cs).InRange :=
      Tree.membersInRange_occurrences hrange _ (by rw [hcs]; exact List.mem_singleton_self _)
    rw [hproperties, Context.value?_merge hcontext]
    constructor
    · rintro ⟨t, ht, hv⟩
      exact ⟨cs, t, hcs, ht, hv⟩
    · rintro ⟨cs', t, hcs', ht, hv⟩
      rw [hcs] at hcs'
      cases hcs'
      exact ⟨t, ht, hv⟩

/-- **Which objects are taken for requests, for which ones, and what has no say.**  There must be one flag
and one entity, both texts, and at most one context, null or an object.  The request has these texts, and a
property for each name whose last member in the context is one.  And objects with the same values under the
three names are taken for the same requests, whatever else they hold. -/
theorem object_taken_iff (hs : Spelling.OfTree s (.object ms)) (hrange : (Tree.object ms).InRange)
    (hdepth : Spelling.nesting s < Value.depthLimit) :
    ((∃ r, decode (Utf8.encodeChars s) = .ok r) ↔
      (∃ flag, occurrences "flag_key" ms = [.string flag]) ∧
      (∃ id, occurrences "entity_id" ms = [.string id]) ∧
      (occurrences "context" ms = [] ∨ occurrences "context" ms = [.null] ∨
        ∃ cs, occurrences "context" ms = [.object cs])) ∧
    (∀ r, decode (Utf8.encodeChars s) = .ok r →
      occurrences "flag_key" ms = [.string r.flag] ∧ occurrences "entity_id" ms = [.string r.entity.id] ∧
      ∀ k v, r.entity.context.value? k = some v ↔
        ∃ cs t, occurrences "context" ms = [.object cs] ∧ (occurrences k cs).getLast? = some t ∧
          t.Property v) ∧
    ∀ s' ms', Spelling.OfTree s' (.object ms') → (Tree.object ms').InRange →
      Spelling.nesting s' < Value.depthLimit →
      (∀ name ∈ ["flag_key", "entity_id", "context"], occurrences name ms' = occurrences name ms) →
      ∀ r, decode (Utf8.encodeChars s') = .ok r ↔ decode (Utf8.encodeChars s) = .ok r := by
  have hdecode : ∀ r, decode (Utf8.encodeChars s) = .ok r ↔ Members ms r := fun r =>
    decode_iff_members hs hrange hdepth
  refine ⟨?_, fun r hr => ?_, fun s' ms' hs' hrange' hdepth' hsame r => ?_⟩
  · rw [← exists_members_iff]
    exact exists_congr hdecode
  · have hmembers := (hdecode r).1 hr
    exact ⟨hmembers.flag, hmembers.id, hmembers.value?_iff hrange⟩
  · rw [hdecode, decode_iff_members hs' hrange' hdepth', members_congr hsame]

end

/-- A request whose context gives one property twice: the last of them counts, and a list in front, which
the request does not know, has no say. -/
theorem object_taken_iff_repeated :
    let s := ("\x7b\"x\":[],\"entity_id\":\"e\"," ++
      "\"context\":\x7b\"k\":0,\"k\":true\x7d,\"flag_key\":\"f\"\x7d").toList
    let cs : List (String × Tree) := [("k", .number ⟨false, [0], none, none⟩), ("k", .bool true)]
    let ms : List (String × Tree) :=
      [("x", .array []), ("entity_id", .string "e"), ("context", .object cs), ("flag_key", .string "f")]
    Spelling.OfTree s (.object ms) ∧ (Tree.object ms).InRange ∧
      Spelling.nesting s < Value.depthLimit ∧ ∃ r, decode (Utf8.encodeChars s) = .ok r ∧ r.flag = "f" ∧
        r.entity.id = "e" ∧ r.entity.context.value? "k" = some "true" := by
  intro s cs ms
  have hs : Spelling.OfTree s (.object ms) := by
    have htext : s = '\x7b' :: (('"' :: "x".toList ++ ['"']) ++ ':' :: ('[' :: [] ++ [']']) ++ ',' ::
        (('"' :: "entity_id".toList ++ ['"']) ++ ':' :: ('"' :: "e".toList ++ ['"']) ++ ',' ::
          (('"' :: "context".toList ++ ['"']) ++ ':' ::
            ('\x7b' :: (('"' :: "k".toList ++ ['"']) ++ ':' :: ['0'] ++ ',' ::
              (('"' :: "k".toList ++ ['"']) ++ ':' :: ['t', 'r', 'u', 'e'])) ++ ['\x7d']) ++ ',' ::
            (('"' :: "flag_key".toList ++ ['"']) ++ ':' :: ('"' :: "f".toList ++ ['"']))))) ++
          ['\x7d'] := by decide +kernel
    have hzero : Spelling.OfTree ['0'] (.number ⟨false, [0], none, none⟩) :=
      .number (.positive (s := ['0']) .zero .none .none)
    rw [htext]
    exact .object (Value.member_plain (.of (.plain (by decide))) (.noItems (by decide))
      (Value.member_plain (.of (.plain (by decide))) (.string (.of (.plain (by decide))))
        (Value.member_plain (.of (.plain (by decide)))
          (.object (Value.member_plain (.of (.plain (by decide))) hzero
            (Value.lastMember_plain (.of (.plain (by decide))) .true)))
          (Value.lastMember_plain (.of (.plain (by decide))) (.string (.of (.plain (by decide))))))))
  have hrange : (Tree.object ms).InRange :=
    ⟨trivial, trivial, ⟨⟨_, rfl⟩, trivial, trivial⟩, trivial, trivial⟩
  have hdepth : Spelling.nesting s < Value.depthLimit := by decide +kernel
  obtain ⟨htaken, hread, -⟩ := object_taken_iff hs hrange hdepth
  obtain ⟨r, hr⟩ := htaken.2 ⟨⟨"f", rfl⟩, ⟨"e", rfl⟩, Or.inr (Or.inr ⟨cs, rfl⟩)⟩
  obtain ⟨hflag, hid, hproperties⟩ := hread r hr
  have hflag : [Tree.string "f"] = [.string r.flag] := hflag
  have hid : [Tree.string "e"] = [.string r.entity.id] := hid
  exact ⟨hs, hrange, hdepth, r, hr, (Tree.string.inj (List.cons.inj hflag).1).symm,
    (Tree.string.inj (List.cons.inj hid).1).symm, (hproperties "k" "true").2 ⟨cs, _, rfl, rfl, .true⟩⟩

end Request

end FeatureFlags
