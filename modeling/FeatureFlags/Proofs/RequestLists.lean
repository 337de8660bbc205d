/-
**A list of requests is read request by request.**

Well-formed texts can be put into a list, with commas between them.  The list is then read exactly if each of
the texts can be read as a request by itself, and it holds these requests in the order of the texts.  What
a text holds does not depend on what stands around it: the descent finds trees that differ only in places,
and a request is read off them alike, be it an object or a list itself.

The list takes one of the brackets that may be open at a time.  A text that is nested nearly as deep as the
reader may go can therefore be too deep inside of a list; all others are not.

Main definitions:

* `Json.Spelling.bracketed` — some texts as the items of a list.

Main results:

* `Json.depth_eq_of_alike` — trees that differ only in places are equally deep;
* `Request.decoder_of_alike` — a request is read off trees that differ only in places alike, wherever they
  stand;
* `Request.decodeBatch_one_by_one` — **a list of requests is read request by request.**
-/
import Mathlib.Data.Option.Basic
import FeatureFlags.Proofs.Requests

set_option autoImplicit false

namespace FeatureFlags

namespace Json

open Spelling

variable {α : Type}

/-! ### Trees that differ only in places -/

/-- What differs only in places is equally deep. -/
theorem depth_of_alike {x y : Finding} (h : x.Alike y) :
    match x, y with
    | .value n, .value n' => n.depth = n'.depth
    | .items ns, .items ns' => depthOfItems ns = depthOfItems ns'
    | .members fs, .members fs' => depthOfMembers fs = depthOfMembers fs'
    | _, _ => False := by
  induction h with
  | null | bool | number | string | noItems | noMembers => rfl
  | array _ ih => exact congrArg (· + 1) ih
  | object _ ih => exact congrArg (· + 1) ih
  | item _ _ ih ih' => exact congrArg₂ max ih ih'
  | member _ _ _ ih ih' => exact congrArg₂ max ih ih'

/-- **Trees that differ only in places are equally deep.** -/
theorem depth_eq_of_alike {n n' : Node} (h : n.Alike n') : n.depth = n'.depth := depth_of_alike h

/-- The items in one place differ only in places, or there are none. -/
theorem rel_getElem?_of_alike {ns ns' : List Node} (h : (Finding.items ns).Alike (.items ns')) (i : Nat) :
    Option.Rel Node.Alike ns[i]? ns'[i]? := by
  induction ns generalizing ns' i with
  | nil =>
      cases h
      exact .none
  | cons n ns ih =>
      cases h with
      | item hn hns =>
          cases i with
          | zero => exact .some hn
          | succ i => exact ih hns i

theorem length_eq_of_alike {ns ns' : List Node} (h : (Finding.items ns).Alike (.items ns')) :
    ns.length = ns'.length := by
  induction ns generalizing ns' with
  | nil =>
      cases h
      rfl
  | cons n ns ih =>
      cases h with
      | item _ hns => exact congrArg (· + 1) (ih hns)

/-- Members that differ only in places are both legible if the names of one of them are. -/
theorem legible_of_alike {fs fs' : List (Field Node)} (h : (Finding.members fs).Alike (.members fs'))
    (hkeys : ∀ f ∈ fs, ∃ q, f.key.text = .ok q) : Legible fs ∧ Legible fs' := by
  induction fs generalizing fs' with
  | nil =>
      cases h
      exact ⟨by simp [Legible], by simp [Legible]⟩
  | cons f fs ih =>
      obtain ⟨⟨q, hq⟩, hbehind⟩ := List.forall_mem_cons.1 hkeys
      cases h with
      | member hkey hn hfs =>
          obtain ⟨hlegible, hlegible'⟩ := ih hfs hbehind
          obtain ⟨hskip, hskip'⟩ := Node.Alike.skip_eq hn
          rw [hq] at hkey
          have hq' := toOption_eq_some_iff.1 hkey.symm
          exact ⟨List.forall_mem_cons.2 ⟨⟨⟨q, hq⟩, hskip⟩, hlegible⟩,
            List.forall_mem_cons.2 ⟨⟨⟨q, hq'⟩, hskip'⟩, hlegible'⟩⟩

/-- The values under a name differ only in places. -/
theorem forall₂_occurrences_of_alike (name : String) {fs fs' : List (Field Node)}
    (h : (Finding.members fs).Alike (.members fs')) (hfs : Legible fs) :
    List.Forall₂ Node.Alike (occurrences name (Field.named fs)) (occurrences name (Field.named fs')) := by
  induction fs generalizing fs' with
  | nil =>
      cases h
      exact .nil
  | cons f fs ih =>
      obtain ⟨⟨⟨q, hq⟩, -⟩, hbehind⟩ := List.forall_mem_cons.1 hfs
      cases h with
      | member hkey hn hms =>
          rw [hq] at hkey
          have hq' := toOption_eq_some_iff.1 hkey.symm
          rw [Field.named_cons hq, Field.named_cons hq', occurrences_cons, occurrences_cons]
          split
          · exact .cons hn (ih hms hbehind)
          · exact ih hms hbehind

/-- If there is at most one, so is there of those that differ only in places. -/
theorem exists_rel_of_forall₂ {o : Option Node} {ns : List Node}
    (h : List.Forall₂ Node.Alike o.toList ns) : ∃ o', ns = Option.toList o' ∧ Option.Rel Node.Alike o o' := by
  cases o with
  | none =>
      cases h
      exact ⟨none, rfl, .none⟩
  | some n =>
      cases h with
      | cons hn hnil =>
          cases hnil
          exact ⟨some _, rfl, .some hn⟩

/-- What is read the same stands for the same. -/
theorem Stands.of_alike {d d' : Decoder α} {missing : Option α} {o o' : Option Node} {a : α}
    (h : Stands d missing o a) (ho : Option.Rel Node.Alike o o')
    (hd : ∀ n ∈ o, ∀ n', n.Alike n' → (d n).toOption = (d' n').toOption) : Stands d' missing o' a := by
  cases ho with
  | none =>
      cases h with
      | missing h => exact .missing h
  | some hn =>
      cases h with
      | item h =>
          have hread := hd _ rfl _ hn
          rw [h] at hread
          exact .item (toOption_eq_some_iff.1 hread.symm)

/-- Where a value is read the same, so is an optional one. -/
theorem Decoder.toOption_optional {d d' : Decoder α} {n n' : Node} (h : n.Alike n')
    (hd : (d n).toOption = (d' n').toOption) : (d.optional n).toOption = (d'.optional n').toOption := by
  cases h with
  | null => rfl
  | bool | number | string | array | object =>
      exact (toOption_map some (d _)).trans ((congrArg _ hd).trans (toOption_map some (d' _)).symm)

/-- If members are read, then their names are. -/
theorem Record.exists_text_of_members {r : Record α} {fs : List (Field Node)} {s s' : r.State}
    (h : r.members s fs = .ok s') : ∀ f ∈ fs, ∃ q, f.key.text = .ok q := by
  induction fs generalizing s with
  | nil => simp
  | cons f fs ih =>
      rw [members] at h
      cases hkey : f.key.text with
      | error e =>
          simp only [hkey] at h
          cases h
      | ok q =>
          refine List.forall_mem_cons.2 ⟨⟨q, hkey⟩, ?_⟩
          cases hclaim : r.claim s q.text with
          | again =>
              simp only [hkey, hclaim] at h
              cases h
          | take read =>
              simp only [hkey, hclaim] at h
              cases hread : read f.value with
              | error e =>
                  simp only [hread] at h
                  cases h
              | ok s'' =>
                  simp only [hread] at h
                  exact ih h
          | unknown =>
              simp only [hkey, hclaim] at h
              cases hskip : f.value.skip with
              | error e =>
                  simp only [hskip] at h
                  cases h
              | ok u =>
                  simp only [hskip] at h
                  exact ih h

/-! ### Lists -/

/-- Everything has a partner if there is a list of partners. -/
theorem exists_forall₂_iff {β : Type} {R : α → β → Prop} {as : List α} :
    (∃ bs, List.Forall₂ R as bs) ↔ ∀ a ∈ as, ∃ b, R a b := by
  induction as with
  | nil => simp
  | cons a as ih =>
      rw [List.forall_mem_cons, ← ih]
      constructor
      · rintro ⟨bs, h⟩
        cases h with
        | cons hb hbs => exact ⟨⟨_, hb⟩, ⟨_, hbs⟩⟩
      · rintro ⟨⟨b, hb⟩, bs, hbs⟩
        exact ⟨b :: bs, .cons hb hbs⟩

/-- Some texts as the items of a list. -/
def Spelling.bracketed (texts : List (List Char)) : List Char := '[' :: [','].intercalate texts ++ [']']

end Json

open Json Json.Spelling

namespace Request

/-! ### Requests that differ only in places -/

section

variable {lists lists' : Nat} {r : Request}

/-- The members of a request come to the same if they differ only in places, and the reader may go deep
enough. -/
theorem Held.of_alike {flag id context flag' id' context' : Option Node} (h : Held lists flag id context r)
    (hflag : Option.Rel Node.Alike flag flag') (hid : Option.Rel Node.Alike id id')
    (hcontext : Option.Rel Node.Alike context context') (hdepth : ∀ n ∈ context,
      n.depth ≤ Value.depthLimit - 2 - lists ∧ n.depth ≤ Value.depthLimit - 2 - lists') :
    Held lists' flag' id' context' r where
  flag := h.flag.of_alike hflag fun _ _ _ hn => Decoder.Placeless.text hn
  id := h.id.of_alike hid fun _ _ _ hn => Decoder.Placeless.text hn
  context := by
    obtain ⟨members, hmembers, hproperties⟩ := h.context
    refine ⟨members, hmembers.of_alike hcontext fun n hmem n' hn => ?_, hproperties⟩
    obtain ⟨hd, hd'⟩ := hdepth n hmem
    exact Decoder.toOption_optional hn (Value.entries_of_alike hn hd (depth_eq_of_alike hn ▸ hd'))

/-- **A request is read off trees that differ only in places alike**, inside of however many lists they
stand, if they are not too deep for that. -/
theorem decoder_of_alike {n n' : Node} (h : n.Alike n') (hd : n.depth + lists < Value.depthLimit)
    (hd' : n.depth + lists' < Value.depthLimit) (hr : decoder lists n = .ok r) :
    decoder lists' n' = .ok r := by
  cases h with
  | null | bool | number | string => cases hr
  | @array _ _ _ _ ns ns' hns =>
      rw [Node.depth] at hd hd'
      obtain ⟨hheld, hlength⟩ := decoder_array_iff.1 hr
      refine decoder_array_iff.2 ⟨hheld.of_alike (rel_getElem?_of_alike hns 0)
        (rel_getElem?_of_alike hns 1) (rel_getElem?_of_alike hns 2) fun n hn => ?_,
        length_eq_of_alike hns ▸ hlength⟩
      have hle := depth_le_of_mem_items (List.mem_of_getElem? hn)
      omega
  | @object _ _ _ _ fs fs' hfs =>
      rw [Node.depth] at hd hd'
      have hkeys : ∀ f ∈ fs, ∃ q, f.key.text = .ok q := by
        obtain ⟨s, hs, -⟩ := Record.decoder_object_iff.1 hr
        exact Record.exists_text_of_members hs
      obtain ⟨hlegible, hlegible'⟩ := legible_of_alike hfs hkeys
      obtain ⟨flag, id, context, hflag, hid, hcontext, hheld⟩ := (decoder_object_iff hlegible).1 hr
      have halike := fun name => forall₂_occurrences_of_alike name hfs hlegible
      obtain ⟨flag', hflag', hrel⟩ := exists_rel_of_forall₂ (hflag ▸ halike "flag_key")
      obtain ⟨id', hid', hrel'⟩ := exists_rel_of_forall₂ (hid ▸ halike "entity_id")
      obtain ⟨context', hcontext', hrel''⟩ := exists_rel_of_forall₂ (hcontext ▸ halike "context")
      refine (decoder_object_iff hlegible').2 ⟨flag', id', context', hflag', hid', hcontext',
        hheld.of_alike hrel hrel' hrel'' fun n hn => ?_⟩
      have hmem : n ∈ occurrences "context" (Field.named fs) := by
        rw [hcontext]
        exact Option.mem_toList.2 hn
      have hle := depth_le_of_mem_occurrences hmem
      omega

theorem decoder_iff_of_alike {n n' : Node} (h : n.Alike n') (hd : n.depth + lists < Value.depthLimit)
    (hd' : n.depth + lists' < Value.depthLimit) : decoder lists n = .ok r ↔ decoder lists' n' = .ok r :=
  ⟨decoder_of_alike h hd hd',
    decoder_of_alike (Finding.Alike.symm h) (depth_eq_of_alike h ▸ hd') (depth_eq_of_alike h ▸ hd)⟩

end

/-! ### Lists of requests -/

/-- What is found of a text inside of a list is read as what the text alone holds. -/
theorem found_of_wellFormed {t : List Char} (h : WellFormed .value t)
    (hdepth : nesting t + 1 < Value.depthLimit) : Outline.FoundValue t fun n =>
      ∀ r, decoder 1 n = .ok r ↔ decode (Utf8.encodeChars t) = .ok r := by
  obtain ⟨k, hk, -⟩ := Outline.steady_of_wellFormed h
  have hfound := hk.and (Outline.foundValue_depth h)
  -- both are read as one tree is, which differs from what is found only in places
  have halone : ∀ r, decode (Utf8.encodeChars t) = .ok r ↔ decoder 1 k = .ok r := by
    intro r
    refine decode_iff_of_found (hfound.imp ?_)
    rintro n ⟨halike, hn⟩
    exact decoder_iff_of_alike halike (by omega) (by omega)
  refine hfound.imp ?_
  rintro n ⟨halike, hn⟩ r
  rw [halone]
  exact decoder_iff_of_alike halike (by omega) (by omega)

section

variable {texts : List (List Char)} (hformed : ∀ t ∈ texts, WellFormed .value t)
  (hdepth : ∀ t ∈ texts, nesting t + 1 < Value.depthLimit)
include hformed hdepth

/-- The items of a list are read as the requests that the texts hold one by one. -/
theorem foundItems_of_wellFormed (hne : texts ≠ []) : Outline.FoundItems ([','].intercalate texts) fun ns =>
    ∀ rs, Decoder.items (decoder 1) ns = .ok rs ↔
      List.Forall₂ (fun t r => decode (Utf8.encodeChars t) = .ok r) texts rs := by
  induction texts with
  | nil => exact absurd rfl hne
  | cons t ts ih =>
      rw [List.forall_mem_cons] at hformed hdepth
      have ht := found_of_wellFormed hformed.1 hdepth.1
      cases ts with
      | nil =>
          rw [List.intercalate_singleton]
          refine Outline.foundItems_last ht fun n hn rs => ?_
          rw [Decoder.items_cons_iff, List.forall₂_cons_left_iff]
          simp only [hn, Decoder.items, Except.ok.injEq, List.forall₂_nil_left_iff, eq_comm]
      | cons u ts =>
          rw [List.intercalate_cons_cons, List.append_assoc, List.singleton_append]
          refine Outline.foundItems_cons ht (ih hformed.2 hdepth.2 (List.cons_ne_nil _ _))
            fun n ns hn hns rs => ?_
          rw [Decoder.items_cons_iff, List.forall₂_cons_left_iff]
          simp only [hn, hns]

/-- **A list of requests is read request by request**: it is read exactly if each of the texts is read as a
request, and it holds these requests in the order of the texts. -/
theorem decodeBatch_one_by_one :
    ((∃ rs, decodeBatch (Utf8.encodeChars (bracketed texts)) = .ok rs) ↔
      ∀ t ∈ texts, ∃ r, decode (Utf8.encodeChars t) = .ok r) ∧
    ∀ rs, decodeBatch (Utf8.encodeChars (bracketed texts)) = .ok rs ↔
      List.Forall₂ (fun t r => decode (Utf8.encodeChars t) = .ok r) texts rs := by
  have hall : ∀ rs, decodeBatch (Utf8.encodeChars (bracketed texts)) = .ok rs ↔
      List.Forall₂ (fun t r => decode (Utf8.encodeChars t) = .ok r) texts rs := by
    intro rs
    refine decode_iff_of_found ?_
    by_cases hne : texts = []
    · subst hne
      refine Outline.foundValue_noItems (s := []) (by simp [Blanks]) fun start stop => ?_
      rw [Decoder.list_array_iff, Decoder.items, List.forall₂_nil_left_iff, Except.ok.injEq, eq_comm]
    · refine Outline.foundValue_array (foundItems_of_wellFormed hformed hdepth hne)
        fun start ns stop hns => ?_
      rw [Decoder.list_array_iff, hns]
  refine ⟨?_, hall⟩
  rw [exists_congr hall]
  exact exists_forall₂_iff

end

/-- A list of a request that is a list itself, with a bracket and a comma in a string and blanks around it,
and of one that is an object. -/
theorem decodeBatch_one_by_one_mixed :
    let t := " [\"],\",\"1\"]\n".toList
    let u := "\x7b\"flag_key\":\"b\",\"entity_id\":\"2\"\x7d".toList
    (∀ x ∈ [t, u], WellFormed .value x) ∧ (∀ x ∈ [t, u], nesting x + 1 < Value.depthLimit) ∧
      decodeBatch (Utf8.encodeChars (bracketed [t, u])) =
        .ok [⟨"],", ⟨"1", .empty⟩⟩, ⟨"b", ⟨"2", .empty⟩⟩] := by
  intro t u
  have hinside : ∀ {cs : List Char}, (cs.all fun c => Plain c) → Inside cs := fun h => .of_chars (.plain h)
  have ht : WellFormed .value t := by
    have htext : t = [' '] ++ ('[' :: (('"' :: "],".toList ++ ['"']) ++ ',' ::
        ('"' :: "1".toList ++ ['"'])) ++ [']']) ++ ['\n'] := by decide +kernel
    rw [htext]
    exact .blanks (by decide) (.array (.item (.string (hinside (by decide)))
      (.lastItem (.string (hinside (by decide)))))) (by decide)
  have hu : WellFormed .value u := by
    have htext : u = '\x7b' :: ([] ++ ('"' :: "flag_key".toList ++ ['"']) ++ [] ++ ':' ::
        ('"' :: "b".toList ++ ['"']) ++ ',' :: ([] ++ ('"' :: "entity_id".toList ++ ['"']) ++ [] ++ ':' ::
          ('"' :: "2".toList ++ ['"']))) ++ ['\x7d'] := by decide +kernel
    rw [htext]
    exact .object (.member (by decide) (hinside (by decide)) (by decide) (.string (hinside (by decide)))
      (.lastMember (by decide) (hinside (by decide)) (by decide) (.string (hinside (by decide)))))
  have hformed : ∀ x ∈ [t, u], WellFormed .value x := by simp [ht, hu]
  have hdepth : ∀ x ∈ [t, u], nesting x + 1 < Value.depthLimit := by decide +kernel
  obtain ⟨-, hall⟩ := decodeBatch_one_by_one hformed hdepth
  have hfirst : decode (Utf8.encodeChars t) = .ok ⟨"],", ⟨"1", .empty⟩⟩ := by decide +kernel
  have hsecond : decode (Utf8.encodeChars u) = .ok ⟨"b", ⟨"2", .empty⟩⟩ := by decide +kernel
  exact ⟨hformed, hdepth, (hall _).2 (.cons hfirst (.cons hsecond .nil))⟩

end Request

end FeatureFlags
