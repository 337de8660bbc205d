/-
**Requests for given properties.**

The properties of an entity can be given one after the other, each with its value, or all at once in the text
of a request, as the members of its context.  In both ways a name may come again, and the last value counts.
So it makes no difference in which of the two ways they are given, and in the text neither the order of the
three members matters, nor blanks, nor the escapes in strings, nor what was given for a name before its last
value.

Main definitions:

* `Request.SpelledBy` — **the texts of a request for a flag, an entity and properties.**

Main results:

* `Context.value?_ofList` — properties given one after the other;
* `Request.exists_spelledBy` — there is such a text;
* `Request.decode_of_spelledBy` — **what it is read as.**
-/
import FeatureFlags.Proofs.Influence
import FeatureFlags.Proofs.Requests

set_option autoImplicit false

namespace FeatureFlags

open Json Json.Spelling

/-! ### One property after the other -/

/-- **Of values that are given for one property the last counts.** -/
theorem Context.value?_ofList (properties : List (String × String)) (k : String) :
    (ofList properties).value? k = (occurrences k properties).getLast? := by
  have hfold : ∀ (ps : List (String × String)) (c : Context),
      (ps.foldl (fun c e => c.insert e.1 e.2) c).value? k =
        (occurrences k ps).getLast?.or (c.value? k) := by
    intro ps
    induction ps with
    | nil => exact fun c => rfl
    | cons p ps ih =>
        intro c
        obtain ⟨name, v⟩ := p
        rw [List.foldl_cons, ih, value?_insert, occurrences_cons]
        by_cases hname : name = k
        · subst hname
          rw [if_pos rfl, if_pos rfl, List.getLast?_cons]
          cases (occurrences name ps).getLast? <;> rfl
        · rw [if_neg (Ne.symm hname), if_neg hname]
  rw [ofList, hfold]
  exact Option.or_none

/-! ### Trees of little depth -/

namespace Json

variable {ms : List (String × Tree)}

/-- Members are as deep as their values. -/
theorem depthOfMembers_le {d : Nat} (hms : ∀ m ∈ ms, ∀ n : Node, n.Shows m.2 → n.depth ≤ d)
    {fs : List (Field Node)} (h : (Finding.members fs).Shows (.members ms)) : depthOfMembers fs ≤ d := by
  induction ms generalizing fs with
  | nil =>
      cases h
      exact Nat.zero_le d
  | cons m ms ih =>
      rw [List.forall_mem_cons] at hms
      cases h with
      | member _ hn hfs =>
          rw [depthOfMembers]
          exact Nat.max_le.2 ⟨hms.1 _ hn, ih hms.2 hfs⟩

theorem Node.Shows.depth_le_of_object {d : Nat} {n : Node}
    (hms : ∀ m ∈ ms, ∀ n : Node, n.Shows m.2 → n.depth ≤ d) (h : n.Shows (.object ms)) :
    n.depth ≤ d + 1 := by
  cases h with
  | object hfs => exact Nat.succ_le_succ (depthOfMembers_le hms hfs)

theorem Node.Shows.depth_of_string {n : Node} {s : String} (h : n.Shows (.string s)) : n.depth = 0 := by
  cases h
  rfl

theorem Tree.membersInRange_iff : MembersInRange ms ↔ ∀ m ∈ ms, m.2.InRange := by
  induction ms with
  | nil => simp [MembersInRange]
  | cons m ms ih => rw [MembersInRange, ih, List.forall_mem_cons]

end Json

theorem occurrences_map {α β : Type} (f : α → β) (k : String) (ms : List (String × α)) :
    occurrences k (ms.map fun m => (m.1, f m.2)) = (occurrences k ms).map f := by
  simp [occurrences, List.filter_map, Function.comp_def]

theorem occurrences_perm {α : Type} {ms ns : List (String × α)} (h : ms.Perm ns) (k : String) :
    (occurrences k ms).Perm (occurrences k ns) := (h.filter _).map _

/-! ### Texts of a request -/

namespace Request

/-- The members of a request, with properties as they are given. -/
def members (flag entity : String) (given : List (String × String)) : List (String × Tree) :=
  [("flag_key", .string flag), ("entity_id", .string entity),
    ("context", .object (given.map fun p => (p.1, .string p.2)))]

/-- A text is that of a request for a flag, an entity and properties: an object of the three members, in any
order, with a context that has the same last values as the properties. -/
def SpelledBy (text flag entity : String) (properties : List (String × String)) : Prop :=
  ∃ given ms, (∀ k, (occurrences k given).getLast? = (occurrences k properties).getLast?) ∧
    ms.Perm (members flag entity given) ∧ OfTree text.toList (.object ms)

variable {text flag entity : String} {properties given : List (String × String)}
  {ms : List (String × Tree)}

/-- There is a text of a request for whatever is given. -/
theorem exists_spelledBy (flag entity : String) (properties : List (String × String)) :
    ∃ text, SpelledBy text flag entity properties := by
  have hcontext : ∀ ps : List (String × String), Value.memberTrees (ps.map fun p => (p.1, .string p.2)) =
      ps.map fun p => (p.1, Tree.string p.2) := by
    intro ps
    induction ps with
    | nil => rfl
    | cons p ps ih => simp only [List.map_cons, Value.memberTrees, ih, Value.tree]
  refine ⟨(Value.object [("flag_key", .string flag), ("entity_id", .string entity),
    ("context", .object (properties.map fun p => (p.1, .string p.2)))]).text, properties,
    members flag entity properties, fun _ => rfl, .refl _, ?_⟩
  rw [Value.text, String.toList_ofList, members, ← hcontext]
  exact Value.spells _

/-- A request has one flag, one entity and one context. -/
theorem members_of_perm (h : ms.Perm (members flag entity given)) :
    Members ms ⟨flag, entity,
      Context.ofMembers (Tree.merge [] (given.map fun p => (p.1, .string p.2)))⟩ where
  flag := List.perm_singleton.1 (occurrences_perm h "flag_key")
  id := List.perm_singleton.1 (occurrences_perm h "entity_id")
  context := .inr ⟨_, List.perm_singleton.1 (occurrences_perm h "context"), rfl⟩

/-- There are no numbers in a request, and no object inside of its context. -/
theorem shallow_of_perm (h : ms.Perm (members flag entity given)) :
    (Tree.object ms).InRange ∧ ∀ n : Node, n.Shows (.object ms) → n.depth ≤ 2 := by
  have hmembers : ∀ m ∈ ms, m.2.InRange ∧ ∀ n : Node, n.Shows m.2 → n.depth ≤ 1 := by
    intro m hm
    have hm := h.mem_iff.1 hm
    simp only [members, List.mem_cons, List.not_mem_nil, or_false] at hm
    rcases hm with rfl | rfl | rfl
    · exact ⟨trivial, fun n hn => by rw [hn.depth_of_string]; exact Nat.zero_le 1⟩
    · exact ⟨trivial, fun n hn => by rw [hn.depth_of_string]; exact Nat.zero_le 1⟩
    · refine ⟨Tree.membersInRange_iff.2 (List.forall_mem_map.2 fun _ _ => trivial), fun n hn => ?_⟩
      exact hn.depth_le_of_object (List.forall_mem_map.2 fun _ _ k hk => hk.depth_of_string.le)
  exact ⟨Tree.membersInRange_iff.2 fun m hm => (hmembers m hm).1,
    fun n hn => hn.depth_le_of_object fun m hm => (hmembers m hm).2⟩

/-- **What the text of a request is read as**: a request with the same values as the properties. -/
theorem decode_of_spelledBy (h : SpelledBy text flag entity properties) :
    ∃ r, decode (Utf8.encode text) = .ok r ∧ r.flag = flag ∧ r.entity.id = entity ∧
      ∀ k, r.entity.context.value? k = (occurrences k properties).getLast? := by
  obtain ⟨given, ms, hlast, hperm, hspells⟩ := h
  have hmembers := members_of_perm hperm
  obtain ⟨hrange, hdepth⟩ := shallow_of_perm hperm
  have hread : ∀ r, decode (Utf8.encode text) = .ok r ↔ Members ms r := by
    intro r
    refine decode_iff_of_found ((Outline.found_of_part hspells).imp fun n hn => ?_)
    refine decoder_iff_of_shows hn hrange ?_
    have hle := hdepth n hn
    rw [Value.depthLimit]
    omega
  refine ⟨_, (hread _).2 hmembers, rfl, rfl, fun k => ?_⟩
  have hcontext : (Tree.object (given.map fun p => (p.1, .string p.2))).InRange :=
    Tree.membersInRange_iff.2 (List.forall_mem_map.2 fun _ _ => trivial)
  rw [← hlast k]
  ext v
  rw [Context.value?_merge hcontext, occurrences_map, List.getLast?_map]
  constructor
  · rintro ⟨t, ht, hv⟩
    obtain ⟨s, hs, rfl⟩ := Option.map_eq_some_iff.1 ht
    cases hv
    exact hs
  · intro hv
    exact ⟨.string v, by rw [hv]; rfl, .string⟩

end Request

end FeatureFlags
