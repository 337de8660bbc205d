/-
**A batch says what its requests get on their own.**

A batch looks each flag up by itself and goes straight to the evaluation of its kind, past the operations
for single flags.  It comes to the same.  What a request gets on its own is an entry for a missing flag, or
the result of the operation that belongs to the kind of the flag; a batch has these results as its entries,
in the order of the requests, or it has the first failure among them as its own.

A missing flag so never makes a batch fail.  Neither does asking for a flag of the other kind: what makes a
batch fail is a value that cannot be read, and no report of one ends in the words that the report of a
wrong kind ends in.

Main definitions:

* `Evaluator.single` — **what a request gets on its own**;
* `Entry.Shows`, `Evaluator.Carries` — the members of an entry, and an entry that shows the result of a
  request.

Main results:

* `Evaluator.entries_of_first`, `Evaluator.entries_of_forall₂` — the entries of several requests;
* `Evaluator.entries_filter` — requests for missing flags do not matter to the failure of a batch;
* `ValueFault.failure_ne` — a value that cannot be read is not reported like a flag of the wrong kind;
* `Evaluator.batch_agrees` — **a batch agrees with the operations for single flags.**
-/
import Mathlib.Data.List.Forall2
import FeatureFlags.Evaluation.Evaluator
import FeatureFlags.Proofs.Matching
import FeatureFlags.Proofs.Served

set_option autoImplicit false

namespace FeatureFlags

open Json (Value)

/-! ### Single requests -/

namespace Evaluator

/-- What a request gets on its own. -/
def single (e : Evaluator) (request : Request) : Except Failure Entry :=
  match e.get? request.flag with
  | none => .ok (.missing ⟨request.flag, e.space, .notFound⟩)
  | some f =>
    match f.info.kind with
    | .boolean => (e.boolean request).map Entry.boolean
    | .variant => (e.variant request).map Entry.variant

/-- The request fails on its own. -/
def Refuses (e : Evaluator) (request : Request) : Prop := ∃ f, e.single request = .error f

/-- A request that does not fail has an entry. -/
theorem single_of_not_refuses {e : Evaluator} {request : Request} (h : ¬e.Refuses request) :
    ∃ a, e.single request = .ok a := by
  cases hs : e.single request with
  | error f => exact absurd ⟨f, hs⟩ h
  | ok a => exact ⟨a, rfl⟩

section

variable {e : Evaluator} (herror : e.error = none)
include herror

/-- The entry of a batch is what the request gets on its own. -/
theorem entry_eq_single (request : Request) : e.entry request = e.single request := by
  rw [entry, single]
  cases hget : e.get? request.flag with
  | none => rfl
  | some f =>
      cases hkind : f.info.kind with
      | boolean =>
          have hboolean : e.boolean request = (f.boolean request).mapError (·.failure) := by
            simp only [boolean, unlessFailed, herror, hget, hkind, if_true]
          simp only [hkind, hboolean]
          cases f.boolean request <;> rfl
      | variant =>
          have hvariant : e.variant request = (f.variant request).mapError (·.failure) := by
            simp only [variant, unlessFailed, herror, hget, hkind, if_true]
          simp only [hkind, hvariant]
          cases f.variant request <;> rfl

/-! ### Several requests -/

/-- The first request that fails makes the whole batch fail, whatever stands before or after it. -/
theorem entries_of_first {request : Request} {requests : List Request} {f : Failure}
    (h : First e.Refuses request requests) (hf : e.single request = .error f) :
    e.entries requests = .error f := by
  induction h with
  | here _ => rw [entries, entry_eq_single herror, hf]
  | later hb _ ih =>
      obtain ⟨a, ha⟩ := single_of_not_refuses hb
      rw [entries, entry_eq_single herror, ha, ih]

/-- Requests of which each has an entry have these entries, one for each and in their order. -/
theorem entries_of_forall₂ {requests : List Request} {as : List Entry}
    (h : List.Forall₂ (fun r a => e.single r = .ok a) requests as) :
    e.entries requests = .ok as := by
  induction h with
  | nil => rfl
  | cons ha _ ih => rw [entries, entry_eq_single herror, ha, ih]

end

/-- Requests of which none fails have entries. -/
theorem exists_forall₂ {e : Evaluator} {requests : List Request}
    (h : ∀ r ∈ requests, ¬e.Refuses r) :
    ∃ as, List.Forall₂ (fun r a => e.single r = .ok a) requests as := by
  induction requests with
  | nil => exact ⟨[], .nil⟩
  | cons r rs ih =>
      obtain ⟨a, ha⟩ := single_of_not_refuses (h r (List.mem_cons_self ..))
      obtain ⟨as, has⟩ := ih fun q hq => h q (List.mem_cons_of_mem _ hq)
      exact ⟨a :: as, .cons ha has⟩

/-- Behind a request that has an entry, the other requests decide about the failure. -/
theorem entries_cons_eq_error {e : Evaluator} {r : Request} {a : Entry} (ha : e.entry r = .ok a)
    (rs : List Request) (f : Failure) :
    e.entries (r :: rs) = .error f ↔ e.entries rs = .error f := by
  rw [entries, ha]
  cases e.entries rs <;> simp

/-- Requests for missing flags do not matter to the failure: without them it is the same. -/
theorem entries_filter (e : Evaluator) (requests : List Request) (f : Failure) :
    e.entries requests = .error f ↔
      e.entries (requests.filter fun r => (e.get? r.flag).isSome) = .error f := by
  induction requests with
  | nil => rfl
  | cons r rs ih =>
      cases hget : e.get? r.flag with
      | none =>
          have hentry : e.entry r = .ok (.missing ⟨r.flag, e.space, .notFound⟩) := by
            rw [entry, hget]
          rw [List.filter_cons_of_neg (by rw [hget]; simp), entries_cons_eq_error hentry]
          exact ih
      | some g =>
          rw [List.filter_cons_of_pos (by rw [hget]; rfl)]
          cases hentry : e.entry r with
          | error f' => simp only [entries, hentry]
          | ok a =>
              rw [entries_cons_eq_error hentry, entries_cons_eq_error hentry]
              exact ih

end Evaluator

/-! ### What makes a batch fail -/

namespace ValueFault

/-- What is longer than an ending decides about it. -/
theorem not_suffix_append {ending t u : List Char} (hlength : ending.length ≤ u.length)
    (h : ¬ending <:+ u) : ¬ending <:+ t ++ u := by
  intro hsuffix
  exact h (List.suffix_of_suffix_length_le hsuffix (List.suffix_append t u) hlength)

/-- A number in digits does not end in a letter. -/
theorem not_suffix_toString (n : Nat) : ¬['g'] <:+ (toString n).toList := by
  intro hsuffix
  have hmem : 'g' ∈ Nat.toDigits 10 n := by
    have h := hsuffix.subset (List.mem_singleton_self 'g')
    rwa [Nat.toString_eq_repr, Nat.toList_repr] at h
  exact absurd (Nat.isDigit_of_mem_toDigits (by decide) (by decide) hmem) (by decide)

/-- No report of a value that cannot be read ends like the word “flag”; the one that ends in “g” ends in
“string”. -/
theorem not_suffix_message (v : ValueFault) : ¬['a', 'g'] <:+ v.message.toList := by
  cases v with
  | number text why =>
      change ¬_ <:+ ("error parsing number " ++ text ++ ": " ++ why.message).toList
      rw [String.toList_append]
      cases why <;> exact not_suffix_append (by decide) (by decide)
  | numbers text why =>
      intro hsuffix
      change _ <:+ (_ ++ ": " ++ (_ ++ " column " ++ toString why.column)).toList at hsuffix
      rw [← String.append_assoc, String.toList_append] at hsuffix
      have hdigits : ['g'].length ≤ (toString why.column).toList.length := by
        rw [Nat.toString_eq_repr, Nat.toList_repr]
        exact List.length_pos_iff.mpr Nat.toDigits_ne_nil
      have hg : ['g'] <:+ ['a', 'g'] := ⟨['a'], rfl⟩
      exact not_suffix_append hdigits (not_suffix_toString _) (hg.trans hsuffix)
  | flag text =>
      change ¬_ <:+ (_ ++ text ++ ": provided string was not `true` or `false`").toList
      rw [String.toList_append]
      exact not_suffix_append (by decide) (by decide)
  | time text why =>
      change ¬_ <:+ ("error parsing time " ++ text ++ ": " ++ why.message).toList
      rw [String.toList_append]
      cases why <;> exact not_suffix_append (by decide) (by decide)

/-- A value that cannot be read is not reported with a text that ends like the word “flag”. -/
theorem failure_ne_of_suffix (v : ValueFault) {f : Failure} (h : ['a', 'g'] <:+ f.detail.toList) :
    v.failure ≠ f := by
  rintro rfl
  exact v.not_suffix_message h

/-- A failure that a result was given for a value is that of a value that cannot be read. -/
theorem exists_of_mapError {α : Type} {result : Except ValueFault α} {f : Failure}
    (h : result.mapError (·.failure) = .error f) : ∃ v : ValueFault, f = v.failure := by
  cases result with
  | error v =>
      cases h
      exact ⟨v, rfl⟩
  | ok a => cases h

end ValueFault

/-- A flag that is not of the kind that was asked for. -/
inductive RequestFault.IsMismatch : RequestFault → Prop
  | notVariant (flag : String) : IsMismatch (.notVariant flag)
  | notBoolean (flag : String) : IsMismatch (.notBoolean flag)

/-- A value that cannot be read is not reported like a flag of the wrong kind. -/
theorem ValueFault.failure_ne (v : ValueFault) {m : RequestFault} (hm : m.IsMismatch) :
    v.failure ≠ m.failure := by
  apply v.failure_ne_of_suffix
  cases hm with
  | notVariant flag =>
      change _ <:+ (flag ++ " is not a variant flag").toList
      rw [String.toList_append]
      exact .trans (by decide) (List.suffix_append _ _)
  | notBoolean flag =>
      change _ <:+ (flag ++ " is not a boolean flag").toList
      rw [String.toList_append]
      exact .trans (by decide) (List.suffix_append _ _)

namespace Evaluator

/-- What makes a request of a batch fail is a value that cannot be read. -/
theorem exists_of_entry {e : Evaluator} {request : Request} {f : Failure}
    (h : e.entry request = .error f) : ∃ v : ValueFault, f = v.failure := by
  rw [entry] at h
  split at h
  · cases h
  · split at h
    · exact ValueFault.exists_of_mapError h
    · exact ValueFault.exists_of_mapError h

/-- What makes a batch fail is a value that cannot be read. -/
theorem exists_of_entries {e : Evaluator} {requests : List Request} {f : Failure}
    (h : e.entries requests = .error f) : ∃ v : ValueFault, f = v.failure := by
  induction requests with
  | nil => cases h
  | cons r rs ih =>
      cases hentry : e.entry r with
      | error f' =>
          rw [entries, hentry] at h
          cases h
          exact exists_of_entry hentry
      | ok a => exact ih ((entries_cons_eq_error hentry rs f).mp h)

end Evaluator

/-! ### What an entry shows -/

/-- The member with a name in the text of an entry. -/
def Entry.member? (a : Entry) (stamp : Stamp) (name : String) : Option Value :=
  match a.toJson stamp with
  | .object members => members.lookup name
  | _ => none

/-- The text of an entry says what it holds, and has these answers of the three kinds. -/
structure Entry.Shows (a : Entry) (stamp : Stamp) (kind : ResponseKind)
    (boolean variant missing : Option Value) : Prop where
  kind : a.member? stamp "type" = some (.string kind.name)
  boolean : a.member? stamp "boolean_evaluation_response" = boolean
  variant : a.member? stamp "variant_evaluation_response" = variant
  missing : a.member? stamp "error_evaluation_response" = missing

/-- An entry shows the result of a request: that of the operation for the kind of its flag, or that there
is no such flag; and it shows nothing else, whatever a clock shows. -/
inductive Evaluator.Carries (e : Evaluator) (request : Request) (a : Entry) : Prop
  | missing : e.get? request.flag = none →
      (∀ stamp, a.Shows stamp .error none none
        (some (Missing.toJson ⟨request.flag, e.space, .notFound⟩))) →
      Carries e request a
  | boolean {f : CompiledFlag} {answer : BooleanAnswer} :
      e.get? request.flag = some f → f.info.kind = .boolean → e.boolean request = .ok answer →
      (∀ stamp, a.Shows stamp .boolean (some (answer.toJson stamp)) none none) →
      Carries e request a
  | variant {f : CompiledFlag} {answer : VariantAnswer} :
      e.get? request.flag = some f → f.info.kind = .variant → e.variant request = .ok answer →
      (∀ stamp, a.Shows stamp .variant none (some (answer.toJson stamp)) none) →
      Carries e request a

/-- An answer makes the entry of its kind. -/
theorem Entry.exists_of_map {α : Type} {result : Except Failure α} {entry : α → Entry} {a : Entry}
    (h : result.map entry = .ok a) : ∃ answer, result = .ok answer ∧ entry answer = a := by
  cases result with
  | error f => cases h
  | ok answer =>
      cases h
      exact ⟨answer, rfl, rfl⟩

/-- What a request gets on its own shows its result. -/
theorem Evaluator.carries_of_single {e : Evaluator} {request : Request} {a : Entry}
    (h : e.single request = .ok a) : e.Carries request a := by
  rw [single] at h
  split at h
  · next hget =>
      cases h
      exact .missing hget fun _ => ⟨rfl, rfl, rfl, rfl⟩
  · next f hget =>
      split at h
      · next hkind =>
          obtain ⟨answer, hanswer, rfl⟩ := Entry.exists_of_map h
          exact .boolean hget hkind hanswer fun _ => ⟨rfl, rfl, rfl, rfl⟩
      · next hkind =>
          obtain ⟨answer, hanswer, rfl⟩ := Entry.exists_of_map h
          exact .variant hget hkind hanswer fun _ => ⟨rfl, rfl, rfl, rfl⟩

/-! ### Batches -/

namespace Evaluator

/-- Without an error, a batch has the entries of its requests. -/
theorem batch_eq_entries {e : Evaluator} (herror : e.error = none) (requests : List Request) :
    e.batch requests = e.entries requests := by
  rw [batch, unlessFailed, herror]

/-- **A batch agrees with the operations for single flags.**  It answers with the error that the evaluator
holds.  If it holds none, the batch has the first failure among what its requests get on their own, or an
entry for each of them with just that; a missing flag changes nothing about its failure, which is never
that of a flag of the wrong kind. -/
theorem batch_agrees (e : Evaluator) (requests : List Request) :
    (∀ f, e.error = some f → e.batch requests = .error f) ∧
      (e.error = none →
        (∀ request f, First e.Refuses request requests → e.single request = .error f →
          e.batch requests = .error f) ∧
        ((∀ request ∈ requests, ¬e.Refuses request) →
          ∃ as, e.batch requests = .ok as ∧ List.Forall₂ e.Carries requests as) ∧
        (∀ f, e.batch requests = .error f ↔
          e.batch (requests.filter fun r => (e.get? r.flag).isSome) = .error f) ∧
        ∀ m : RequestFault, m.IsMismatch → e.batch requests ≠ .error m.failure) := by
  constructor
  · intro f herror
    rw [batch, unlessFailed, herror]
  · intro herror
    simp only [batch_eq_entries herror]
    refine ⟨?_, ?_, ?_, ?_⟩
    · intro request f hfirst hf
      exact entries_of_first herror hfirst hf
    · intro h
      obtain ⟨as, has⟩ := exists_forall₂ h
      have hcarries : List.Forall₂ e.Carries requests as := has.imp fun _ _ ha => carries_of_single ha
      exact ⟨as, entries_of_forall₂ herror has, hcarries⟩
    · exact e.entries_filter requests
    · intro m hm hfailed
      obtain ⟨v, hv⟩ := exists_of_entries hfailed
      exact v.failure_ne hm hv.symm

/-- A batch for a boolean flag, a missing one and a variant flag, and one that meets a value that cannot
be read behind a missing flag. -/
theorem batch_agrees_mixed :
    let beta : Segment := ⟨"beta", .all, [⟨.boolean, "beta", "true", ""⟩]⟩
    let rollout : Rollout := ⟨none, some ⟨.or, false, [beta]⟩, none⟩
    let shop : Flag := ⟨"shop", "", .boolean, none, true, [], [rollout], none⟩
    let theme : Flag := ⟨"theme", "", .variant, none, false, [], [], none⟩
    let e : Evaluator := ⟨"ns", .ofDocument ⟨⟨"ns", none⟩, [shop, theme]⟩, none⟩
    let ask (flag beta : String) : Request := ⟨flag, ⟨"user", ⟨[("beta", beta)]⟩⟩⟩
    e.error = none ∧
      (∀ request ∈ [ask "shop" "true", ask "gone" "yes", ask "theme" "yes"], ¬e.Refuses request) ∧
      (∃ as, e.batch [ask "shop" "true", ask "gone" "yes", ask "theme" "yes"] = .ok as ∧
        List.Forall₂ e.Carries [ask "shop" "true", ask "gone" "yes", ask "theme" "yes"] as) ∧
      First e.Refuses (ask "shop" "yes") [ask "gone" "yes", ask "shop" "yes", ask "shop" "true"] ∧
      e.batch [ask "gone" "yes", ask "shop" "yes", ask "shop" "true"] =
        .error (ValueFault.flag "yes").failure := by
  intro beta rollout shop theme e ask
  have hsingle : e.single (ask "shop" "true") = .ok (.boolean ⟨false, "shop", .matched⟩) ∧
      e.single (ask "gone" "yes") = .ok (.missing ⟨"gone", "ns", .notFound⟩) ∧
      e.single (ask "theme" "yes") = .ok (.variant ⟨false, [], .flagDisabled, "theme", "", ""⟩) ∧
      e.single (ask "shop" "yes") = .error (ValueFault.flag "yes").failure := by
    decide +kernel
  obtain ⟨hshop, hgone, htheme, hfailed⟩ := hsingle
  have hgrants : ∀ {r a}, e.single r = .ok a → ¬e.Refuses r := by
    rintro r a ha ⟨f, hf⟩
    simp [ha] at hf
  have hnone : ∀ request ∈ [ask "shop" "true", ask "gone" "yes", ask "theme" "yes"],
      ¬e.Refuses request := by
    intro request hrequest
    simp only [List.mem_cons, List.not_mem_nil, or_false] at hrequest
    obtain rfl | rfl | rfl := hrequest
    · exact hgrants hshop
    · exact hgrants hgone
    · exact hgrants htheme
  have hfirst : First e.Refuses (ask "shop" "yes")
      [ask "gone" "yes", ask "shop" "yes", ask "shop" "true"] :=
    .later (hgrants hgone) (.here ⟨_, hfailed⟩)
  exact ⟨rfl, hnone, ((batch_agrees e _).2 rfl).2.1 hnone, hfirst,
    ((batch_agrees e _).2 rfl).1 _ _ hfirst hfailed⟩

end Evaluator

end FeatureFlags
