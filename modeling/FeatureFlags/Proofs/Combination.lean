/-
**What the segments of a combination come to.**

Other than constraints, segments are never left out: every one of them is evaluated, also when one before
it has settled the combination.  So a segment that is a fault makes the whole combination this fault, and
of several faults the first one counts.  Without a fault the combination is said by quantifiers over the
segments.  The disjunction keeps the keys of those that select, in the order of the segments, and the
conjunction all keys; so over no segments at all the one does not hold, and the other holds with no keys.

The quantifiers do not look at the order of the segments, and so neither does the outcome, up to the order
of the keys.

Main definitions:

* `SegmentOperator.Reading` — **the outcome of a combination**, with one case for each way to come to it.

Main results:

* `SegmentOperator.combine?_eq_iff_reading` — a combination comes to what its reading says;
* `SegmentOperator.exists_error_iff` — it is a fault exactly if one of its segments is;
* `SegmentOperator.exists_keys_of_perm` — without faults the order of the segments does not matter;
* `SegmentOperator.combines_all` — **all segments of a combination are evaluated, in any order.**
-/
import FeatureFlags.Proofs.Matching

set_option autoImplicit false

namespace FeatureFlags

/-- A segment that is no fault and does not select is one that refuses. -/
theorem Segment.selects_eq_false {e : Entity} {s : Segment} (h : ¬s.IsFault e)
    (hs : s.selects e ≠ .ok true) : s.selects e = .ok false := by
  obtain ⟨b, hb⟩ := ok_of_not_isFault h
  cases b with
  | false => exact hb
  | true => exact absurd hb hs

/-- A segment with an outcome is no fault. -/
theorem Segment.not_isFault {e : Entity} {s : Segment} {b : Bool} (h : s.selects e = .ok b) :
    ¬s.IsFault e := by
  rintro ⟨f, hf⟩
  rw [h] at hf
  cases hf

namespace SegmentOperator

/-- The keys of the segments that select an entity, in the order of the segments. -/
def selected (ss : List Segment) (e : Entity) : List String :=
  (ss.filter fun s => s.selects e = .ok true).map (·.key)

/-- What some segments come to for an entity under an operator.  The first segment that is a fault decides,
wherever it stands; without one, it is looked at which segments select. -/
inductive Reading (ss : List Segment) (e : Entity) :
    SegmentOperator → Except ValueFault (Option (List String)) → Prop
  | fault {o : SegmentOperator} {s : Segment} {f : ValueFault} :
      First (Segment.IsFault e) s ss → s.selects e = .error f → Reading ss e o (.error f)
  | someSelects : (∀ s ∈ ss, ¬s.IsFault e) → (∃ s ∈ ss, s.selects e = .ok true) →
      Reading ss e .or (.ok (some (selected ss e)))
  | noneSelects : (∀ s ∈ ss, s.selects e = .ok false) → Reading ss e .or (.ok none)
  | allSelect : (∀ s ∈ ss, s.selects e = .ok true) →
      Reading ss e .and (.ok (some (ss.map (·.key))))
  | oneRefuses : (∀ s ∈ ss, ¬s.IsFault e) → (∃ s ∈ ss, s.selects e = .ok false) →
      Reading ss e .and (.ok none)

variable {o : SegmentOperator} {ss : List Segment} {e : Entity}

/-- If all segments select, their keys are those of all segments. -/
theorem selected_of_all (h : ∀ s ∈ ss, s.selects e = .ok true) : selected ss e = ss.map (·.key) := by
  have hall : ∀ s ∈ ss, decide (s.selects e = .ok true) = true := by
    intro s hs
    exact decide_eq_true (h s hs)
  rw [selected, List.filter_eq_self.2 hall]

/-- Every combination has a reading. -/
theorem exists_reading (o : SegmentOperator) (ss : List Segment) (e : Entity) :
    ∃ r, Reading ss e o r := by
  rcases First.exists_or_none (Segment.IsFault e) ss with ⟨s, hs⟩ | hsound
  · obtain ⟨f, hf⟩ := hs.holds
    exact ⟨_, .fault hs hf⟩
  · cases o with
    | or =>
        by_cases hsome : ∃ s ∈ ss, s.selects e = .ok true
        · exact ⟨_, .someSelects hsound hsome⟩
        · refine ⟨_, .noneSelects fun s hs => ?_⟩
          exact Segment.selects_eq_false (hsound s hs) fun htrue => hsome ⟨s, hs, htrue⟩
    | and =>
        by_cases hall : ∀ s ∈ ss, s.selects e = .ok true
        · exact ⟨_, .allSelect hall⟩
        · simp only [not_forall] at hall
          obtain ⟨s, hs, hne⟩ := hall
          exact ⟨_, .oneRefuses hsound ⟨s, hs, Segment.selects_eq_false (hsound s hs) hne⟩⟩

/-- A combination comes to what a reading of its segments says. -/
theorem combine?_of_reading {r : Except ValueFault (Option (List String))} (h : Reading ss e o r) :
    o.combine? ss e = r := by
  cases h with
  | fault hfirst hf => exact combine?_of_fails ⟨_, hfirst, hf⟩
  | someSelects hsound hsome => exact combine?_of_holds ⟨hsound, hsome, rfl⟩
  | noneSelects hnone =>
      refine combine?_of_passes ⟨fun s hs => Segment.not_isFault (hnone s hs), ?_⟩
      rintro ⟨s, hs, htrue⟩
      rw [hnone s hs] at htrue
      cases htrue
  | allSelect hall =>
      have hsound : ∀ s ∈ ss, ¬s.IsFault e := fun s hs => Segment.not_isFault (hall s hs)
      exact combine?_of_holds ⟨hsound, hall, (selected_of_all hall).symm⟩
  | oneRefuses hsound hone =>
      refine combine?_of_passes ⟨hsound, fun hall => ?_⟩
      obtain ⟨s, hs, hfalse⟩ := hone
      rw [hall s hs] at hfalse
      cases hfalse

/-- **A combination comes to what the reading of its segments says**, and to nothing else. -/
theorem combine?_eq_iff_reading (r : Except ValueFault (Option (List String))) :
    o.combine? ss e = r ↔ Reading ss e o r := by
  constructor
  · rintro rfl
    obtain ⟨r, hr⟩ := exists_reading o ss e
    rwa [combine?_of_reading hr]
  · exact combine?_of_reading

/-- A combination is a fault exactly if one of its segments is, under either operator. -/
theorem exists_error_iff : (∃ f, o.combine? ss e = .error f) ↔ ∃ s ∈ ss, s.IsFault e := by
  constructor
  · rintro ⟨f, hf⟩
    cases (combine?_eq_iff_reading _).1 hf with
    | fault hfirst _ => exact ⟨_, hfirst.mem, hfirst.holds⟩
  · rintro ⟨s, hs, hfault⟩
    obtain ⟨t, ht⟩ := First.exists_of_mem hs hfault
    obtain ⟨f, hf⟩ := ht.holds
    exact ⟨f, combine?_of_reading (.fault ht hf)⟩

/-- Without faults, a combination that holds also holds in another order, and the keys are put in another
order with the segments. -/
theorem exists_keys_of_perm {ts : List Segment} {keys : List String} (hperm : ts.Perm ss)
    (h : o.combine? ss e = .ok (some keys)) :
    ∃ keys', o.combine? ts e = .ok (some keys') ∧ keys'.Perm keys := by
  cases (combine?_eq_iff_reading _).1 h with
  | someSelects hsound hsome =>
      obtain ⟨s, hs, htrue⟩ := hsome
      have hsound' : ∀ s ∈ ts, ¬s.IsFault e := fun s hs => hsound s (hperm.mem_iff.1 hs)
      refine ⟨selected ts e, combine?_of_reading (.someSelects hsound' ⟨s, hperm.mem_iff.2 hs, htrue⟩), ?_⟩
      exact (hperm.filter _).map _
  | allSelect hall =>
      have hall' : ∀ s ∈ ts, s.selects e = .ok true := fun s hs => hall s (hperm.mem_iff.1 hs)
      exact ⟨_, combine?_of_reading (.allSelect hall'), hperm.map _⟩

/-- Without faults, a combination that does not hold is one whose demand is not met. -/
theorem combine?_eq_none_iff (hsound : ∀ s ∈ ss, ¬s.IsFault e) :
    o.combine? ss e = .ok none ↔ ¬o.Demand ss e := by
  constructor
  · intro hnone hdemand
    rw [combine?_of_holds ⟨hsound, hdemand, rfl⟩] at hnone
    cases hnone
  · intro hdemand
    exact combine?_of_passes ⟨hsound, hdemand⟩

/-- What an operator asks of some segments it asks of them in any order. -/
theorem demand_iff_of_perm {ts : List Segment} (hperm : ts.Perm ss) :
    o.Demand ts e ↔ o.Demand ss e := by
  cases o with
  | or => simp only [Demand, hperm.mem_iff]
  | and => simp only [Demand, hperm.mem_iff]

/-- **All segments of a combination are evaluated, and in any order.**  The combination comes to what its
reading says, and it is a fault exactly if some segment is.  If none is, the same segments in another order
do not hold either where these do not, and where these hold they hold with the same keys, which then are in
another order too. -/
theorem combines_all (o : SegmentOperator) (ss : List Segment) (e : Entity) :
    (∀ r, o.combine? ss e = r ↔ Reading ss e o r) ∧
      ((∃ f, o.combine? ss e = .error f) ↔ ∃ s ∈ ss, s.IsFault e) ∧
      ∀ ts : List Segment, ts.Perm ss → (∀ s ∈ ss, ¬s.IsFault e) →
        (o.combine? ts e = .ok none ↔ o.combine? ss e = .ok none) ∧
          ∀ keys, o.combine? ss e = .ok (some keys) →
            ∃ keys', o.combine? ts e = .ok (some keys') ∧ keys'.Perm keys := by
  refine ⟨combine?_eq_iff_reading, exists_error_iff, fun ts hperm hsound => ⟨?_, ?_⟩⟩
  · have hsound' : ∀ s ∈ ts, ¬s.IsFault e := fun s hs => hsound s (hperm.mem_iff.1 hs)
    rw [combine?_eq_none_iff hsound', combine?_eq_none_iff hsound, demand_iff_of_perm hperm]
  · intro keys hkeys
    exact exists_keys_of_perm hperm hkeys

/-- A fault behind a segment that selects is the outcome of a disjunction; for another entity, of which
nothing is a fault, the disjunction holds in both orders, with one key. -/
theorem combines_all_late :
    let everyone : Segment := ⟨"everyone", .all, []⟩
    let adults : Segment := ⟨"adults", .all, [⟨.number, "age", "gte", "18"⟩]⟩
    let strange : Entity := ⟨"e", ⟨[("age", "old")]⟩⟩
    let child : Entity := ⟨"e", ⟨[("age", "7")]⟩⟩
    Reading [everyone, adults] strange .or (.error (.number "old" .malformed)) ∧
      (∀ s ∈ [everyone, adults], ¬s.IsFault child) ∧ [adults, everyone].Perm [everyone, adults] ∧
      ∃ keys, SegmentOperator.or.combine? [adults, everyone] child = .ok (some keys) ∧
        keys.Perm ["everyone"] := by
  intro everyone adults strange child
  have hfault : SegmentOperator.or.combine? [everyone, adults] strange =
      .error (.number "old" .malformed) := by decide +kernel
  have hone : SegmentOperator.or.combine? [everyone, adults] child = .ok (some ["everyone"]) := by
    decide +kernel
  have hsound : ∀ s ∈ [everyone, adults], ¬s.IsFault child := by
    intro s hs hfault
    obtain ⟨f, hf⟩ := exists_error_iff.2 ⟨s, hs, hfault⟩
    rw [hone] at hf
    cases hf
  have hperm : [adults, everyone].Perm [everyone, adults] := List.Perm.swap ..
  obtain ⟨hreading, -, -⟩ := combines_all .or [everyone, adults] strange
  obtain ⟨-, -, horder⟩ := combines_all .or [everyone, adults] child
  exact ⟨(hreading _).1 hfault, hsound, hperm, (horder _ hperm hsound).2 _ hone⟩

end SegmentOperator

end FeatureFlags
