/-
**Who can get a failure.**

A constraint can only be a fault if it has to read a value that is not empty: whether a value is there can
be told without reading it, and texts are compared as they are.  What stands in the document is read after
the value of the entity, so nothing in the document is a fault on its own.  A fault of a flag is one of a
constraint, so whoever sends no value that has to be read gets an answer, however the document is written.

Main definitions:

* `Constraint.Reads` — a constraint that has to read a value;
* `Flag.Risks` — **a request that gives a flag a value to read**;
* `Context.Silent` — properties of which none has a value.

Main results:

* `Constraint.reads_of_holds` — when a constraint is a fault;
* `Flag.risks_of_variant`, `Flag.risks_of_boolean` — when a flag is one;
* `Evaluator.fails_only_at_risk` — **who sends no value that has to be read gets an answer.**
-/
import FeatureFlags.Proofs.Influence

set_option autoImplicit false

namespace FeatureFlags

/-! ### Values that have to be read -/

/-- The constraint has to read the value of the property that it names: more is asked than whether it is
there. -/
def Constraint.Reads (c : Constraint) : Prop :=
  (c.kind = .number ∨ c.kind = .boolean ∨ c.kind = .datetime) ∧
    c.operator ≠ "present" ∧ c.operator ≠ "notpresent"

/-- A request gives a value to a property that a constraint of the flag has to read. -/
def Flag.Risks (f : Flag) (request : Request) : Prop :=
  ∃ c ∈ f.constraints, c.Reads ∧ request.entity.context.value c.property ≠ ""

/-- No property has a value that is not empty. -/
def Context.Silent (c : Context) : Prop := ∀ p, c.value p = ""

/-- Properties of which all were given an empty value have none. -/
theorem Context.silent_of_entries {c : Context} (h : ∀ x ∈ c.entries, x.2 = "") : c.Silent := by
  intro p
  rw [value, value?]
  cases hlookup : c.entries.lookup p with
  | none => rfl
  | some v =>
      obtain ⟨before, after, hentries, -⟩ := List.lookup_eq_some_iff.1 hlookup
      exact h (p, v) (by simp [hentries])

/-- Who sends no values risks nothing. -/
theorem Context.Silent.not_risks {r : Request} (h : r.entity.context.Silent) (f : Flag) : ¬f.Risks r := by
  rintro ⟨c, -, -, hvalue⟩
  exact hvalue (h c.property)

/-! ### Where a fault comes from -/

namespace Constraint

/-- A value is read only if it is not empty, and if more is asked than whether it is there. -/
theorem of_readHolds {operator v : String} {test : Except ValueFault Bool} {x : ValueFault}
    (h : readHolds operator v test = .error x) :
    operator ≠ "present" ∧ operator ≠ "notpresent" ∧ v ≠ "" := by
  rw [readHolds] at h
  split at h
  · cases h
  · next hpresence =>
      split at h
      · cases h
      · next hempty =>
          refine ⟨?_, ?_, fun hv => hempty (by rw [hv]; rfl)⟩
          · rintro rfl
            cases hpresence
          · rintro rfl
            cases hpresence

/-- **A constraint is a fault only if it has to read a value that is not empty.** -/
theorem reads_of_holds {c : Constraint} {e : Entity} {x : ValueFault} (h : c.holds e = .error x) :
    c.Reads ∧ e.context.value c.property ≠ "" := by
  rw [holds] at h
  cases hkind : c.kind with
  | string => simp [hkind] at h
  | number =>
      simp only [hkind, subject] at h
      obtain ⟨hpresent, hnot, hvalue⟩ := of_readHolds h
      exact ⟨⟨.inl hkind, hpresent, hnot⟩, hvalue⟩
  | boolean =>
      simp only [hkind, subject] at h
      obtain ⟨hpresent, hnot, hvalue⟩ := of_readHolds h
      exact ⟨⟨.inr (.inl hkind), hpresent, hnot⟩, hvalue⟩
  | datetime =>
      simp only [hkind, subject] at h
      obtain ⟨hpresent, hnot, hvalue⟩ := of_readHolds h
      exact ⟨⟨.inr (.inr hkind), hpresent, hnot⟩, hvalue⟩
  | entity => simp [hkind] at h
  | unknown => simp [hkind] at h

end Constraint

/-- The fault of a scan is that of a constraint. -/
theorem MatchType.exists_of_scan {t : MatchType} {e : Entity} {cs : List Constraint} {x : ValueFault}
    (h : t.scan e cs = .error x) : ∃ c ∈ cs, c.holds e = .error x := by
  rcases First.exists_or_none (Constraint.Decides t e) cs with ⟨c, hc⟩ | hnone
  · rw [scan_of_first hc] at h
    exact ⟨c, hc.mem, h⟩
  · rw [scan_of_none hnone] at h
    cases h

/-- The fault of a segment is that of a constraint. -/
theorem Segment.exists_of_selects {s : Segment} {e : Entity} {x : ValueFault}
    (h : s.selects e = .error x) : ∃ c ∈ s.constraints, c.holds e = .error x := by
  rw [selects, MatchType.accepts] at h
  split at h
  · cases h
  · exact MatchType.exists_of_scan h

/-- The fault of a combination of segments is that of a constraint. -/
theorem SegmentOperator.exists_of_combine? {o : SegmentOperator} {ss : List Segment} {e : Entity}
    {x : ValueFault} (h : o.combine? ss e = .error x) :
    ∃ s ∈ ss, ∃ c ∈ s.constraints, c.holds e = .error x := by
  rcases o.fails_or_holds_or_passes ss e with ⟨y, hfails⟩ | ⟨keys, hholds⟩ | hpasses
  · rw [combine?_of_fails hfails] at h
    cases h
    obtain ⟨s, hs, hselects⟩ := hfails
    exact ⟨s, hs.mem, Segment.exists_of_selects hselects⟩
  · rw [combine?_of_holds hholds] at h
    cases h
  · rw [combine?_of_passes hpasses] at h
    cases h

namespace FlagInfo

variable {i : FlagInfo} {request : Request} {x : ValueFault}

/-- The fault of some rules is that of the segments of one of them. -/
theorem exists_of_byRules {rs : List Rule} {k : ℕ}
    (h : i.byRules request (rankFrom k rs) = .error x) :
    ∃ r ∈ rs, r.operator.combine? r.segments request.entity = .error x := by
  induction rs generalizing k with
  | nil => cases h
  | cons r rs ih =>
      rw [rankFrom, byRules] at h
      split at h
      · next y hcombine =>
          cases h
          exact ⟨r, List.mem_cons_self .., hcombine⟩
      · obtain ⟨q, hq, hcombine⟩ := ih h
        exact ⟨q, List.mem_cons_of_mem _ hq, hcombine⟩
      · cases h

/-- The fault of some rollouts is that of the effect of one of them. -/
theorem exists_of_byRollouts {es : List Effect} {k : ℕ}
    (h : i.byRollouts request (rankFrom k es) = .error x) :
    ∃ y ∈ es, y.value? request = .error x := by
  induction es generalizing k with
  | nil => cases h
  | cons y es ih =>
      rw [rankFrom, byRollouts] at h
      split at h
      · next z hvalue =>
          cases h
          exact ⟨y, List.mem_cons_self .., hvalue⟩
      · obtain ⟨q, hq, hvalue⟩ := ih h
        exact ⟨q, List.mem_cons_of_mem _ hq, hvalue⟩
      · cases h

end FlagInfo

/-- The fault of a rollout is that of its segments. -/
theorem Rollout.exists_of_value? {r : Rollout} {request : Request} {x : ValueFault}
    (h : r.effect.value? request = .error x) :
    ∃ o, r.segment = some o ∧ o.operator.combine? o.segments request.entity = .error x := by
  rw [effect] at h
  cases hthreshold : r.threshold with
  | some t => simp [hthreshold, Effect.value?] at h
  | none =>
      cases hsegment : r.segment with
      | none => simp [hthreshold, hsegment, Effect.value?] at h
      | some o =>
          simp only [hthreshold, hsegment, Effect.value?] at h
          split at h
          · next y hcombine =>
              cases h
              exact ⟨o, rfl, hcombine⟩
          · cases h

namespace Flag

variable {f : Flag} {request : Request} {x : ValueFault}

/-- A constraint of a flag that is a fault makes the request one at risk. -/
theorem risks_of_holds {c : Constraint} (hc : c ∈ f.constraints)
    (h : c.holds request.entity = .error x) : f.Risks request :=
  ⟨c, hc, Constraint.reads_of_holds h⟩

/-- A variant flag is a fault only if it has a value to read. -/
theorem risks_of_variant (h : f.compile.variant request = .error x) : f.Risks request := by
  have hrules : f.compile.rules = rankFrom 1 f.rules := rfl
  rw [CompiledFlag.variant, hrules] at h
  split at h
  · obtain ⟨r, hr, hcombine⟩ := FlagInfo.exists_of_byRules h
    obtain ⟨s, hs, c, hc, hholds⟩ := SegmentOperator.exists_of_combine? hcombine
    exact risks_of_holds (mem_constraints_of_rule hr hs hc) hholds
  · cases h

/-- A boolean flag is a fault only if it has a value to read. -/
theorem risks_of_boolean (h : f.compile.boolean request = .error x) : f.Risks request := by
  have hrollouts : f.compile.rollouts = rankFrom 1 (f.rollouts.map (·.effect)) := rfl
  rw [CompiledFlag.boolean, hrollouts] at h
  obtain ⟨y, hy, hvalue⟩ := FlagInfo.exists_of_byRollouts h
  obtain ⟨r, hr, rfl⟩ := List.mem_map.1 hy
  obtain ⟨o, ho, hcombine⟩ := Rollout.exists_of_value? hvalue
  obtain ⟨s, hs, c, hc, hholds⟩ := SegmentOperator.exists_of_combine? hcombine
  exact risks_of_holds (mem_constraints_of_rollout hr ho hs hc) hholds

end Flag

/-! ### Evaluators -/

namespace Evaluator

variable {e : Evaluator} {d : Document}

/-- A request of a batch fails only if its flag has a value to read. -/
theorem risks_of_entry (h : e.Serves d) {r : Request} {x : Failure} (hentry : e.entry r = .error x) :
    ∃ f ∈ d.flags, f.key = r.flag ∧ f.Risks r := by
  rw [entry] at hentry
  split at hentry
  · cases hentry
  · next g hget =>
      obtain ⟨f, hf, rfl, hkey⟩ := Snapshot.exists_of_get? h.built hget
      refine ⟨f, hf, hkey, ?_⟩
      split at hentry
      · cases hboolean : f.compile.boolean r with
        | error v => exact Flag.risks_of_boolean hboolean
        | ok a =>
            rw [hboolean] at hentry
            cases hentry
      · cases hvariant : f.compile.variant r with
        | error v => exact Flag.risks_of_variant hvariant
        | ok a =>
            rw [hvariant] at hentry
            cases hentry

/-- A batch fails only if the flag of one of its requests has a value to read. -/
theorem risks_of_entries (h : e.Serves d) {rs : List Request} {x : Failure}
    (hentries : e.entries rs = .error x) :
    ∃ r ∈ rs, ∃ f ∈ d.flags, f.key = r.flag ∧ f.Risks r := by
  induction rs with
  | nil => cases hentries
  | cons r rs ih =>
      cases hentry : e.entry r with
      | error y => exact ⟨r, List.mem_cons_self .., risks_of_entry h hentry⟩
      | ok a =>
          obtain ⟨q, hq, hrisks⟩ := ih ((entries_cons_eq_error hentry rs x).1 hentries)
          exact ⟨q, List.mem_cons_of_mem _ hq, hrisks⟩

/-- A batch that fails has a request whose flag has a value to read. -/
theorem risks_of_batch (h : e.Serves d) {rs : List Request} {x : Failure} (hbatch : e.batch rs = .error x) :
    ∃ r ∈ rs, ∃ f ∈ d.flags, f.key = r.flag ∧ f.Risks r := by
  rw [batch_eq_entries h.sound] at hbatch
  exact risks_of_entries h hbatch

section

variable {f : Flag} {r : Request} {x : Failure} (h : e.Serves d) (hf : f ∈ d.flags) (hkey : f.key = r.flag)
include h hf hkey

/-- The variant of a flag fails only if the flag has a value to read. -/
theorem risks_of_variant (hkind : f.kind = .variant) (hvariant : e.variant r = .error x) :
    f.Risks r := by
  rw [variant_of_serves h hf hkey hkind] at hvariant
  cases hcompiled : f.compile.variant r with
  | error v => exact Flag.risks_of_variant hcompiled
  | ok a =>
      rw [hcompiled] at hvariant
      cases hvariant

/-- The value of a flag fails only if the flag has a value to read. -/
theorem risks_of_boolean (hkind : f.kind = .boolean) (hboolean : e.boolean r = .error x) :
    f.Risks r := by
  rw [boolean_of_serves h hf hkey hkind] at hboolean
  cases hcompiled : f.compile.boolean r with
  | error v => exact Flag.risks_of_boolean hcompiled
  | ok a =>
      rw [hcompiled] at hboolean
      cases hboolean

end

/-- **Who sends no value that has to be read gets an answer.**  Only a request that gives its flag a value
to read can fail, on its own or in a batch; one without values never fails, whatever it is about and
however the document is written. -/
theorem fails_only_at_risk (h : e.Serves d) :
    (∀ f ∈ d.flags, ∀ r : Request, f.key = r.flag →
        (f.kind = .variant → ∀ x, e.variant r = .error x → f.Risks r) ∧
          (f.kind = .boolean → ∀ x, e.boolean r = .error x → f.Risks r)) ∧
      (∀ rs x, e.batch rs = .error x → ∃ r ∈ rs, ∃ f ∈ d.flags, f.key = r.flag ∧ f.Risks r) ∧
      (∀ f ∈ d.flags, ∀ r : Request, f.key = r.flag → r.entity.context.Silent →
        (f.kind = .variant → ∃ a, e.variant r = .ok a) ∧
          (f.kind = .boolean → ∃ a, e.boolean r = .ok a)) ∧
      ∀ rs, (∀ r ∈ rs, r.entity.context.Silent) → ∃ as, e.batch rs = .ok as := by
  refine ⟨fun f hf r hkey => ⟨fun hkind x => risks_of_variant h hf hkey hkind,
      fun hkind x => risks_of_boolean h hf hkey hkind⟩, fun rs x => risks_of_batch h,
    fun f hf r hkey hsilent => ⟨fun hkind => ?_, fun hkind => ?_⟩, fun rs hsilent => ?_⟩
  · cases hx : e.variant r with
    | ok a => exact ⟨a, rfl⟩
    | error x => exact absurd (risks_of_variant h hf hkey hkind hx) (hsilent.not_risks f)
  · cases hx : e.boolean r with
    | ok a => exact ⟨a, rfl⟩
    | error x => exact absurd (risks_of_boolean h hf hkey hkind hx) (hsilent.not_risks f)
  · cases hx : e.batch rs with
    | ok as => exact ⟨as, rfl⟩
    | error x =>
        obtain ⟨r, hr, f, -, -, hrisks⟩ := risks_of_batch h hx
        exact absurd hrisks ((hsilent r hr).not_risks f)

/-- A constraint against what is no number: a request with a value fails, and one whose value is empty gets
an answer. -/
theorem fails_only_at_risk_malformed :
    let old : Segment := ⟨"old", .all, [⟨.number, "age", "gt", "old"⟩]⟩
    let f : Flag := ⟨"f", "F", .boolean, none, true, [], [⟨none, some ⟨.or, false, [old]⟩, none⟩], none⟩
    let d : Document := ⟨⟨"", none⟩, [f]⟩
    let e : Evaluator := ⟨"ns", .ofDocument ⟨⟨"ns", none⟩, [f]⟩, none⟩
    let risky : Request := ⟨"f", ⟨"e", ⟨[("age", "42")]⟩⟩⟩
    let silent : Request := ⟨"f", ⟨"e", ⟨[("age", "")]⟩⟩⟩
    e.Serves d ∧ (∃ x, e.boolean risky = .error x) ∧ f.Risks risky ∧
      (∃ a, e.boolean silent = .ok a) ∧ ∃ as, e.batch [silent, silent] = .ok as := by
  intro old f d e risky silent
  have hserves : e.Serves d := ⟨by decide +kernel, Or.inl rfl, rfl⟩
  have hf : f ∈ d.flags := List.mem_singleton_self f
  have hfails : e.boolean risky = .error (ValueFault.number "old" .malformed).failure := by
    decide +kernel
  have hsilent : silent.entity.context.Silent := by
    apply Context.silent_of_entries
    intro x hx
    rw [List.mem_singleton.1 hx]
  obtain ⟨hrisks, -, hanswers, hbatch⟩ := fails_only_at_risk hserves
  refine ⟨hserves, ⟨_, hfails⟩, (hrisks f hf risky rfl).2 rfl _ hfails,
    (hanswers f hf silent rfl hsilent).2 rfl, hbatch [silent, silent] ?_⟩
  simpa using hsilent

end Evaluator

end FeatureFlags
