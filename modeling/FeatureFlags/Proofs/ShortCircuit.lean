/-
**What a segment asks of its constraints.**

A segment that asks for all of its constraints goes through them until one is not satisfied, and one that
asks for any of them until one is; a constraint that is a fault ends it in both cases, and then the fault is
the outcome.  So what stands behind the constraint that ended it has no part in the outcome, and neither
has a fault there.

As long as no constraint is a fault, the order makes no difference.  The outcome is then said by
quantifiers over the constraints, except that a segment without constraints selects everybody, whatever
it asks for; and so it depends on nothing but which constraints there are.

Main definitions:

* `MatchType.Reading` — **the outcome of some constraints, read from left to right**;
* `MatchType.Demand` — what a match type asks of constraints of which none is a fault.

Main results:

* `MatchType.accepts_eq_iff_reading` — a segment comes to what its reading says;
* `MatchType.accepts_of_sound` — without faults the demand decides;
* `MatchType.accepts_in_order` — **a segment is read from left to right, and without faults the order of its
  constraints does not matter.**
-/
import FeatureFlags.Proofs.Matching

set_option autoImplicit false

namespace FeatureFlags

/-- What is equivalent for the items of a list has the same first item. -/
theorem First.congr {α : Type} {p q : α → Prop} {a : α} {l : List α} (h : First p a l)
    (hpq : ∀ b ∈ l, p b ↔ q b) : First q a l := by
  induction h with
  | here ha => exact .here ((hpq _ (List.mem_cons_self ..)).1 ha)
  | later hb _ ih =>
      refine .later (fun hq => hb ((hpq _ (List.mem_cons_self ..)).2 hq)) (ih ?_)
      exact fun c hc => hpq c (List.mem_cons_of_mem _ hc)

/-- The constraint cannot be evaluated. -/
def Constraint.IsFault (e : Entity) (c : Constraint) : Prop := ∃ f, c.holds e = .error f

/-- A constraint of known kind ends the scan exactly if its outcome is not the one that lets it go on. -/
theorem Constraint.decides_iff {c : Constraint} (h : c.kind ≠ .unknown) (t : MatchType) (e : Entity) :
    c.Decides t e ↔ c.holds e ≠ .ok (!t.settles) := by
  rw [Decides, or_iff_right h]

namespace MatchType

/-! ### From left to right -/

/-- What some constraints come to for an entity.  The first one that is not satisfied, or the first one
that is, decides; a fault decides in both cases. -/
inductive Reading (e : Entity) : MatchType → List Constraint → Except ValueFault Bool → Prop
  | allFault {cs : List Constraint} {c : Constraint} {f : ValueFault} :
      First (fun c => c.holds e ≠ .ok true) c cs → c.holds e = .error f → Reading e .all cs (.error f)
  | oneRefused {cs : List Constraint} {c : Constraint} :
      First (fun c => c.holds e ≠ .ok true) c cs → c.holds e = .ok false → Reading e .all cs (.ok false)
  | allHold {cs : List Constraint} : (∀ c ∈ cs, c.holds e = .ok true) → Reading e .all cs (.ok true)
  | anyFault {cs : List Constraint} {c : Constraint} {f : ValueFault} :
      First (fun c => c.holds e ≠ .ok false) c cs → c.holds e = .error f → Reading e .any cs (.error f)
  | oneHolds {cs : List Constraint} {c : Constraint} :
      First (fun c => c.holds e ≠ .ok false) c cs → c.holds e = .ok true → Reading e .any cs (.ok true)
  | noneHolds {cs : List Constraint} : cs ≠ [] → (∀ c ∈ cs, c.holds e = .ok false) →
      Reading e .any cs (.ok false)
  | anyEmpty : Reading e .any [] (.ok true)

/-- An outcome that a truth value was ruled out for is a fault or the other truth value. -/
theorem error_or_ok_of_ne {r : Except ValueFault Bool} {b : Bool} (h : r ≠ .ok b) :
    (∃ f, r = .error f) ∨ r = .ok (!b) := by
  rcases r with f | b'
  · exact Or.inl ⟨f, rfl⟩
  · exact Or.inr (congrArg Except.ok (Bool.eq_not.2 fun hb => h (congrArg Except.ok hb)))

/-- Every list of constraints has a reading. -/
theorem exists_reading (t : MatchType) (cs : List Constraint) (e : Entity) : ∃ r, t.Reading e cs r := by
  cases t with
  | all =>
      rcases First.exists_or_none (fun c => c.holds e ≠ .ok true) cs with ⟨c, hc⟩ | hnone
      · rcases error_or_ok_of_ne hc.holds with ⟨f, hf⟩ | hfalse
        · exact ⟨_, .allFault hc hf⟩
        · exact ⟨_, .oneRefused hc hfalse⟩
      · exact ⟨_, .allHold fun c hc => not_not.1 (hnone c hc)⟩
  | any =>
      rcases First.exists_or_none (fun c => c.holds e ≠ .ok false) cs with ⟨c, hc⟩ | hnone
      · rcases error_or_ok_of_ne hc.holds with ⟨f, hf⟩ | htrue
        · exact ⟨_, .anyFault hc hf⟩
        · exact ⟨_, .oneHolds hc htrue⟩
      · cases cs with
        | nil => exact ⟨_, .anyEmpty⟩
        | cons c cs => exact ⟨_, .noneHolds (by simp) fun d hd => not_not.1 (hnone d hd)⟩

variable {t : MatchType} {cs : List Constraint} {e : Entity}

/-- The first constraint whose outcome does not let the scan go on is what a segment comes to. -/
theorem accepts_of_first {c : Constraint} (hknown : ∀ c ∈ cs, c.kind ≠ .unknown)
    (h : First (fun c => c.holds e ≠ .ok (!t.settles)) c cs) : t.accepts cs e = c.holds e := by
  rw [accepts_of_ne_nil (List.ne_nil_of_mem h.mem)]
  exact scan_of_first (h.congr fun b hb => (Constraint.decides_iff (hknown b hb) t e).symm)

/-- If there is no such constraint, the scan goes through to the end. -/
theorem accepts_of_none (hknown : ∀ c ∈ cs, c.kind ≠ .unknown) (hne : cs ≠ [])
    (h : ∀ c ∈ cs, c.holds e = .ok (!t.settles)) : t.accepts cs e = .ok (!t.settles) := by
  rw [accepts_of_ne_nil hne]
  exact scan_of_none fun c hc hdecides => (Constraint.decides_iff (hknown c hc) t e).1 hdecides (h c hc)

/-- A segment comes to what a reading of its constraints says. -/
theorem accepts_of_reading {r : Except ValueFault Bool} (hknown : ∀ c ∈ cs, c.kind ≠ .unknown)
    (h : t.Reading e cs r) : t.accepts cs e = r := by
  cases h with
  | allFault hfirst hf => rw [accepts_of_first hknown hfirst, hf]
  | oneRefused hfirst hfalse => rw [accepts_of_first hknown hfirst, hfalse]
  | allHold hall =>
      by_cases hne : cs = []
      · rw [hne]
        rfl
      · exact accepts_of_none hknown hne hall
  | anyFault hfirst hf => rw [accepts_of_first hknown hfirst, hf]
  | oneHolds hfirst htrue => rw [accepts_of_first hknown hfirst, htrue]
  | noneHolds hne hnone => exact accepts_of_none hknown hne hnone
  | anyEmpty => rfl

/-- **A segment comes to what the reading of its constraints says**, and to nothing else. -/
theorem accepts_eq_iff_reading (hknown : ∀ c ∈ cs, c.kind ≠ .unknown) (r : Except ValueFault Bool) :
    t.accepts cs e = r ↔ t.Reading e cs r := by
  constructor
  · rintro rfl
    obtain ⟨r, hr⟩ := t.exists_reading cs e
    rwa [accepts_of_reading hknown hr]
  · exact accepts_of_reading hknown

/-! ### Without faults -/

/-- What a match type asks of some constraints. -/
def Demand (t : MatchType) (cs : List Constraint) (e : Entity) : Prop :=
  match t with
  | .all => ∀ c ∈ cs, c.holds e = .ok true
  | .any => cs = [] ∨ ∃ c ∈ cs, c.holds e = .ok true

/-- The demand depends only on which constraints there are. -/
theorem demand_congr {ds : List Constraint} (h : ∀ c, c ∈ ds ↔ c ∈ cs) :
    t.Demand ds e ↔ t.Demand cs e := by
  have hempty : ds = [] ↔ cs = [] := by simp only [List.eq_nil_iff_forall_not_mem, h]
  cases t with
  | all => simp only [Demand, h]
  | any => simp only [Demand, h, hempty]

/-- **If no constraint is a fault, the demand decides.** -/
theorem accepts_of_sound (hknown : ∀ c ∈ cs, c.kind ≠ .unknown) (hsound : ∀ c ∈ cs, ¬c.IsFault e) :
    ∃ b, t.accepts cs e = .ok b ∧ (b = true ↔ t.Demand cs e) := by
  obtain ⟨r, hr⟩ := t.exists_reading cs e
  rw [accepts_of_reading hknown hr]
  cases hr with
  | allFault hfirst hf => exact absurd ⟨_, hf⟩ (hsound _ hfirst.mem)
  | @oneRefused _ c hfirst hfalse =>
      refine ⟨false, rfl, iff_of_false Bool.false_ne_true fun hall => ?_⟩
      exact hfirst.holds (hall c hfirst.mem)
  | allHold hall => exact ⟨true, rfl, iff_of_true rfl hall⟩
  | anyFault hfirst hf => exact absurd ⟨_, hf⟩ (hsound _ hfirst.mem)
  | @oneHolds _ c hfirst htrue => exact ⟨true, rfl, iff_of_true rfl (Or.inr ⟨c, hfirst.mem, htrue⟩)⟩
  | noneHolds hne hnone =>
      refine ⟨false, rfl, iff_of_false Bool.false_ne_true ?_⟩
      rintro (hempty | ⟨c, hc, htrue⟩)
      · exact hne hempty
      · simp [hnone c hc] at htrue
  | anyEmpty => exact ⟨true, rfl, iff_of_true rfl (Or.inl rfl)⟩

/-- Without faults, segments with the same constraints come to the same. -/
theorem accepts_congr {ds : List Constraint} (hknown : ∀ c ∈ cs, c.kind ≠ .unknown)
    (hsound : ∀ c ∈ cs, ¬c.IsFault e) (h : ∀ c, c ∈ ds ↔ c ∈ cs) : t.accepts ds e = t.accepts cs e := by
  obtain ⟨b, hb, hdemand⟩ := accepts_of_sound (t := t) hknown hsound
  have hknown' : ∀ c ∈ ds, c.kind ≠ .unknown := fun c hc => hknown c ((h c).1 hc)
  have hsound' : ∀ c ∈ ds, ¬c.IsFault e := fun c hc => hsound c ((h c).1 hc)
  obtain ⟨b', hb', hdemand'⟩ := accepts_of_sound (t := t) hknown' hsound'
  rw [hb, hb']
  exact congrArg Except.ok (Bool.eq_iff_iff.2 (hdemand'.trans ((demand_congr h).trans hdemand.symm)))

/-- **A segment is read from left to right.**  If none of its constraints is a fault, it selects exactly if
its demand is met, and then neither the order nor the repetition of constraints makes a difference. -/
theorem accepts_in_order (t : MatchType) (cs : List Constraint) (e : Entity)
    (hknown : ∀ c ∈ cs, c.kind ≠ .unknown) :
    (∀ r, t.accepts cs e = r ↔ t.Reading e cs r) ∧
      ((∀ c ∈ cs, ¬c.IsFault e) →
        (∃ b, t.accepts cs e = .ok b ∧ (b = true ↔ t.Demand cs e)) ∧
        ∀ ds : List Constraint, (∀ c, c ∈ ds ↔ c ∈ cs) → t.accepts ds e = t.accepts cs e) := by
  refine ⟨accepts_eq_iff_reading hknown, fun hsound => ⟨accepts_of_sound hknown hsound, ?_⟩⟩
  intro ds hds
  exact accepts_congr hknown hsound hds

/-- A fault before the constraint that is satisfied is the outcome; without it, constraints in another order
and twice come to the same. -/
theorem accepts_in_order_late :
    let plan : Constraint := ⟨.string, "plan", "eq", "pro"⟩
    let age : Constraint := ⟨.number, "age", "lt", "18"⟩
    let region : Constraint := ⟨.string, "region", "eq", "eu"⟩
    let e : Entity := ⟨"e", ⟨[("plan", "pro"), ("age", "old"), ("region", "us")]⟩⟩
    (∀ c ∈ [region, age, plan], c.kind ≠ .unknown) ∧
      MatchType.any.Reading e [region, age, plan] (.error (.number "old" .malformed)) ∧
      (∀ c ∈ [region, plan], c.kind ≠ .unknown) ∧ (∀ c ∈ [region, plan], ¬c.IsFault e) ∧
      MatchType.any.accepts [plan, region, plan] e = MatchType.any.accepts [region, plan] e := by
  intro plan age region e
  have hknown : ∀ c ∈ [region, age, plan], c.kind ≠ .unknown := by decide
  have hknown' : ∀ c ∈ [region, plan], c.kind ≠ .unknown := by decide
  have hfault : MatchType.any.accepts [region, age, plan] e = .error (.number "old" .malformed) := by
    decide +kernel
  have hregion : region.holds e = .ok false := by decide +kernel
  have hplan : plan.holds e = .ok true := by decide +kernel
  have hsound : ∀ c ∈ [region, plan], ¬c.IsFault e := by
    simp [Constraint.IsFault, hregion, hplan]
  refine ⟨hknown, ((accepts_in_order .any _ e hknown).1 _).1 hfault, hknown', hsound, ?_⟩
  exact ((accepts_in_order .any _ e hknown').2 hsound).2 [plan, region, plan] (by grind)

end MatchType

end FeatureFlags
