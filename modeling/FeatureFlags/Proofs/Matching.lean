/-
**Which constraint settles a segment, and which segments settle a combination.**

Constraints are looked at in order until one of them decides.  So everything about a segment is said by
the *first* constraint that decides, and by what it says: a constraint decides if it is of unknown kind,
if it is a fault, or if its outcome settles the match type.  That a constraint of unknown kind decides
does not mean that it is ever reached: under the match type that asks for one constraint, one before it
may be satisfied, and then the segment selects.  Segments, on the other hand, are all evaluated before
they are combined.

Main definitions:

* `First` — the first item of a list with a property;
* `Constraint.Decides` — a constraint at which the scan of a segment stops;
* `SegmentOperator.Fails`, `SegmentOperator.Holds`, `SegmentOperator.Passes` — what a combination of
  segments comes to for an entity.

Main results:

* `MatchType.scan_of_first`, `MatchType.scan_of_none` — **the outcome of a scan**;
* `MatchType.accepts_unknown_iff` — **when a segment selects although it holds a constraint of unknown
  kind**;
* `SegmentOperator.combine?_of_fails`, `SegmentOperator.combine?_of_holds`,
  `SegmentOperator.combine?_of_passes` — **the outcome of a combination of segments.**
-/
import Mathlib.Control.Monad.Basic
import FeatureFlags.Segment

set_option autoImplicit false

namespace FeatureFlags

/-! ### The first item of a list with a property -/

/-- The first item of a list with a property. -/
inductive First {α : Type} (p : α → Prop) (a : α) : List α → Prop
  | here {l : List α} : p a → First p a (a :: l)
  | later {b : α} {l : List α} : ¬p b → First p a l → First p a (b :: l)

namespace First

variable {α : Type} {p : α → Prop} {a : α} {l : List α}

theorem holds (h : First p a l) : p a := by
  induction h with
  | here ha => exact ha
  | later _ _ ih => exact ih

theorem mem (h : First p a l) : a ∈ l := by
  induction h with
  | here _ => exact List.mem_cons_self ..
  | later _ _ ih => exact List.mem_cons_of_mem _ ih

/-- A list has a first item with a property, or none at all. -/
theorem exists_or_none (p : α → Prop) (l : List α) : (∃ a, First p a l) ∨ ∀ a ∈ l, ¬p a := by
  induction l with
  | nil => exact Or.inr fun a ha => nomatch ha
  | cons b l ih =>
      by_cases hb : p b
      · exact Or.inl ⟨b, here hb⟩
      · rcases ih with ⟨a, ha⟩ | hnone
        · exact Or.inl ⟨a, later hb ha⟩
        · refine Or.inr fun a ha => ?_
          rcases List.mem_cons.1 ha with rfl | ha
          · exact hb
          · exact hnone a ha

theorem exists_of_mem (ha : a ∈ l) (hp : p a) : ∃ b, First p b l :=
  (exists_or_none p l).resolve_right fun h => h a ha hp

end First

/-! ### Constraints -/

/-- A constraint at which the scan of a segment stops. -/
def Constraint.Decides (t : MatchType) (e : Entity) (c : Constraint) : Prop :=
  c.kind = .unknown ∨ c.holds e ≠ .ok (!t.settles)

/-- Nobody satisfies a constraint of unknown kind. -/
theorem Constraint.holds_of_unknown {c : Constraint} (e : Entity) (h : c.kind = .unknown) :
    c.holds e = .ok false := by
  rw [holds, h]

namespace MatchType

/-- The scan goes past a constraint that does not decide. -/
theorem scan_cons_of_not_decides {t : MatchType} {e : Entity} {c : Constraint}
    (h : ¬c.Decides t e) (cs : List Constraint) : t.scan e (c :: cs) = t.scan e cs := by
  rw [Constraint.Decides, not_or, not_not] at h
  rw [scan, if_neg h.1, h.2]
  exact if_neg (by simp)

/-- The scan stops at a constraint that decides, with its outcome. -/
theorem scan_cons_of_decides {t : MatchType} {e : Entity} {c : Constraint}
    (h : c.Decides t e) (cs : List Constraint) : t.scan e (c :: cs) = c.holds e := by
  rw [scan]
  by_cases hk : c.kind = .unknown
  · rw [if_pos hk, Constraint.holds_of_unknown e hk]
  · rw [if_neg hk]
    have hne : c.holds e ≠ .ok (!t.settles) := h.resolve_left hk
    cases hc : c.holds e with
    | error f => rfl
    | ok b =>
        -- of the two outcomes only one lets the scan go on
        have hb : b = t.settles := by
          rw [hc] at hne
          cases b <;> cases t <;> simp_all [settles]
        exact if_pos hb

/-- **The first constraint that decides is the outcome of a scan.** -/
theorem scan_of_first {t : MatchType} {e : Entity} {c : Constraint} {cs : List Constraint}
    (h : First (Constraint.Decides t e) c cs) : t.scan e cs = c.holds e := by
  induction h with
  | here hc => exact scan_cons_of_decides hc _
  | later hb _ ih => rw [scan_cons_of_not_decides hb, ih]

/-- If no constraint decides, the match type says what the outcome is. -/
theorem scan_of_none {t : MatchType} {e : Entity} {cs : List Constraint}
    (h : ∀ c ∈ cs, ¬c.Decides t e) : t.scan e cs = .ok (!t.settles) := by
  induction cs with
  | nil => rfl
  | cons c cs ih =>
      rw [scan_cons_of_not_decides (h c (List.mem_cons_self ..))]
      exact ih fun d hd => h d (List.mem_cons_of_mem _ hd)

theorem accepts_of_ne_nil {cs : List Constraint} (h : cs ≠ []) (t : MatchType) (e : Entity) :
    t.accepts cs e = t.scan e cs := by
  rw [accepts, if_neg (by simpa using h)]

/-- Where every constraint has to be satisfied, one that decides is not satisfied. -/
theorem ne_true_of_decides_all {e : Entity} {c : Constraint} (h : c.Decides .all e) :
    c.holds e ≠ .ok true := by
  rcases h with hk | hne
  · rw [Constraint.holds_of_unknown e hk]
    simp
  · exact hne

/-- **When a segment selects although it holds a constraint of unknown kind**: never if it asks for all of
its constraints, and if it asks for one of them exactly if the first that decides is satisfied, which
then stands before every constraint of unknown kind. -/
theorem accepts_unknown_iff (t : MatchType) (cs : List Constraint) (e : Entity)
    (h : ∃ u ∈ cs, u.kind = .unknown) :
    t.accepts cs e = .ok true ↔
      t = .any ∧ ∃ c, First (fun c => c.kind = .unknown ∨ c.holds e ≠ .ok false) c cs ∧
        c.holds e = .ok true := by
  obtain ⟨u, hu, hkind⟩ := h
  rw [accepts_of_ne_nil (List.ne_nil_of_mem hu)]
  -- a constraint of unknown kind decides, so there is a first one that does
  cases t with
  | all =>
      obtain ⟨c, hc⟩ := First.exists_of_mem (p := Constraint.Decides .all e) hu (Or.inl hkind)
      rw [scan_of_first hc]
      simpa using ne_true_of_decides_all hc.holds
  | any =>
      obtain ⟨c, hc⟩ := First.exists_of_mem (p := Constraint.Decides .any e) hu (Or.inl hkind)
      rw [scan_of_first hc]
      refine ⟨fun htrue => ⟨rfl, c, hc, htrue⟩, ?_⟩
      rintro ⟨-, d, hd, htrue⟩
      have hd : First (Constraint.Decides .any e) d cs := hd
      exact (scan_of_first hc).symm.trans ((scan_of_first hd).trans htrue)

/-- A constraint of unknown kind that is reached keeps the segment from selecting, whatever comes after
it. -/
theorem accepts_unknown_iff_reached :
    let strange : Constraint := ⟨.unknown, "plan", "eq", "pro"⟩
    let region : Constraint := ⟨.string, "region", "eq", "eu"⟩
    let plan : Constraint := ⟨.string, "plan", "eq", "pro"⟩
    let e : Entity := ⟨"e", ⟨[("plan", "pro")]⟩⟩
    (∃ u ∈ [region, strange, plan], u.kind = .unknown) ∧
      (MatchType.any.accepts [region, strange, plan] e = .ok true ↔
        MatchType.any = .any ∧
          ∃ c, First (fun c => c.kind = .unknown ∨ c.holds e ≠ .ok false) c
            [region, strange, plan] ∧ c.holds e = .ok true) := by
  intro strange region plan e
  have h : ∃ u ∈ [region, strange, plan], u.kind = .unknown := ⟨strange, by decide, rfl⟩
  exact ⟨h, accepts_unknown_iff .any _ e h⟩

/-- **A constraint of unknown kind behind one that is satisfied is not reached**: the segment selects. -/
theorem accepts_any_unknown_behind :
    let plan : Constraint := ⟨.string, "plan", "eq", "pro"⟩
    let strange : Constraint := ⟨.unknown, "plan", "eq", "pro"⟩
    (∃ u ∈ [plan, strange], u.kind = .unknown) ∧
      MatchType.any.accepts [plan, strange] ⟨"e", ⟨[("plan", "pro")]⟩⟩ = .ok true := by
  decide

end MatchType

/-! ### Segments -/

/-- The segment cannot be evaluated. -/
def Segment.IsFault (e : Entity) (s : Segment) : Prop := ∃ f, s.selects e = .error f

/-- A segment that is no fault selects or does not. -/
theorem Segment.ok_of_not_isFault {e : Entity} {s : Segment} (h : ¬s.IsFault e) :
    ∃ b, s.selects e = .ok b := by
  cases hs : s.selects e with
  | error f => exact absurd ⟨f, hs⟩ h
  | ok b => exact ⟨b, rfl⟩

namespace SegmentOperator

/-- The first segment that is a fault makes the whole list one, whatever stands before or after it. -/
theorem selecting_of_first {e : Entity} {s : Segment} {ss : List Segment} {f : ValueFault}
    (h : First (Segment.IsFault e) s ss) (hf : s.selects e = .error f) :
    selecting e ss = .error f := by
  induction h with
  | here _ => rw [selecting, hf]
  | later hb _ ih =>
      obtain ⟨b, hb⟩ := Segment.ok_of_not_isFault hb
      rw [selecting, hb, ih]

/-- If no segment is a fault, those that select are kept in their order. -/
theorem selecting_of_none {e : Entity} {ss : List Segment} (h : ∀ s ∈ ss, ¬s.IsFault e) :
    selecting e ss = .ok (ss.filter fun s => s.selects e = .ok true) := by
  induction ss with
  | nil => rfl
  | cons s ss ih =>
      obtain ⟨b, hb⟩ := Segment.ok_of_not_isFault (h s (List.mem_cons_self ..))
      rw [selecting, hb, ih fun d hd => h d (List.mem_cons_of_mem _ hd), List.filter_cons, hb]
      cases b <;> rfl

/-- What an operator asks of some segments. -/
def Demand (o : SegmentOperator) (ss : List Segment) (e : Entity) : Prop :=
  match o with
  | .or => ∃ s ∈ ss, s.selects e = .ok true
  | .and => ∀ s ∈ ss, s.selects e = .ok true

/-- The demand of an operator is met exactly if the segments that select settle it. -/
theorem settled_iff_demand (o : SegmentOperator) (ss : List Segment) (e : Entity) :
    o.settled ss (ss.filter fun s => s.selects e = .ok true) = true ↔ o.Demand ss e := by
  cases o with
  | or => simp [settled, Demand]
  | and => simp [settled, Demand]

end SegmentOperator

/-- The combination of some segments holds for an entity: none of them is a fault, the demand of the
operator is met, and these are the keys of the segments that select the entity, in their order. -/
structure SegmentOperator.Holds (o : SegmentOperator) (ss : List Segment) (e : Entity)
    (keys : List String) : Prop where
  sound : ∀ s ∈ ss, ¬s.IsFault e
  demand : o.Demand ss e
  keys_eq : keys = (ss.filter fun s => s.selects e = .ok true).map (·.key)

/-- The combination of some segments does not hold for an entity, and none of them is a fault. -/
structure SegmentOperator.Passes (o : SegmentOperator) (ss : List Segment) (e : Entity) : Prop where
  sound : ∀ s ∈ ss, ¬s.IsFault e
  demand : ¬o.Demand ss e

/-- Some segments cannot be combined for an entity: this is the fault of the first that is one. -/
def SegmentOperator.Fails (ss : List Segment) (e : Entity) (f : ValueFault) : Prop :=
  ∃ s, First (Segment.IsFault e) s ss ∧ s.selects e = .error f

namespace SegmentOperator

variable {o : SegmentOperator} {ss : List Segment} {e : Entity}

theorem combine?_of_fails {f : ValueFault} (h : Fails ss e f) : o.combine? ss e = .error f := by
  obtain ⟨s, hs, hf⟩ := h
  rw [combine?, selecting_of_first hs hf]

theorem combine?_of_holds {keys : List String} (h : o.Holds ss e keys) :
    o.combine? ss e = .ok (some keys) := by
  rw [combine?, selecting_of_none h.sound]
  simp only [(settled_iff_demand o ss e).2 h.demand, if_true, h.keys_eq]

theorem combine?_of_passes (h : o.Passes ss e) : o.combine? ss e = .ok none := by
  rw [combine?, selecting_of_none h.sound]
  exact congrArg Except.ok (if_neg fun hs => h.demand ((settled_iff_demand o ss e).1 hs))

/-- The segments of a combination fail, hold or pass. -/
theorem fails_or_holds_or_passes (o : SegmentOperator) (ss : List Segment) (e : Entity) :
    (∃ f, Fails ss e f) ∨ (∃ keys, o.Holds ss e keys) ∨ o.Passes ss e := by
  rcases First.exists_or_none (Segment.IsFault e) ss with ⟨s, hs⟩ | hsound
  · obtain ⟨f, hf⟩ := hs.holds
    exact Or.inl ⟨f, s, hs, hf⟩
  · by_cases hd : o.Demand ss e
    · exact Or.inr (Or.inl ⟨_, hsound, hd, rfl⟩)
    · exact Or.inr (Or.inr ⟨hsound, hd⟩)

/-- A segment without constraints selects everybody. -/
theorem holds_everybody (key : String) (t : MatchType) (e : Entity) :
    SegmentOperator.or.Holds [⟨key, t, []⟩] e [key] := by
  have hselects : ∀ s ∈ [(⟨key, t, []⟩ : Segment)], s.selects e = .ok true := by
    intro s hs
    rw [List.mem_singleton.1 hs]
    rfl
  refine ⟨?_, ⟨_, List.mem_singleton_self _, rfl⟩, ?_⟩
  · rintro s hs ⟨f, hf⟩
    rw [hselects s hs] at hf
    cases hf
  · rw [List.filter_eq_self.2 fun s hs => by simpa using hselects s hs]
    rfl

end SegmentOperator

end FeatureFlags
