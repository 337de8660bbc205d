/-
**What a boolean flag answers, read off its document.**

The reading below takes the rollouts of a flag as the document has them.  A rollout with a threshold
applies to the entities that stand below its percentage, whatever else it has; one with only segments
applies to the entities that they select; and one with neither applies to nobody.  The first rollout that
applies, or that cannot be evaluated, decides alone.  The reading knows of no snapshot, no effects and no
places of rollouts, and an entity stands where the first bytes of a digest put it, with no number in
single precision between.

Evaluating a boolean flag of a document that is served comes to the same, and what stands behind the
rollout that decides has no influence.

Main definitions:

* `Sha256.ofBigEndian`, `percentile` — where an entity stands among a hundred for a flag;
* `Rollout.AppliesTo`, `Rollout.Fails`, `Rollout.Decides` — what a rollout says to a request;
* `Flag.BooleanReading` — **the answer that a document gives to a request**.

Main results:

* `Bucket.thresholdValue_lt_iff` — who stands below a percentage;
* `Flag.BooleanReading.congr_behind` — rollouts behind the one that decides do not matter;
* `Evaluator.boolean_iff_reading` — **a boolean flag of a document that is served answers what can be read
  off the document.**
-/
import FeatureFlags.Proofs.FirstFault
import FeatureFlags.Proofs.Nearest

set_option autoImplicit false

namespace FeatureFlags

/-! ### Readings -/

/-- The number that some bytes are, the most significant one first. -/
def Sha256.ofBigEndian (bytes : List UInt8) : ℕ := bytes.foldl (fun n b => n * 256 + b.toNat) 0

/-- Where an entity stands among a hundred for a flag: the first four bytes of the digest of both say
it. -/
def percentile (entity flag : String) : ℕ :=
  Sha256.ofBigEndian ((Sha256.digest (Utf8.encode (entity ++ flag))).take 4) % 100

/-- A rollout applies to a request and gives it a value. -/
inductive Rollout.AppliesTo (r : Rollout) (request : Request) : Bool → Prop
  /-- The entity stands below the threshold; the segments do not matter then. -/
  | threshold {t : Threshold} : r.threshold = some t →
      (percentile request.entity.id request.flag : ℚ) < t.percentage.toRat →
      AppliesTo r request t.value
  /-- There is no threshold, and the combination of the segments holds. -/
  | segment {s : SegmentRollout} {keys : List String} : r.threshold = none → r.segment = some s →
      s.operator.Holds s.segments request.entity keys → AppliesTo r request s.value

/-- There is no threshold, and the segments of the rollout cannot be evaluated. -/
inductive Rollout.Fails (r : Rollout) (request : Request) : ValueFault → Prop
  | segment {s : SegmentRollout} {v : ValueFault} : r.threshold = none → r.segment = some s →
      SegmentOperator.Fails s.segments request.entity v → Fails r request v

/-- A rollout that ends the evaluation of a flag. -/
def Rollout.Decides (request : Request) (r : Rollout) : Prop :=
  (∃ v, r.Fails request v) ∨ ∃ b, r.AppliesTo request b

/-- What a boolean flag says to a request, whether or not it is enabled. -/
inductive Flag.BooleanReading (f : Flag) (request : Request) : Except Failure BooleanAnswer → Prop
  /-- The first rollout that decides cannot be evaluated. -/
  | fault {r : Rollout} {v : ValueFault} : First (Rollout.Decides request) r f.rollouts →
      r.Fails request v → BooleanReading f request (.error v.failure)
  /-- The first rollout that decides gives its value. -/
  | matched {r : Rollout} {b : Bool} : First (Rollout.Decides request) r f.rollouts →
      r.AppliesTo request b → BooleanReading f request (.ok ⟨b, f.key, .matched⟩)
  /-- No rollout decides. -/
  | fallback : (∀ r ∈ f.rollouts, ¬r.Decides request) →
      BooleanReading f request (.ok ⟨f.enabled, f.key, .fallback⟩)

/-! ### Where an entity stands -/

namespace Sha256

theorem length_bigEndian (width n : ℕ) : (bigEndian width n).length = width := by
  induction width generalizing n with
  | zero => rfl
  | succ width ih => rw [bigEndian, List.length_append, ih, List.length_singleton]

/-- Of a number that is written in some bytes, its remainder is read back. -/
theorem ofBigEndian_bigEndian (width n : ℕ) : ofBigEndian (bigEndian width n) = n % 256 ^ width := by
  induction width generalizing n with
  | zero => simp [bigEndian, ofBigEndian, Nat.mod_one]
  | succ width ih =>
      have hlast : (UInt8.ofNat n).toNat = n % 256 := UInt8.toNat_ofNat'
      have hfirst : ofBigEndian (bigEndian width (n / 256)) = n / 256 % 256 ^ width := ih (n / 256)
      rw [ofBigEndian] at hfirst ⊢
      rw [bigEndian, List.foldl_append, hfirst, List.foldl_cons, List.foldl_nil, hlast, pow_succ,
        mul_comm (256 ^ width), Nat.mod_mul]
      ring

end Sha256

theorem Utf8.encode_append (s t : String) : encode (s ++ t) = encode s ++ encode t := by
  rw [encode, String.toList_append, encodeChars, List.flatMap_append]
  rfl

namespace Bucket

/-- The first word of the state is written in the first four bytes of the digest. -/
theorem leading_eq (text : List UInt8) :
    leading text = Sha256.ofBigEndian ((Sha256.digest text).take 4) := by
  have hword : (Sha256.run text).a.toNat < 256 ^ 4 := (Sha256.run text).a.toNat_lt
  have htake : (Sha256.digest text).take 4 = Sha256.bigEndian 4 (Sha256.run text).a.toNat := by
    rw [Sha256.digest, List.flatMap_cons]
    exact List.take_left' (Sha256.length_bigEndian 4 _)
  rw [htake, Sha256.ofBigEndian_bigEndian, Nat.mod_eq_of_lt hword, leading]

theorem ofThreshold_eq (entity flag : String) : ofThreshold entity flag = percentile entity flag := by
  rw [ofThreshold, leading_eq, percentile, Utf8.encode_append]

/-- A bucket is one of the numbers that single precision has. -/
theorem thresholdValue_eq (entity flag : String) :
    Floating.Finite (thresholdValue entity flag) ∧
      (thresholdValue entity flag).toRat = percentile entity flag := by
  have hsmall : percentile entity flag < 100 := Nat.mod_lt _ (by norm_num)
  have hvalue : (Floating.finite false (percentile entity flag) 0 : Single).toRat =
      percentile entity flag := by
    rw [Floating.toRat_positive]
    simp
  have hformat : Floating.Representable
      (Floating.finite false (percentile entity flag) 0 : Single) :=
    .finite (hsmall.trans (by decide)) (by decide)
  have hround : Floating.RoundsTo (Floating.finite false (percentile entity flag) 0 : Single).toRat
      (thresholdValue entity flag) := by
    have h : Floating.RoundsTo ((percentile entity flag : ℚ) / (1 : ℕ))
        (Floating.round false (percentile entity flag) 1 : Single) :=
      Floating.roundsTo_round one_pos fun hb => nomatch hb
    rw [hvalue, thresholdValue, ofThreshold_eq]
    simpa [Floating.ofNat] using h
  have hbound : (Floating.finite false (percentile entity flag) 0 : Single).toRat <
      2 ^ ((6 : ℤ) + 1) := by
    have hcast : (percentile entity flag : ℚ) < 100 := by exact_mod_cast hsmall
    rw [hvalue]
    norm_num
    linarith
  have hrepresentable := hround.single_representable 6 (by norm_num) hbound
  refine ⟨hrepresentable.isFinite, ?_⟩
  rw [hround.toRat_eq (by decide) hrepresentable hformat, hvalue]

/-- **Who stands below a percentage.** -/
theorem thresholdValue_lt_iff (entity flag : String) {p : Single} (hp : p.Percentage) :
    (thresholdValue entity flag).lt p = true ↔ (percentile entity flag : ℚ) < p.toRat := by
  obtain ⟨hfinite, hvalue⟩ := thresholdValue_eq entity flag
  rw [Floating.lt_iff hfinite hp.finite, hvalue]

end Bucket

/-! ### Rollouts -/

namespace Rollout

variable {r : Rollout} {request : Request}

/-- A rollout that applies gives its value. -/
theorem value?_of_appliesTo (hr : r.Sound) {b : Bool} (h : r.AppliesTo request b) :
    r.effect.value? request = .ok (some b) := by
  cases h with
  | @threshold t ht hlt =>
      have hbelow := (Bucket.thresholdValue_lt_iff _ _ (hr t ht)).2 hlt
      simp [effect, ht, Effect.value?, hbelow]
  | @segment s keys ht hs hkeys =>
      simp [effect, ht, hs, Effect.value?, SegmentOperator.combine?_of_holds hkeys]

/-- A rollout that cannot be evaluated is a fault. -/
theorem value?_of_fails {v : ValueFault} (h : r.Fails request v) :
    r.effect.value? request = .error v := by
  obtain ⟨ht, hs, hv⟩ := h
  simp [effect, ht, hs, Effect.value?, SegmentOperator.combine?_of_fails hv]

/-- A rollout that does not decide gives no value. -/
theorem value?_of_not_decides (hr : r.Sound) (h : ¬r.Decides request) :
    r.effect.value? request = .ok none := by
  rw [Decides, not_or] at h
  obtain ⟨hfault, hvalue⟩ := h
  cases ht : r.threshold with
  | some t =>
      have hbelow : (Bucket.thresholdValue request.entity.id request.flag).lt t.percentage = false := by
        rw [Bool.eq_false_iff]
        intro hlt
        exact hvalue ⟨_, .threshold ht ((Bucket.thresholdValue_lt_iff _ _ (hr t ht)).1 hlt)⟩
      simp [effect, ht, Effect.value?, hbelow]
  | none =>
      cases hs : r.segment with
      | none => simp [effect, ht, hs, Effect.value?]
      | some s =>
          rcases SegmentOperator.fails_or_holds_or_passes s.operator s.segments request.entity with
            ⟨v, hv⟩ | ⟨keys, hkeys⟩ | hpasses
          · exact absurd ⟨v, .segment ht hs hv⟩ hfault
          · exact absurd ⟨s.value, .segment ht hs hkeys⟩ hvalue
          · simp [effect, ht, hs, Effect.value?, SegmentOperator.combine?_of_passes hpasses]

end Rollout

/-! ### Flags -/

namespace FlagInfo

variable {i : FlagInfo} {request : Request}

/-- The evaluation goes past a rollout that does not decide. -/
theorem byRollouts_of_not_decides {r : Rollout} (hr : r.Sound) (h : ¬r.Decides request) (k : ℕ)
    (rs : List (Ranked Effect)) :
    i.byRollouts request (⟨k, r.effect⟩ :: rs) = i.byRollouts request rs := by
  rw [byRollouts, Rollout.value?_of_not_decides hr h]

/-- The first rollout that decides ends the evaluation as if it were the only one. -/
theorem byRollouts_of_first {r : Rollout} {rs : List Rollout} (hrs : ∀ r ∈ rs, r.Sound)
    (h : First (Rollout.Decides request) r rs) (k : ℕ) :
    i.byRollouts request (rankFrom k (rs.map (·.effect))) = i.byRollouts request [⟨1, r.effect⟩] := by
  induction h generalizing k with
  | here hr =>
      rw [List.map_cons, rankFrom, byRollouts, byRollouts]
      rcases hr with ⟨v, hv⟩ | ⟨b, hb⟩
      · rw [Rollout.value?_of_fails hv]
      · rw [Rollout.value?_of_appliesTo (hrs _ (List.mem_cons_self ..)) hb]
  | later hq _ ih =>
      rw [List.map_cons, rankFrom, byRollouts_of_not_decides (hrs _ (List.mem_cons_self ..)) hq]
      exact ih (fun q hq => hrs q (List.mem_cons_of_mem _ hq)) (k + 1)

/-- If no rollout decides, the answer is whether the flag is enabled. -/
theorem byRollouts_of_none {rs : List Rollout} (hrs : ∀ r ∈ rs, r.Sound)
    (h : ∀ r ∈ rs, ¬r.Decides request) (k : ℕ) :
    i.byRollouts request (rankFrom k (rs.map (·.effect))) = .ok ⟨i.enabled, i.key, .fallback⟩ := by
  induction rs generalizing k with
  | nil => rfl
  | cons r rs ih =>
      rw [List.map_cons, rankFrom, byRollouts_of_not_decides (hrs r (List.mem_cons_self ..))
        (h r (List.mem_cons_self ..))]
      exact ih (fun q hq => hrs q (List.mem_cons_of_mem _ hq))
        (fun q hq => h q (List.mem_cons_of_mem _ hq)) (k + 1)

end FlagInfo

namespace Flag

variable {f : Flag} {request : Request}

/-- Every request gets something from every flag. -/
theorem exists_booleanReading (f : Flag) (request : Request) : ∃ a, f.BooleanReading request a := by
  rcases First.exists_or_none (Rollout.Decides request) f.rollouts with ⟨r, hr⟩ | hnone
  · rcases hr.holds with ⟨v, hv⟩ | ⟨b, hb⟩
    · exact ⟨_, .fault hr hv⟩
    · exact ⟨_, .matched hr hb⟩
  · exact ⟨_, .fallback hnone⟩

/-- **A boolean flag that was checked answers what can be read off.** -/
theorem boolean_of_reading (h : f.check = .ok ()) {a : Except Failure BooleanAnswer}
    (ha : f.BooleanReading request a) : (f.compile.boolean request).mapError (·.failure) = a := by
  have hrollouts : f.compile.rollouts = rankFrom 1 (f.rollouts.map (·.effect)) := rfl
  have hrs := (sound_of_check h).rollouts
  rw [CompiledFlag.boolean, hrollouts]
  cases ha with
  | fault hr hv =>
      rw [FlagInfo.byRollouts_of_first hrs hr, FlagInfo.byRollouts, Rollout.value?_of_fails hv]
      rfl
  | matched hr hb =>
      rw [FlagInfo.byRollouts_of_first hrs hr, FlagInfo.byRollouts,
        Rollout.value?_of_appliesTo (hrs _ hr.mem) hb]
      rfl
  | fallback hnone =>
      rw [FlagInfo.byRollouts_of_none hrs hnone]
      rfl

end Flag

/-! ### Rollouts that do not matter -/

/-- The first item with a property is found before whatever stands behind some item that has it. -/
theorem First.congr_behind {α : Type} {p : α → Prop} {a b : α} {before after : List α} (hb : p b)
    (h : First p a (before ++ b :: after)) (after' : List α) : First p a (before ++ b :: after') := by
  induction before with
  | nil =>
      cases h with
      | here ha => exact .here ha
      | later hnot _ => exact absurd hb hnot
  | cons c before ih =>
      cases h with
      | here ha => exact .here ha
      | later hnot h => exact .later hnot (ih h)

/-- **Rollouts behind one that decides do not matter**, not even those that could not be evaluated. -/
theorem Flag.BooleanReading.congr_behind {f : Flag} {request : Request} {r : Rollout}
    {before after : List Rollout} (hf : f.rollouts = before ++ r :: after) (hr : r.Decides request)
    {a : Except Failure BooleanAnswer} (h : f.BooleanReading request a) (after' : List Rollout) :
    { f with rollouts := before ++ r :: after' }.BooleanReading request a := by
  cases h with
  | fault hfirst hv =>
      rw [hf] at hfirst
      exact .fault (hfirst.congr_behind hr after') hv
  | matched hfirst hb =>
      rw [hf] at hfirst
      exact .matched (hfirst.congr_behind hr after') hb
  | fallback hnone =>
      have hmem : r ∈ f.rollouts := by simp [hf]
      exact absurd hr (hnone r hmem)

/-! ### Evaluators -/

namespace Evaluator

/-- The answer for a boolean flag of a document that is served is the one of the flag. -/
theorem boolean_of_serves {e : Evaluator} {d : Document} {f : Flag} {request : Request}
    (h : e.Serves d) (hf : f ∈ d.flags) (hkey : f.key = request.flag) (hkind : f.kind = .boolean) :
    e.boolean request = (f.compile.boolean request).mapError (·.failure) := by
  have hget : e.get? request.flag = some f.compile := by
    rw [← hkey]
    exact h.get? hf
  have hinfo : f.compile.info.kind = .boolean := hkind
  rw [boolean, unlessFailed, h.sound]
  simp only [hget, hinfo, if_true]

/-- What is answered for a boolean flag of a document that is served is what can be read off. -/
theorem boolean_eq_iff_reading {e : Evaluator} {d : Document} {f : Flag} {request : Request}
    (h : e.Serves d) (hf : f ∈ d.flags) (hkey : f.key = request.flag) (hkind : f.kind = .boolean)
    (a : Except Failure BooleanAnswer) :
    e.boolean request = a ↔ f.BooleanReading request a := by
  rw [boolean_of_serves h hf hkey hkind]
  -- there is something to read off, and it is what is answered, so nothing else can be
  constructor
  · rintro rfl
    obtain ⟨a, ha⟩ := f.exists_booleanReading request
    rwa [Flag.boolean_of_reading (h.check_flag hf) ha]
  · exact fun ha => Flag.boolean_of_reading (h.check_flag hf) ha

/-- **A boolean flag of a document that is served answers what can be read off the document**, and nothing
else.  The rollouts behind one that decides can be exchanged for any others, in any document. -/
theorem boolean_iff_reading {e : Evaluator} {d : Document} {f : Flag} {request : Request}
    (h : e.Serves d) (hf : f ∈ d.flags) (hkey : f.key = request.flag) (hkind : f.kind = .boolean) :
    (∀ a, e.boolean request = a ↔ f.BooleanReading request a) ∧
      ∀ before r after, f.rollouts = before ++ r :: after → r.Decides request →
        ∀ (e' : Evaluator) (d' : Document) (after' : List Rollout), e'.Serves d' →
          { f with rollouts := before ++ r :: after' } ∈ d'.flags →
            e'.boolean request = e.boolean request := by
  refine ⟨boolean_eq_iff_reading h hf hkey hkind, ?_⟩
  intro before r after hrollouts hr e' d' after' h' hf'
  have hreading : f.BooleanReading request (e.boolean request) :=
    (boolean_eq_iff_reading h hf hkey hkind _).1 rfl
  exact (boolean_eq_iff_reading h' hf' hkey hkind _).2 (hreading.congr_behind hrollouts hr after')

/-- An entity past the threshold of the first rollout is given the value of the second, behind which there
may as well stand one that cannot be evaluated. -/
theorem boolean_iff_reading_everybody :
    let few : Rollout := ⟨none, some ⟨.or, false, [⟨"all", .all, []⟩]⟩, some ⟨Floating.ofNat 20, false⟩⟩
    let everybody : Rollout := ⟨none, some ⟨.or, true, [⟨"all", .all, []⟩]⟩, none⟩
    let broken : Rollout :=
      ⟨none, some ⟨.or, false, [⟨"old", .all, [⟨.number, "age", "gt", "old"⟩]⟩]⟩, none⟩
    let flag (rollouts : List Rollout) : Flag := ⟨"f", "F", .boolean, none, false, [], rollouts, none⟩
    let document (rollouts : List Rollout) : Document := ⟨⟨"", none⟩, [flag rollouts]⟩
    let evaluator (rollouts : List Rollout) : Evaluator :=
      Evaluator.new "ns" (.ofDocument ⟨⟨"ns", none⟩, [flag rollouts]⟩)
    let rollouts := [few] ++ everybody :: [few]
    let rollouts' := [few] ++ everybody :: [broken]
    let request : Request := ⟨"f", ⟨"user-1", ⟨[("age", "42")]⟩⟩⟩
    let answer : Except Failure BooleanAnswer := .ok ⟨true, "f", .matched⟩
    (evaluator rollouts).Serves (document rollouts) ∧ (evaluator rollouts').Serves (document rollouts') ∧
      everybody.Decides request ∧ (∃ v, broken.Fails request v) ∧
      (evaluator rollouts).boolean request = answer ∧
      ((evaluator rollouts).boolean request = answer ↔
        (flag rollouts).BooleanReading request answer) ∧
      (evaluator rollouts').boolean request = (evaluator rollouts).boolean request := by
  intro few everybody broken flag document evaluator rollouts rollouts' request answer
  have hserves : (evaluator rollouts).Serves (document rollouts) :=
    ⟨by decide +kernel, Or.inl rfl, rfl⟩
  have hserves' : (evaluator rollouts').Serves (document rollouts') :=
    ⟨by decide +kernel, Or.inl rfl, rfl⟩
  have heverybody : everybody.Decides request :=
    Or.inr ⟨_, .segment rfl rfl (SegmentOperator.holds_everybody "all" .all request.entity)⟩
  have hold : (⟨"old", .all, [⟨.number, "age", "gt", "old"⟩]⟩ : Segment).selects request.entity =
      .error (.number "old" .malformed) := by decide +kernel
  have hbroken : broken.Fails request (.number "old" .malformed) :=
    .segment rfl rfl ⟨_, .here ⟨_, hold⟩, hold⟩
  have hflag (rollouts : List Rollout) : flag rollouts ∈ (document rollouts).flags :=
    List.mem_singleton_self _
  have hkey : (flag rollouts).key = request.flag := rfl
  obtain ⟨hreading, hbehind⟩ := boolean_iff_reading hserves (hflag rollouts) hkey rfl
  exact ⟨hserves, hserves', heverybody, ⟨_, hbroken⟩, by decide +kernel, hreading answer,
    hbehind [few] everybody [few] rfl heverybody _ _ [broken] hserves' (hflag rollouts')⟩

end Evaluator

end FeatureFlags
