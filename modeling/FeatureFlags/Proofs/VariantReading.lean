/-
**What a variant flag answers, read off its document.**

The reading below says what a request gets, in terms of the document alone: which rule decides, and what
the rule that decides says about the bucket of the entity.  It knows of no snapshot, no places of rules,
no bounds and no bisection.  Evaluating a flag of a document that is served comes to the same: the
answer is one that can be read off the document, and no other answer can be.

Main definitions:

* `Rule.Decides`, `Rule.positive` — the rules that end an evaluation, and what a rule gives away;
* `Rule.Reading`, `Flag.Reading` — **the answer that a document gives to a request**.

Main results:

* `ownerOf_split`, `ownerOf_past` — the owner of a bucket among the distributions of a rule;
* `Evaluator.variant_iff_reading` — **a flag of a document that is served answers what can be read off the
  document.**
-/
import Mathlib.Control.Monad.Basic
import FeatureFlags.Evaluation.Evaluator
import FeatureFlags.Proofs.Matching
import FeatureFlags.Proofs.Served
import FeatureFlags.Proofs.Shares

set_option autoImplicit false

namespace FeatureFlags

/-! ### Readings -/

/-- The segments of a rule cannot be combined for an entity, or their combination holds for it. -/
def Rule.Decides (e : Entity) (r : Rule) : Prop :=
  (∃ f, SegmentOperator.Fails r.segments e f) ∨ ∃ keys, r.operator.Holds r.segments e keys

/-- The distributions whose percentage is above zero. -/
def Rule.positive (r : Rule) : List Distribution :=
  r.distributions.filter fun d => 0 < d.percentage.toRat

/-- How many buckets some distributions take together. -/
def taken (ds : List Distribution) : ℕ := (ds.map fun d => Bucket.share d.percentage).sum

/-- What a rule that decides says to a request for a flag. -/
inductive Rule.Reading (r : Rule) (flag : String) (request : Request) :
    Except Failure VariantAnswer → Prop
  /-- A segment cannot be evaluated. -/
  | fault {f : ValueFault} : SegmentOperator.Fails r.segments request.entity f →
      Reading r flag request (.error f.failure)
  /-- The rule gives nothing away. -/
  | unshared {keys : List String} : r.operator.Holds r.segments request.entity keys →
      r.positive = [] → Reading r flag request (.ok ⟨true, keys, .matched, flag, "", ""⟩)
  /-- A distribution owns the bucket: those before it end at or before the bucket, and it ends after. -/
  | owned {keys : List String} {before after : List Distribution} {d : Distribution} :
      r.operator.Holds r.segments request.entity keys → r.positive = before ++ d :: after →
      taken before ≤ Bucket.ofVariant request.flag request.entity.id →
      Bucket.ofVariant request.flag request.entity.id < taken before + Bucket.share d.percentage →
      Reading r flag request (.ok ⟨true, keys, .matched, flag, d.variant, d.attachment.getD ""⟩)
  /-- The bucket lies past everything that is given away. -/
  | past {keys : List String} : r.operator.Holds r.segments request.entity keys →
      r.positive ≠ [] → taken r.positive ≤ Bucket.ofVariant request.flag request.entity.id →
      Reading r flag request (.ok ⟨false, keys, .unknown, flag, "", ""⟩)

/-- What a flag says to a request. -/
inductive Flag.Reading (f : Flag) (request : Request) : Except Failure VariantAnswer → Prop
  /-- The flag is disabled, whatever its rules are. -/
  | disabled : f.enabled = false → Reading f request (.ok ⟨false, [], .flagDisabled, f.key, "", ""⟩)
  /-- The first rule that decides says it. -/
  | ruled {r : Rule} {a : Except Failure VariantAnswer} : f.enabled = true →
      First (Rule.Decides request.entity) r f.rules → r.Reading f.key request a → Reading f request a
  /-- No rule decides, and there is a default variant. -/
  | fallback {v : Variant} : f.enabled = true →
      (∀ r ∈ f.rules, ¬r.Decides request.entity) → f.defaultVariant = some v →
      Reading f request (.ok ⟨false, [], .fallback, f.key, v.key, v.attachment.getD ""⟩)
  /-- No rule decides, and there is no default variant. -/
  | nothing : f.enabled = true → (∀ r ∈ f.rules, ¬r.Decides request.entity) →
      f.defaultVariant = none → Reading f request (.ok ⟨false, [], .fallback, f.key, "", ""⟩)

/-! ### The owner of a bucket -/

theorem taken_cons (d : Distribution) (ds : List Distribution) :
    taken (d :: ds) = Bucket.share d.percentage + taken ds := rfl

theorem taken_append (ds es : List Distribution) : taken (ds ++ es) = taken ds + taken es := by
  rw [taken, List.map_append, List.sum_append]
  rfl

theorem sum_shares (ds : List Distribution) :
    ((ds.map (·.percentage)).map Bucket.share).sum = taken ds := by
  rw [List.map_map]
  rfl

/-- The shares before a place are taken by the distributions before it. -/
theorem take_shares {ds before after : List Distribution} (h : ds = before ++ after) :
    (((ds.map (·.percentage)).map Bucket.share).take before.length).sum = taken before := by
  rw [← List.map_take, ← List.map_take, h, List.take_left, sum_shares]

section

variable {ds : List Distribution} (request : Request) (h : taken ds < 2 ^ 32)
include h

/-- The distribution that ends after a bucket is its owner if those before it do not. -/
theorem ownerOf_split {before after : List Distribution} {d : Distribution}
    (hsplit : ds = before ++ d :: after)
    (hle : taken before ≤ Bucket.ofVariant request.flag request.entity.id)
    (hlt : Bucket.ofVariant request.flag request.entity.id <
      taken before + Bucket.share d.percentage) : ownerOf ds request = some d := by
  rw [← sum_shares] at h
  -- the place of the distribution is the number of those before it
  have hown : Bucket.Owns ((ds.map (·.percentage)).map Bucket.share)
      (Bucket.ofVariant request.flag request.entity.id) before.length := by
    refine ⟨by simp [hsplit], ?_, ?_⟩
    · rw [take_shares hsplit]
      exact hle
    · have hnext : ds = (before ++ [d]) ++ after := by simp [hsplit]
      have hlength : (before ++ [d]).length = before.length + 1 := by simp
      rw [← hlength, take_shares hnext, taken_append]
      simpa [taken] using hlt
  have hselect := (Bucket.select_eq_some_iff h _ _).2 hown
  simp only [ownerOf, hselect]
  rw [hsplit, List.getElem?_append_right le_rfl, Nat.sub_self]
  rfl

/-- A bucket past all distributions has no owner. -/
theorem ownerOf_past (hle : taken ds ≤ Bucket.ofVariant request.flag request.entity.id) :
    ownerOf ds request = none := by
  rw [← sum_shares] at h hle
  have hselect := (Bucket.select_eq_none_iff h _).2 hle
  simp only [ownerOf, hselect]

end

/-- A bucket is within the distributions or past all of them. -/
theorem split_or_past (ds : List Distribution) (bucket : ℕ) :
    (∃ before d after, ds = before ++ d :: after ∧ taken before ≤ bucket ∧
      bucket < taken before + Bucket.share d.percentage) ∨ taken ds ≤ bucket := by
  induction ds generalizing bucket with
  | nil => exact Or.inr (Nat.zero_le bucket)
  | cons d ds ih =>
      rcases Nat.lt_or_ge bucket (Bucket.share d.percentage) with hlt | hge
      · exact Or.inl ⟨[], d, ds, rfl, Nat.zero_le bucket, by rw [taken]; simpa using hlt⟩
      · rcases ih (bucket - Bucket.share d.percentage) with ⟨before, e, after, hds, hle, hlt⟩ | hle
        · refine Or.inl ⟨d :: before, e, after, by rw [hds]; rfl, ?_, ?_⟩ <;> rw [taken_cons] <;> omega
        · exact Or.inr (by rw [taken_cons]; omega)

/-! ### Rules -/

namespace Rule

variable {r : Rule} {flag : String} {rank : ℕ}

/-- A rule that was checked gives away what is above zero. -/
theorem shares_eq (h : r.check flag rank = .ok ()) : r.shares = r.positive := by
  obtain ⟨hps, -⟩ := of_check h
  refine List.filter_congr fun d hd => ?_
  obtain ⟨hfinite, -⟩ := (Single.isPercentage_iff _).1 (hps _ (List.mem_map_of_mem hd))
  have hzero : Floating.Finite (Floating.ofNat 0 : Single) := .of ..
  rw [Bool.eq_iff_iff, Single.isPositive, Floating.lt_iff hzero hfinite, Single.toRat_ofNat_zero,
    decide_eq_true_iff]

/-- What a rule that was checked gives away fits into the buckets. -/
theorem taken_positive_le (h : r.check flag rank = .ok ()) : taken r.positive ≤ Bucket.count := by
  -- the distributions above zero are some of those whose shares fit
  have hsub : (r.positive.map fun d => Bucket.share d.percentage).Sublist
      (r.distributions.map fun d => Bucket.share d.percentage) := List.filter_sublist.map _
  have hall := sum_share_le h
  rw [percentages, sum_shares] at hall
  exact (hsub.sum_le_sum fun _ _ => Nat.zero_le _).trans hall

/-- A rule that does not decide passes. -/
theorem passes_of_not_decides {e : Entity} (h : ¬r.Decides e) : r.operator.Passes r.segments e := by
  rw [Decides, not_or] at h
  rcases SegmentOperator.fails_or_holds_or_passes r.operator r.segments e with hf | hk | hp
  · exact absurd hf h.1
  · exact absurd hk h.2
  · exact hp

/-- A rule that decides says something. -/
theorem exists_reading {request : Request} (h : r.Decides request.entity) (flag : String) :
    ∃ a, r.Reading flag request a := by
  rcases h with ⟨f, hf⟩ | ⟨keys, hkeys⟩
  · exact ⟨_, .fault hf⟩
  · by_cases hnone : r.positive = []
    · exact ⟨_, .unshared hkeys hnone⟩
    · rcases split_or_past r.positive (Bucket.ofVariant request.flag request.entity.id) with
        ⟨before, d, after, hsplit, hle, hlt⟩ | hle
      · exact ⟨_, .owned hkeys hsplit hle hlt⟩
      · exact ⟨_, .past hkeys hnone hle⟩

end Rule

/-! ### Flags -/

namespace FlagInfo

variable {i : FlagInfo} {request : Request}

/-- The evaluation goes past a rule that does not decide. -/
theorem byRules_of_not_decides {r : Rule} (h : ¬r.Decides request.entity) (k : ℕ)
    (rs : List (Ranked Rule)) : i.byRules request (⟨k, r⟩ :: rs) = i.byRules request rs := by
  rw [byRules, SegmentOperator.combine?_of_passes (Rule.passes_of_not_decides h)]

/-- A rule that decides ends the evaluation with what it says. -/
theorem byRules_of_reading {r : Rule} {rank : ℕ} (h : r.check i.key rank = .ok ())
    {a : Except Failure VariantAnswer} (ha : r.Reading i.key request a) (k : ℕ)
    (rs : List (Ranked Rule)) :
    (i.byRules request (⟨k, r⟩ :: rs)).mapError (·.failure) = a := by
  have hfit : taken r.positive < 2 ^ 32 := lt_of_le_of_lt (Rule.taken_positive_le h) (by decide)
  rw [byRules]
  cases ha with
  | fault hfails =>
      rw [SegmentOperator.combine?_of_fails hfails]
      rfl
  | unshared hkeys hnone =>
      rw [SegmentOperator.combine?_of_holds hkeys]
      simp only [Rule.answer, Rule.shares_eq h, hnone]
      rfl
  | @owned keys before after d hkeys hsplit hle hlt =>
      have hsome : r.positive.isEmpty = false := by simp [hsplit]
      rw [SegmentOperator.combine?_of_holds hkeys]
      simp only [Rule.answer, Rule.shares_eq h, hsome, ownerOf_split request hfit hsplit hle hlt]
      rfl
  | past hkeys hsome hle =>
      have hsome : r.positive.isEmpty = false := by simpa using hsome
      rw [SegmentOperator.combine?_of_holds hkeys]
      simp only [Rule.answer, Rule.shares_eq h, hsome, ownerOf_past request hfit hle]
      rfl

/-- The first rule that decides ends the evaluation with what it says. -/
theorem byRules_of_first {r : Rule} {rs : List Rule} (hr : First (Rule.Decides request.entity) r rs)
    (hcheck : ∃ rank, r.check i.key rank = .ok ()) {a : Except Failure VariantAnswer}
    (ha : r.Reading i.key request a) (k : ℕ) :
    (i.byRules request (rankFrom k rs)).mapError (·.failure) = a := by
  obtain ⟨rank, hcheck⟩ := hcheck
  -- only the rule that decides is looked into, so no other has to have been checked
  induction hr generalizing k with
  | here _ => exact byRules_of_reading hcheck ha k _
  | later hb _ ih =>
      rw [rankFrom, byRules_of_not_decides hb]
      exact ih (k + 1)

/-- If no rule decides, the default is the answer. -/
theorem byRules_of_none {rs : List Rule} (h : ∀ r ∈ rs, ¬r.Decides request.entity) (k : ℕ) :
    i.byRules request (rankFrom k rs) = .ok i.defaultAnswer := by
  induction rs generalizing k with
  | nil => rfl
  | cons r rs ih =>
      rw [rankFrom, byRules_of_not_decides (h r (List.mem_cons_self ..))]
      exact ih (fun q hq => h q (List.mem_cons_of_mem _ hq)) (k + 1)

end FlagInfo

namespace Flag

variable {f : Flag} {request : Request}

/-- Every request gets something from every flag. -/
theorem exists_reading (f : Flag) (request : Request) : ∃ a, f.Reading request a := by
  cases henabled : f.enabled with
  | false => exact ⟨_, .disabled henabled⟩
  | true =>
      rcases First.exists_or_none (Rule.Decides request.entity) f.rules with ⟨r, hr⟩ | hnone
      · obtain ⟨a, ha⟩ := Rule.exists_reading hr.holds f.key
        exact ⟨a, .ruled henabled hr ha⟩
      · cases hdefault : f.defaultVariant with
        | none => exact ⟨_, .nothing henabled hnone hdefault⟩
        | some v => exact ⟨_, .fallback henabled hnone hdefault⟩

/-- **A flag that was checked answers what can be read off.** -/
theorem variant_of_reading (h : f.check = .ok ()) {a : Except Failure VariantAnswer}
    (ha : f.Reading request a) : (f.compile.variant request).mapError (·.failure) = a := by
  have henabled_eq : f.compile.info.enabled = f.enabled := rfl
  have hdefault_eq : f.compile.info.defaultVariant = f.defaultVariant := rfl
  have hrules : f.compile.rules = rankFrom 1 f.rules := rfl
  rw [CompiledFlag.variant, henabled_eq]
  cases ha with
  | disabled henabled =>
      rw [henabled]
      rfl
  | ruled henabled hr ha =>
      rw [henabled, if_pos rfl]
      exact FlagInfo.byRules_of_first hr (check_rule h hr.mem) ha 1
  | fallback henabled hnone hdefault =>
      rw [henabled, if_pos rfl, hrules, FlagInfo.byRules_of_none hnone, FlagInfo.defaultAnswer,
        hdefault_eq, hdefault]
      rfl
  | nothing henabled hnone hdefault =>
      rw [henabled, if_pos rfl, hrules, FlagInfo.byRules_of_none hnone, FlagInfo.defaultAnswer,
        hdefault_eq, hdefault]
      rfl

end Flag

/-! ### Evaluators -/

/-- The answer for a variant flag of a document that is served is the one of the flag. -/
theorem Evaluator.variant_of_serves {e : Evaluator} {d : Document} {f : Flag} {request : Request}
    (h : e.Serves d) (hf : f ∈ d.flags) (hkey : f.key = request.flag) (hkind : f.kind = .variant) :
    e.variant request = (f.compile.variant request).mapError (·.failure) := by
  have hget : e.get? request.flag = some f.compile := by
    rw [← hkey]
    exact h.get? hf
  have hinfo : f.compile.info.kind = .variant := hkind
  rw [variant, unlessFailed, h.sound]
  simp only [hget, hinfo, if_true]

/-- What can be read off a document that is served is answered. -/
theorem Evaluator.variant_of_reading {ns : String} {d : Document} {s : Snapshot} {f : Flag}
    {request : Request} (hbuild : Snapshot.build ns d = .ok s) (hfits : d.Fits ns) (hf : f ∈ d.flags)
    (hkey : f.key = request.flag) (hkind : f.kind = .variant) {a : Except Failure VariantAnswer}
    (ha : f.Reading request a) : (Evaluator.new ns s).variant request = a := by
  have hserves : (Evaluator.new ns s).Serves d := ⟨hbuild, hfits, rfl⟩
  rw [variant_of_serves hserves hf hkey hkind]
  exact Flag.variant_of_reading (hserves.check_flag hf) ha

/-- **A flag of a document that is served answers what can be read off the document**, and nothing else. -/
theorem Evaluator.variant_iff_reading {e : Evaluator} {d : Document} {f : Flag} {request : Request}
    (hbuild : Snapshot.build e.space d = .ok e.snapshot) (herror : e.error = none)
    (hfits : d.Fits e.space) (hf : f ∈ d.flags) (hkey : f.key = request.flag)
    (hkind : f.kind = .variant) (a : Except Failure VariantAnswer) :
    e.variant request = a ↔ f.Reading request a := by
  have hget : e.get? request.flag = some f.compile := by
    rw [← hkey]
    exact Snapshot.get?_of_build hbuild hfits hf
  have hinfo : f.compile.info.kind = .variant := hkind
  have hvariant : e.variant request = (f.compile.variant request).mapError (·.failure) := by
    rw [variant, unlessFailed, herror]
    simp only [hget, hinfo, if_true]
  have hcheck : f.check = .ok () := (Snapshot.build_ok hbuild).2.2 f hf
  rw [hvariant]
  -- an answer that can be read off is the one given, so that there is one makes it the only one
  constructor
  · rintro rfl
    obtain ⟨a, ha⟩ := f.exists_reading request
    rwa [Flag.variant_of_reading hcheck ha]
  · exact fun ha => Flag.variant_of_reading hcheck ha

/-- A rule that gives everything to one variant. -/
theorem Evaluator.variant_iff_reading_whole :
    let f : Flag := ⟨"f", "F", .variant, none, true,
      [⟨[⟨"s", .all, []⟩], .or, [⟨"v", Floating.ofNat 100, none⟩]⟩], [], none⟩
    let d : Document := ⟨⟨"", none⟩, [f]⟩
    let e : Evaluator := ⟨"ns", .ofDocument ⟨⟨"ns", none⟩, [f]⟩, none⟩
    let request : Request := ⟨"f", ⟨"e", ⟨[]⟩⟩⟩
    let a : Except Failure VariantAnswer := .ok ⟨true, ["s"], .matched, "f", "v", ""⟩
    Snapshot.build e.space d = .ok e.snapshot ∧ e.error = none ∧ d.Fits e.space ∧ f ∈ d.flags ∧
      f.key = request.flag ∧ f.kind = .variant ∧ (e.variant request = a ↔ f.Reading request a) := by
  intro f d e request a
  have hbuild : Snapshot.build e.space d = .ok e.snapshot := by decide +kernel
  have hfits : d.Fits e.space := Or.inl rfl
  have hf : f ∈ d.flags := List.mem_singleton_self f
  exact ⟨hbuild, rfl, hfits, hf, rfl, rfl, variant_iff_reading hbuild rfl hfits hf rfl rfl a⟩

end FeatureFlags
