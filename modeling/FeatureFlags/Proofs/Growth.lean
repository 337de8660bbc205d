/-
**What growing a rollout leaves as it was.**

A share grows with its percentage: the product is rounded to a number of the format, and rounding does not
turn the order of two values around.  The distributions of a rule take the buckets from the first on, so a
larger last distribution, or another one behind it, takes buckets that belonged to nobody; whoever had a
variant keeps it.  A threshold that is raised applies to whom it applied before and to others besides, and
it can only take the word from rollouts behind it.

Main definitions:

* `Rollout.Raised`, `Rule.Extended` — a rollout with a larger threshold, and a rule that gives away more;
* `Document.Replaces` — a document with another flag in the place of one;
* `Flag.Gives` — **a distribution that is selected for a request**.

Main results:

* `Floating.IsNearest.toRat_le`, `Bucket.share_le_share` — shares grow with their percentages;
* `Rule.Extended.ownerOf_eq` — the owner of a bucket keeps it;
* `First.exchange` — the first item with a property when one item is exchanged;
* `Snapshot.get?_of_replaces` — what is found of the other flags when one flag is replaced;
* `Evaluator.growth_keeps` — **who was decided about, or was given a variant, keeps it.**
-/
import FeatureFlags.Proofs.BooleanReading
import FeatureFlags.Proofs.VariantReading

set_option autoImplicit false

namespace FeatureFlags

open Floating (IsNearest)

/-! ### Shares -/

/-- What is no nearer to the smaller of two numbers than to the greater is not below their middle. -/
theorem middle_le_of_nearer {a b x : ℚ} (hlt : a < b) (h : |b - x| ≤ |a - x|) : a + b ≤ 2 * x := by
  have hsq : (b - x) ^ 2 ≤ (a - x) ^ 2 := sq_le_sq.2 h
  nlinarith

/-- What is no nearer to the greater of two numbers than to the smaller is not above their middle. -/
theorem le_middle_of_nearer {a b x : ℚ} (hlt : a < b) (h : |a - x| ≤ |b - x|) : 2 * x ≤ a + b := by
  have hsq : (a - x) ^ 2 ≤ (b - x) ^ 2 := sq_le_sq.2 h
  nlinarith

/-- Of two different values, the greater one has no smaller nearest number. -/
theorem Floating.IsNearest.toRat_le {f : Format} {x x' : ℚ} {y y' : Floating f} (h : IsNearest x y)
    (h' : IsNearest x' y') (hlt : x < x') : y.toRat ≤ y'.toRat := by
  by_contra hgt
  rw [not_le] at hgt
  -- otherwise the middle of both numbers would lie between the values, the wrong way round
  have hlow := middle_le_of_nearer hgt (h.nearest y' h'.representable)
  have hhigh := le_middle_of_nearer hgt (h'.nearest y h.representable)
  linarith

/-- A larger percentage has no smaller share. -/
theorem Bucket.share_le_share {p q : Single} (hp : Single.isPercentage p = true)
    (hq : Single.isPercentage q = true) (hlt : p.toRat < q.toRat) : share p ≤ share q := by
  have hnear := (roundsTo_tenfold hp).isNearest (by decide) (representable_tenfold hp)
  have hnear' := (roundsTo_tenfold hq).isNearest (by decide) (representable_tenfold hq)
  rw [share_eq_floor hp, share_eq_floor hq]
  exact Nat.floor_mono (hnear.toRat_le hnear' (by linarith))

/-- The owner of a bucket stands behind distributions that end before it, and ends after it. -/
theorem exists_split_of_ownerOf {ds : List Distribution} {request : Request} (h : taken ds < 2 ^ 32)
    {v : Distribution} (howner : ownerOf ds request = some v) :
    ∃ before after, ds = before ++ v :: after ∧
      taken before ≤ Bucket.ofVariant request.flag request.entity.id ∧
      Bucket.ofVariant request.flag request.entity.id < taken before + Bucket.share v.percentage := by
  rcases split_or_past ds (Bucket.ofVariant request.flag request.entity.id) with
    ⟨before, w, after, hsplit, hle, hlt⟩ | hpast
  · rw [ownerOf_split request h hsplit hle hlt] at howner
    cases howner
    exact ⟨before, after, hsplit, hle, hlt⟩
  · rw [ownerOf_past request h hpast] at howner
    cases howner

/-! ### Rules that give away more -/

/-- A rule, and the same with a larger last distribution or with another one behind it. -/
inductive Rule.Extended (r : Rule) : Rule → Prop
  | raised {ds : List Distribution} {v : Distribution} {p : Single} :
      r.distributions = ds ++ [v] → v.percentage.lt p = true →
      Extended r { r with distributions := ds ++ [{ v with percentage := p }] }
  | appended (v : Distribution) : Extended r { r with distributions := r.distributions ++ [v] }

/-- Some distributions that give away more than others: there are more of them, or the last is larger. -/
inductive Outgrows : List Distribution → List Distribution → Prop
  | behind (ds more : List Distribution) : Outgrows ds (ds ++ more)
  | last (ds : List Distribution) {v : Distribution} {p : Single} :
      Bucket.share v.percentage ≤ Bucket.share p →
      Outgrows (ds ++ [v]) (ds ++ [{ v with percentage := p }])

/-- **The owner of a bucket keeps it**, as the same variant with the same attachment. -/
theorem Outgrows.ownerOf_eq {ds ds' : List Distribution} (hgrow : Outgrows ds ds') {request : Request}
    (h : taken ds < 2 ^ 32) (h' : taken ds' < 2 ^ 32) {v : Distribution}
    (howner : ownerOf ds request = some v) :
    ∃ w, ownerOf ds' request = some w ∧ w.variant = v.variant ∧ w.attachment = v.attachment := by
  obtain ⟨before, after, hsplit, hle, hlt⟩ := exists_split_of_ownerOf h howner
  cases hgrow with
  | behind _ more =>
      have hsplit' : ds ++ more = before ++ v :: (after ++ more) := by simp [hsplit]
      exact ⟨v, ownerOf_split request h' hsplit' hle hlt, rfl, rfl⟩
  | @last ds u p hshare =>
      rcases List.eq_nil_or_concat after with rfl | ⟨middle, w, rfl⟩
      · -- the owner is the last one, which only ends later
        obtain ⟨rfl, hlast⟩ := List.append_inj' hsplit rfl
        cases hlast
        have hlt' := hlt.trans_le (Nat.add_le_add_left hshare _)
        exact ⟨_, ownerOf_split request h' rfl hle hlt', rfl, rfl⟩
      · have hsplit : ds ++ [u] = (before ++ v :: middle) ++ [w] := by simpa using hsplit
        obtain ⟨rfl, -⟩ := List.append_inj' hsplit rfl
        have hsplit' : before ++ v :: middle ++ [{ u with percentage := p }] =
            before ++ v :: (middle ++ [{ u with percentage := p }]) := by simp
        exact ⟨v, ownerOf_split request h' hsplit' hle hlt, rfl, rfl⟩

namespace Rule.Extended

variable {r r' : Rule}

theorem segments_eq (h : r.Extended r') : r'.segments = r.segments := by
  cases h <;> rfl

theorem operator_eq (h : r.Extended r') : r'.operator = r.operator := by
  cases h <;> rfl

/-- Whether a rule decides does not depend on what it gives away. -/
theorem decides_iff (h : r.Extended r') (e : Entity) : r.Decides e ↔ r'.Decides e := by
  rw [Decides, Decides, h.segments_eq, h.operator_eq]

variable {flag : String} {rank rank' : ℕ} (hcheck : r.check flag rank = .ok ())
  (hcheck' : r'.check flag rank' = .ok ())
include hcheck hcheck'

/-- What an extended rule gives away outgrows what the rule gave away before. -/
theorem outgrows (h : r.Extended r') : Outgrows r.positive r'.positive := by
  cases h with
  | appended v =>
      rw [positive, positive, List.filter_append]
      exact .behind _ _
  | @raised ds v p hds hlt =>
      obtain ⟨hps, -⟩ := of_check hcheck
      obtain ⟨hps', -⟩ := of_check hcheck'
      have hv : Single.isPercentage v.percentage = true :=
        hps _ (List.mem_map_of_mem (by simp [hds]))
      have hp : Single.isPercentage p = true :=
        hps' _ (List.mem_map_of_mem (f := (·.percentage)) (a := { v with percentage := p }) (by simp))
      obtain ⟨hfinite, hnonneg, -⟩ := (Single.isPercentage_iff _).1 hv
      obtain ⟨hfinite', -, -⟩ := (Single.isPercentage_iff _).1 hp
      have hlt := (Floating.lt_iff hfinite hfinite').1 hlt
      have hpos : 0 < p.toRat := hnonneg.trans_lt hlt
      rw [positive, positive, hds, List.filter_append, List.filter_append]
      have hlast : ([{ v with percentage := p }] : List Distribution).filter
          (fun d => 0 < d.percentage.toRat) = [{ v with percentage := p }] := by simp [hpos]
      rw [hlast]
      -- a distribution that gave nothing away is not there before, and is a new one afterwards
      by_cases hzero : 0 < v.percentage.toRat
      · simpa [hzero] using Outgrows.last _ (Bucket.share_le_share hv hp hlt)
      · simpa [hzero] using Outgrows.behind _ _

/-- The owner of a bucket keeps it when a rule is extended. -/
theorem ownerOf_eq (h : r.Extended r') {request : Request} {v : Distribution}
    (howner : ownerOf r.shares request = some v) :
    ∃ w, ownerOf r'.shares request = some w ∧ w.variant = v.variant ∧ w.attachment = v.attachment := by
  have hfits {q : Rule} {k : ℕ} (hq : q.check flag k = .ok ()) : taken q.positive < 2 ^ 32 :=
    lt_of_le_of_lt (taken_positive_le hq) (by decide)
  rw [shares_eq hcheck] at howner
  rw [shares_eq hcheck']
  exact (h.outgrows hcheck hcheck').ownerOf_eq (hfits hcheck) (hfits hcheck') howner

end Rule.Extended

/-! ### Exchanging one item -/

namespace First

variable {α : Type} {p : α → Prop} {a b b' : α} {before after : List α}

/-- An item with a property is the first one if none before it has the property. -/
theorem of_split (hb : p b) (hbefore : ∀ q ∈ before, ¬p q) : First p b (before ++ b :: after) := by
  induction before with
  | nil => exact .here hb
  | cons c before ih =>
      rw [List.forall_mem_cons] at hbefore
      exact .later hbefore.1 (ih hbefore.2)

/-- If one item is exchanged for another that has the property exactly if it has, the first item with the
property stays what it was, or it was the one and is the other. -/
theorem exchange (h : First p a (before ++ b :: after)) (hb : p b ↔ p b') :
    First p a (before ++ b' :: after) ∨ a = b ∧ First p b' (before ++ b' :: after) := by
  induction before with
  | nil =>
      cases h with
      | here ha => exact Or.inr ⟨rfl, .here (hb.1 ha)⟩
      | later hnot h => exact Or.inl (.later (fun h' => hnot (hb.2 h')) h)
  | cons c before ih =>
      cases h with
      | here ha => exact Or.inl (.here ha)
      | later hnot h =>
          rcases ih h with hfirst | ⟨rfl, hfirst⟩
          · exact Or.inl (.later hnot hfirst)
          · exact Or.inr ⟨rfl, .later hnot hfirst⟩

end First

/-! ### Rollouts whose threshold is raised -/

/-- A rollout with a threshold for a value, and the same with a larger percentage. -/
inductive Rollout.Raised (r : Rollout) : Rollout → Bool → Prop
  | threshold {t : Threshold} {p : Single} : r.threshold = some t → t.percentage.lt p = true →
      Raised r { r with threshold := some { t with percentage := p } } t.value

namespace Rollout

variable {r r' : Rollout} {request : Request} {b : Bool} {t : Threshold}

/-- A rollout with a threshold can always be evaluated. -/
theorem not_fails_of_threshold (ht : r.threshold = some t) (v : ValueFault) : ¬r.Fails request v := by
  rintro ⟨hnone, -, -⟩
  rw [ht] at hnone
  cases hnone

/-- A rollout with a threshold applies to those who stand below it, with its value. -/
theorem appliesTo_iff_of_threshold (ht : r.threshold = some t) : r.AppliesTo request b ↔
    (percentile request.entity.id request.flag : ℚ) < t.percentage.toRat ∧ b = t.value := by
  constructor
  · intro h
    cases h with
    | threshold ht' hlt =>
        rw [ht] at ht'
        cases ht'
        exact ⟨hlt, rfl⟩
    | segment hnone _ _ =>
        rw [ht] at hnone
        cases hnone
  · rintro ⟨hlt, rfl⟩
    exact .threshold ht hlt

/-- Two rollouts say the same to a request. -/
structure Agrees (r r' : Rollout) (request : Request) : Prop where
  fails : ∀ v, r.Fails request v ↔ r'.Fails request v
  applies : ∀ b, r.AppliesTo request b ↔ r'.AppliesTo request b

theorem Agrees.decides_iff (h : r.Agrees r' request) : r.Decides request ↔ r'.Decides request := by
  simp only [Decides, h.fails, h.applies]

/-- A rollout whose threshold is raised says the same to a request as before, or it applies to the request
now and did not decide about it before. -/
theorem Raised.agrees_or_gains (h : r.Raised r' b) (hr : r.Sound) (hr' : r'.Sound) (request : Request) :
    r.Agrees r' request ∨ ¬r.Decides request ∧ r'.AppliesTo request b := by
  cases h with
  | @threshold t p ht hlt =>
      have ht' : (Rollout.mk r.description r.segment (some { t with percentage := p })).threshold =
          some { t with percentage := p } := rfl
      have hlt := (Floating.lt_iff (hr t ht).finite (hr' _ ht').finite).1 hlt
      by_cases hnew : ¬(percentile request.entity.id request.flag : ℚ) < t.percentage.toRat ∧
          (percentile request.entity.id request.flag : ℚ) < p.toRat
      · refine Or.inr ⟨?_, (appliesTo_iff_of_threshold ht').2 ⟨hnew.2, rfl⟩⟩
        rintro (⟨v, hv⟩ | ⟨c, hc⟩)
        · exact not_fails_of_threshold ht v hv
        · exact hnew.1 ((appliesTo_iff_of_threshold ht).1 hc).1
      · -- whoever stands below one of both percentages stands below the other
        have hsame : (percentile request.entity.id request.flag : ℚ) < t.percentage.toRat ↔
            (percentile request.entity.id request.flag : ℚ) < p.toRat :=
          ⟨fun hbelow => hbelow.trans hlt, fun hbelow => by_contra fun hnot => hnew ⟨hnot, hbelow⟩⟩
        refine Or.inl ⟨fun v => iff_of_false (not_fails_of_threshold ht v)
          (not_fails_of_threshold ht' v), fun c => ?_⟩
        rw [appliesTo_iff_of_threshold ht, appliesTo_iff_of_threshold ht', hsame]

end Rollout

namespace Flag.BooleanReading

variable {f : Flag} {request : Request} {r r' : Rollout} {before after : List Rollout}
  {a : Except Failure BooleanAnswer}

/-- A rollout can be exchanged for another that says the same. -/
theorem exchange (h : f.BooleanReading request a) (hf : f.rollouts = before ++ r :: after)
    (hagrees : r.Agrees r' request) :
    { f with rollouts := before ++ r' :: after }.BooleanReading request a := by
  cases h with
  | fault hfirst hv =>
      rw [hf] at hfirst
      rcases hfirst.exchange hagrees.decides_iff with hsame | ⟨rfl, hother⟩
      · exact .fault hsame hv
      · exact .fault hother ((hagrees.fails _).1 hv)
  | matched hfirst hb =>
      rw [hf] at hfirst
      rcases hfirst.exchange hagrees.decides_iff with hsame | ⟨rfl, hother⟩
      · exact .matched hsame hb
      · exact .matched hother ((hagrees.applies _).1 hb)
  | fallback hnone =>
      rw [hf] at hnone
      refine .fallback fun q hq => ?_
      rcases List.mem_append.1 hq with hq | hq
      · exact hnone q (List.mem_append_left _ hq)
      · rcases List.mem_cons.1 hq with rfl | hq
        · rw [← hagrees.decides_iff]
          exact hnone r (by simp)
        · exact hnone q (List.mem_append_right _ (List.mem_cons_of_mem _ hq))

/-- **When the threshold of a rollout is raised**, the answer stays the same, or it becomes the value of the
rollout and no rollout up to this one decided before. -/
theorem raised {b : Bool} (h : f.BooleanReading request a) (hf : f.rollouts = before ++ r :: after)
    (hraised : r.Raised r' b) (hr : r.Sound) (hr' : r'.Sound) :
    { f with rollouts := before ++ r' :: after }.BooleanReading request a ∨
      (∀ q ∈ before ++ [r], ¬q.Decides request) ∧
        { f with rollouts := before ++ r' :: after }.BooleanReading request
          (.ok ⟨b, f.key, .matched⟩) := by
  rcases hraised.agrees_or_gains hr hr' request with hagrees | ⟨hnot, happlies⟩
  · exact Or.inl (h.exchange hf hagrees)
  · rcases First.exists_or_none (Rollout.Decides request) before with ⟨q, hq⟩ | hbefore
    · -- a rollout before this one decides, whatever stands behind it
      obtain ⟨first, second, rfl, -⟩ := hq.exists_split
      have hsplit : f.rollouts = first ++ q :: (second ++ r :: after) := by simp [hf]
      have hsame := h.congr_behind hsplit hq.holds (second ++ r' :: after)
      have hrollouts : first ++ q :: (second ++ r' :: after) =
          (first ++ q :: second) ++ r' :: after := by simp
      rw [hrollouts] at hsame
      exact Or.inl hsame
    · refine Or.inr ⟨?_, .matched (First.of_split (Or.inr ⟨b, happlies⟩) hbefore) happlies⟩
      rw [List.forall_mem_append, List.forall_mem_singleton]
      exact ⟨hbefore, hnot⟩

end Flag.BooleanReading

/-! ### Distributions that are selected -/

/-- A distribution is selected for a request: the flag is enabled, the first rule that decides holds with
some segments, and of what this rule gives away the distribution owns the bucket of the entity. -/
inductive Flag.Gives (f : Flag) (request : Request) (keys : List String) (v : Distribution) : Prop
  | selected {r : Rule} : f.enabled = true → First (Rule.Decides request.entity) r f.rules →
      r.operator.Holds r.segments request.entity keys → ownerOf r.shares request = some v →
      Gives f request keys v

namespace Flag.Gives

variable {f : Flag} {request : Request} {keys : List String} {v : Distribution}

/-- A distribution that is selected is in the answer. -/
theorem reading (h : f.Gives request keys v) (hcheck : f.check = .ok ()) :
    f.Reading request (.ok ⟨true, keys, .matched, f.key, v.variant, v.attachment.getD ""⟩) := by
  obtain ⟨henabled, hfirst, hkeys, howner⟩ := h
  obtain ⟨rank, hrule⟩ := check_rule hcheck hfirst.mem
  rw [Rule.shares_eq hrule] at howner
  have hfits := lt_of_le_of_lt (Rule.taken_positive_le hrule) (by decide : Bucket.count < 2 ^ 32)
  obtain ⟨before, after, hsplit, hle, hlt⟩ := exists_split_of_ownerOf hfits howner
  exact .ruled henabled hfirst (.owned hkeys hsplit hle hlt)

/-- A selection stays what it is when a rule of the flag is extended. -/
theorem extended (h : f.Gives request keys v) (hcheck : f.check = .ok ()) {before after : List Rule}
    {r r' : Rule} (hf : f.rules = before ++ r :: after) (hextended : r.Extended r')
    (hcheck' : { f with rules := before ++ r' :: after }.check = .ok ()) :
    ∃ w, { f with rules := before ++ r' :: after }.Gives request keys w ∧
      w.variant = v.variant ∧ w.attachment = v.attachment := by
  obtain ⟨henabled, hfirst, hkeys, howner⟩ := h
  have hsplit := hfirst
  rw [hf] at hsplit
  rcases hsplit.exchange (hextended.decides_iff request.entity) with hsame | ⟨rfl, hother⟩
  · -- another rule decided, and still does
    exact ⟨v, .selected henabled hsame hkeys howner, rfl, rfl⟩
  · have hmem : r' ∈ { f with rules := before ++ r' :: after }.rules := hother.mem
    obtain ⟨rank, hrule⟩ := check_rule hcheck hfirst.mem
    obtain ⟨rank', hrule'⟩ := check_rule hcheck' hmem
    obtain ⟨w, hw, hvariant, hattachment⟩ := hextended.ownerOf_eq hrule hrule' howner
    rw [← hextended.segments_eq, ← hextended.operator_eq] at hkeys
    exact ⟨w, .selected henabled hother hkeys hw, hvariant, hattachment⟩

end Flag.Gives

/-! ### Documents that differ in one flag -/

/-- A document, and the same with another flag in the place of one. -/
inductive Document.Replaces (d : Document) (f f' : Flag) : Document → Prop
  | place {fs gs : List Flag} : d.flags = fs ++ f :: gs →
      Replaces d f f' { d with flags := fs ++ f' :: gs }

namespace Document.Replaces

variable {d d' : Document} {f f' : Flag}

theorem mem (h : d.Replaces f f' d') : f ∈ d.flags := by
  cases h with
  | place hflags => simp [hflags]

theorem mem' (h : d.Replaces f f' d') : f' ∈ d'.flags := by
  cases h with
  | place _ => simp

theorem fits_iff (h : d.Replaces f f' d') (ns : String) : d'.Fits ns ↔ d.Fits ns := by
  cases h
  rfl

end Document.Replaces

/-- In the snapshot of a document that names another namespace nothing is found. -/
theorem Snapshot.get?_of_not_fits {ns key : String} {d : Document} {s : Snapshot}
    (hbuild : build ns d = .ok s) (h : ¬d.Fits ns) : s.get? ns key = none := by
  rw [Document.Fits, not_or] at h
  obtain ⟨hnamed, hother⟩ := h
  have hspace : d.adopt ns = d := if_neg (by simpa using hnamed)
  rw [get?_eq_of_build hbuild, hspace, if_neg hother]

/-- Under the keys of the other flags the same is found when one flag is replaced. -/
theorem Snapshot.get?_of_replaces {ns key : String} {d d' : Document} {s s' : Snapshot} {f f' : Flag}
    (hbuild : build ns d = .ok s) (hbuild' : build ns d' = .ok s') (hreplaces : d.Replaces f f' d')
    (hsame : f'.key = f.key) (hkey : f.key ≠ key) : s'.get? ns key = s.get? ns key := by
  rw [get?_eq_of_build hbuild, get?_eq_of_build hbuild']
  cases hreplaces with
  | @place fs gs hflags =>
      have hspace : ({ d with flags := fs ++ f' :: gs }.adopt ns).space = (d.adopt ns).space := by
        rw [Document.adopt, Document.adopt]
        split <;> rfl
      have hkey' : f'.key ≠ key := by rwa [hsame]
      simp only [hspace, hflags, List.find?_append, List.find?_cons, hkey, hkey', decide_false]

namespace Evaluator

variable {ns : String} {d d' : Document} {s s' : Snapshot} {f f' : Flag} {request : Request}

section

variable (hbuild : Snapshot.build ns d = .ok s) (hbuild' : Snapshot.build ns d' = .ok s')
  (hreplaces : d.Replaces f f' d') (hkey : f.key = request.flag)
include hbuild hbuild' hreplaces

/-- A document that names another namespace answers the same whatever its flags are. -/
theorem eq_of_not_fits (h : ¬d.Fits ns) :
    (new ns s').boolean request = (new ns s).boolean request ∧
      (new ns s').variant request = (new ns s).variant request := by
  have hget : (new ns s).get? request.flag = none := Snapshot.get?_of_not_fits hbuild h
  have hget' : (new ns s').get? request.flag = none :=
    Snapshot.get?_of_not_fits hbuild' fun hfits => h ((hreplaces.fits_iff ns).1 hfits)
  simp only [boolean, variant, hget, hget']
  exact ⟨rfl, rfl⟩

/-- Requests for the other flags get the same when one flag is replaced. -/
theorem eq_of_other_flag (hsame : f'.key = f.key) (hother : f.key ≠ request.flag) :
    (new ns s').boolean request = (new ns s).boolean request ∧
      (new ns s').variant request = (new ns s).variant request := by
  have hget : (new ns s').get? request.flag = (new ns s).get? request.flag :=
    Snapshot.get?_of_replaces hbuild hbuild' hreplaces hsame hother
  simp only [boolean, variant, hget]
  exact ⟨rfl, rfl⟩

include hkey

/-- When the threshold of a rollout is raised, the answer stays the same, or it becomes the value of the
rollout and no rollout up to this one decided before. -/
theorem boolean_of_raised (hkind : f.kind = .boolean) {before after : List Rollout} {r r' : Rollout}
    {b : Bool} (hf : f.rollouts = before ++ r :: after) (hraised : r.Raised r' b)
    (hf' : f' = { f with rollouts := before ++ r' :: after }) :
    (new ns s').boolean request = (new ns s).boolean request ∨
      (∀ q ∈ before ++ [r], ¬q.Decides request) ∧
        (new ns s').boolean request = .ok ⟨b, f.key, .matched⟩ := by
  by_cases hfits : d.Fits ns
  · have hserves : (new ns s).Serves d := ⟨hbuild, hfits, rfl⟩
    have hserves' : (new ns s').Serves d' := ⟨hbuild', (hreplaces.fits_iff ns).2 hfits, rfl⟩
    have hmem := hreplaces.mem
    have hmem' := hreplaces.mem'
    subst hf'
    have hr : r.Sound := (Flag.sound_of_check (hserves.check_flag hmem)).rollouts r (by simp [hf])
    have hr' : r'.Sound := (Flag.sound_of_check (hserves'.check_flag hmem')).rollouts r' (by simp)
    have hreading := (boolean_eq_iff_reading hserves hmem hkey hkind _).1 rfl
    have hanswer := fun a => (boolean_eq_iff_reading hserves' hmem' hkey hkind a).2
    rcases hreading.raised hf hraised hr hr' with hsame | ⟨hnot, hgained⟩
    · exact Or.inl (hanswer _ hsame)
    · exact Or.inr ⟨hnot, hanswer _ hgained⟩
  · exact Or.inl (eq_of_not_fits hbuild hbuild' hreplaces hfits).1

/-- When a rule is extended, a distribution that was selected is in the same answer. -/
theorem variant_of_extended (hkind : f.kind = .variant) {before after : List Rule} {r r' : Rule}
    (hf : f.rules = before ++ r :: after) (hextended : r.Extended r')
    (hf' : f' = { f with rules := before ++ r' :: after }) {keys : List String} {v : Distribution}
    (hgives : f.Gives request keys v) :
    (new ns s').variant request = (new ns s).variant request ∧
      (d.Fits ns → (new ns s).variant request =
        .ok ⟨true, keys, .matched, f.key, v.variant, v.attachment.getD ""⟩) := by
  by_cases hfits : d.Fits ns
  · have hserves : (new ns s).Serves d := ⟨hbuild, hfits, rfl⟩
    have hserves' : (new ns s').Serves d' := ⟨hbuild', (hreplaces.fits_iff ns).2 hfits, rfl⟩
    have hmem := hreplaces.mem
    have hmem' := hreplaces.mem'
    subst hf'
    have hcheck := hserves.check_flag hmem
    have hcheck' := hserves'.check_flag hmem'
    obtain ⟨w, hw, hvariant, hattachment⟩ := hgives.extended hcheck hf hextended hcheck'
    have hanswer := variant_of_reading hbuild hfits hmem hkey hkind (hgives.reading hcheck)
    have hanswer' := variant_of_reading hbuild' hserves'.fits hmem' hkey hkind (hw.reading hcheck')
    rw [hvariant, hattachment] at hanswer'
    exact ⟨hanswer'.trans hanswer.symm, fun _ => hanswer⟩
  · exact ⟨(eq_of_not_fits hbuild hbuild' hreplaces hfits).2, fun h => absurd h hfits⟩

end

/-- **Growing a rollout never reassigns entities.**  When the threshold of a rollout is raised, who was
decided about by it or by an earlier one keeps the answer, and everybody else keeps it or gets the value of
the rollout.  When the last distribution of a rule is raised, or another one comes behind it, whoever was
given a variant keeps it.  Nothing becomes of requests for other flags. -/
theorem growth_keeps (hbuild : Snapshot.build ns d = .ok s) (hbuild' : Snapshot.build ns d' = .ok s')
    (hreplaces : d.Replaces f f' d') :
    (∀ before r r' after b, f.kind = .boolean → f.rollouts = before ++ r :: after → r.Raised r' b →
        f' = { f with rollouts := before ++ r' :: after } → ∀ request : Request, f.key = request.flag →
      ((∃ q ∈ before ++ [r], q.Decides request) →
          (new ns s').boolean request = (new ns s).boolean request) ∧
        ((new ns s').boolean request = (new ns s).boolean request ∨
          (new ns s').boolean request = .ok ⟨b, f.key, .matched⟩)) ∧
      (∀ before r r' after, f.kind = .variant → f.rules = before ++ r :: after → r.Extended r' →
          f' = { f with rules := before ++ r' :: after } → ∀ request : Request, f.key = request.flag →
        ∀ keys v, f.Gives request keys v →
          (new ns s').variant request = (new ns s).variant request ∧
            (d.Fits ns → (new ns s).variant request =
              .ok ⟨true, keys, .matched, f.key, v.variant, v.attachment.getD ""⟩)) ∧
      (f'.key = f.key → ∀ request : Request, f.key ≠ request.flag →
        (new ns s').boolean request = (new ns s).boolean request ∧
          (new ns s').variant request = (new ns s).variant request) := by
  refine ⟨?_, ?_, fun hsame request => eq_of_other_flag hbuild hbuild' hreplaces hsame⟩
  · intro before r r' after b hkind hf hraised hf' request hkey
    rcases boolean_of_raised hbuild hbuild' hreplaces hkey hkind hf hraised hf' with
      hsame | ⟨hnot, hgained⟩
    · exact ⟨fun _ => hsame, Or.inl hsame⟩
    · refine ⟨?_, Or.inr hgained⟩
      rintro ⟨q, hq, hdecides⟩
      exact absurd hdecides (hnot q hq)
  · intro before r r' after hkind hf hextended hf' request hkey keys v hgives
    exact variant_of_extended hbuild hbuild' hreplaces hkey hkind hf hextended hf' hgives

/-- A threshold that is raised from 20 to 50, and a rule whose last distribution is raised from 20 to 40: an
entity that stood below the threshold, and one that had the last variant, keep what they had. -/
theorem growth_keeps_raised :
    let rollout (p : ℕ) : Rollout := ⟨none, none, some ⟨Floating.ofNat p, true⟩⟩
    let rule (p : ℕ) : Rule :=
      ⟨[⟨"all", .all, []⟩], .or, [⟨"a", Floating.ofNat 30, none⟩] ++ [⟨"b", Floating.ofNat p, none⟩]⟩
    let switch (p : ℕ) : Flag := ⟨"f", "F", .boolean, none, false, [], [rollout p], none⟩
    let choice (p : ℕ) : Flag := ⟨"f", "F", .variant, none, true, [rule p], [], none⟩
    let document (f : Flag) : Document := ⟨⟨"", none⟩, [f]⟩
    let evaluator (f : Flag) : Evaluator := new "ns" (.ofDocument ⟨⟨"ns", none⟩, [f]⟩)
    let request (id : String) : Request := ⟨"f", ⟨id, ⟨[]⟩⟩⟩
    (∀ f ∈ [switch 20, switch 50, choice 20, choice 40],
        Snapshot.build "ns" (document f) = .ok (evaluator f).snapshot) ∧
      (evaluator (switch 50)).boolean (request "user-3") =
        (evaluator (switch 20)).boolean (request "user-3") ∧
      (evaluator (switch 20)).boolean (request "user-3") = .ok ⟨true, "f", .matched⟩ ∧
      (evaluator (choice 40)).variant (request "user-5") =
        (evaluator (choice 20)).variant (request "user-5") ∧
      (evaluator (choice 20)).variant (request "user-5") = .ok ⟨true, ["all"], .matched, "f", "b", ""⟩ := by
  intro rollout rule switch choice document evaluator request
  have hbuild : ∀ f ∈ [switch 20, switch 50, choice 20, choice 40],
      Snapshot.build "ns" (document f) = .ok (evaluator f).snapshot := by decide +kernel
  have hreplaces : ∀ f f', (document f).Replaces f f' (document f') := by
    intro f f'
    have hflags : (document f).flags = [] ++ f :: [] := rfl
    exact .place hflags
  have hlarger : (Floating.ofNat 20 : Single).lt (Floating.ofNat 50) = true := by decide +kernel
  have hraised : (rollout 20).Raised (rollout 50) true :=
    .threshold (t := ⟨Floating.ofNat 20, true⟩) rfl hlarger
  have hlast : (Floating.ofNat 20 : Single).lt (Floating.ofNat 40) = true := by decide +kernel
  have hextended : (rule 20).Extended (rule 40) :=
    .raised (r := rule 20) (v := ⟨"b", Floating.ofNat 20, none⟩) (p := Floating.ofNat 40) rfl hlast
  have hbelow : (rollout 20).Decides (request "user-3") := by
    have hpercentage : Single.isPercentage (Floating.ofNat 20) = true := by decide +kernel
    have hbucket : (Bucket.thresholdValue "user-3" "f").lt (Floating.ofNat 20) = true := by
      decide +kernel
    have hlt := (Bucket.thresholdValue_lt_iff "user-3" "f"
      ((Single.isPercentage_iff_percentage _).1 hpercentage)).1 hbucket
    have ht : (rollout 20).threshold = some ⟨Floating.ofNat 20, true⟩ := rfl
    exact Or.inr ⟨true, .threshold ht hlt⟩
  have hgives : (choice 20).Gives (request "user-5") ["all"] ⟨"b", Floating.ofNat 20, none⟩ := by
    have hkeys := SegmentOperator.holds_everybody "all" .all (request "user-5").entity
    exact .selected rfl (.here (Or.inr ⟨_, hkeys⟩)) hkeys (by decide +kernel)
  have hswitch : (switch 20).key = (request "user-3").flag := rfl
  have hchoice : (choice 20).key = (request "user-5").flag := rfl
  obtain ⟨hboolean, -, -⟩ := growth_keeps (hbuild (switch 20) (by simp)) (hbuild (switch 50) (by simp))
    (hreplaces _ _)
  obtain ⟨-, hvariant, -⟩ := growth_keeps (hbuild (choice 20) (by simp)) (hbuild (choice 40) (by simp))
    (hreplaces _ _)
  have hkept := (hboolean [] _ _ [] true rfl rfl hraised rfl _ hswitch).1
    ⟨_, List.mem_singleton_self _, hbelow⟩
  obtain ⟨hsame, hanswer⟩ := hvariant [] _ _ [] rfl rfl hextended rfl _ hchoice _ _ hgives
  exact ⟨hbuild, hkept, by decide +kernel, hsame, hanswer (Or.inl rfl)⟩

end Evaluator

end FeatureFlags
