/-
**Which properties of an entity can matter.**

A constraint looks at one value: at the property that it names, or, whatever property it names, at the
identifier of the entity or at nothing.  So two requests get the same if they are for one flag and one
identifier and give the same value to the properties that constraints of the flag look at; then every
constraint comes to the same for both, down to its fault, and with the constraints the segments, the rules
and the rollouts.  A property that is left out has the empty value, so it can as well be sent empty.

Main definitions:

* `Flag.constraints`, `Flag.properties` — the constraints of a flag, and the properties they look at;
* `Document.Indistinct` — **two requests that a document does not tell apart**;
* `Request.insert` — a request that gives a property a value.

Main results:

* `Constraint.holds_congr`, `Flag.variant_congr`, `Flag.boolean_congr` — what a constraint, and what a flag
  answers to requests that it does not tell apart;
* `Document.indistinct_insert` — a property that no constraint looks at can have any value;
* `Evaluator.indistinct` — **requests that a document does not tell apart get the same.**
-/
import FeatureFlags.Proofs.Batch
import FeatureFlags.Proofs.BooleanReading
import FeatureFlags.Proofs.VariantReading

set_option autoImplicit false

namespace FeatureFlags

/-! ### The constraints of a flag -/

/-- The constraint looks at the property that it names. -/
def Constraint.LooksUp (c : Constraint) : Prop :=
  c.kind = .string ∨ c.kind = .number ∨ c.kind = .boolean ∨ c.kind = .datetime

instance : DecidablePred Constraint.LooksUp := fun c =>
  inferInstanceAs
    (Decidable (c.kind = .string ∨ c.kind = .number ∨ c.kind = .boolean ∨ c.kind = .datetime))

namespace Flag

/-- The segments of the rules and of the rollouts of a flag. -/
def segments (f : Flag) : List Segment :=
  f.rules.flatMap (·.segments) ++ f.rollouts.flatMap fun r => r.segment.toList.flatMap (·.segments)

/-- The constraints of these segments. -/
def constraints (f : Flag) : List Constraint := f.segments.flatMap (·.constraints)

/-- The properties that constraints of a flag look at. -/
def properties (f : Flag) : List String := (f.constraints.filter (·.LooksUp)).map (·.property)

variable {f : Flag} {s : Segment} {c : Constraint}

theorem mem_constraints_of_rule {r : Rule} (hr : r ∈ f.rules) (hs : s ∈ r.segments)
    (hc : c ∈ s.constraints) : c ∈ f.constraints :=
  List.mem_flatMap_of_mem (List.mem_append_left _ (List.mem_flatMap_of_mem hr hs)) hc

theorem mem_constraints_of_rollout {r : Rollout} {o : SegmentRollout} (hr : r ∈ f.rollouts)
    (ho : r.segment = some o) (hs : s ∈ o.segments) (hc : c ∈ s.constraints) : c ∈ f.constraints := by
  have hsegment : s ∈ r.segment.toList.flatMap (·.segments) := by
    rw [ho]
    simpa using hs
  exact List.mem_flatMap_of_mem (List.mem_append_right _ (List.mem_flatMap_of_mem hr hsegment)) hc

theorem mem_properties (hc : c ∈ f.constraints) (h : c.LooksUp) : c.property ∈ f.properties :=
  List.mem_map_of_mem (List.mem_filter.2 ⟨hc, decide_eq_true h⟩)

end Flag

/-! ### Names that nobody looks up -/

/-- The constraint without the name of a property that it does not look at. -/
def Constraint.unnamed (c : Constraint) : Constraint := if c.LooksUp then c else { c with property := "" }

def Segment.unnamed (s : Segment) : Segment := { s with constraints := s.constraints.map (·.unnamed) }

def Rule.unnamed (r : Rule) : Rule := { r with segments := r.segments.map (·.unnamed) }

def SegmentRollout.unnamed (o : SegmentRollout) : SegmentRollout :=
  { o with segments := o.segments.map (·.unnamed) }

def Rollout.unnamed (r : Rollout) : Rollout := { r with segment := r.segment.map (·.unnamed) }

def Flag.unnamed (f : Flag) : Flag :=
  { f with rules := f.rules.map (·.unnamed), rollouts := f.rollouts.map (·.unnamed) }

/-- The document without the names of properties that its constraints do not look at. -/
def Document.unnamed (d : Document) : Document := { d with flags := d.flags.map (·.unnamed) }

/-! ### Entities that look the same -/

/-- Two entities have the same identifier, and the same values of some properties. -/
structure Entity.AgreeOn (properties : List String) (e e' : Entity) : Prop where
  id : e.id = e'.id
  value : ∀ p ∈ properties, e.context.value p = e'.context.value p

theorem Constraint.unnamed_kind (c : Constraint) : c.unnamed.kind = c.kind := by
  rw [unnamed]
  split <;> rfl

/-- **A constraint comes to the same if it looks at the same value**, with or without a name that it does not
look up. -/
theorem Constraint.holds_unnamed {c : Constraint} {e e' : Entity} (hid : e.id = e'.id)
    (hvalue : c.LooksUp → e.context.value c.property = e'.context.value c.property) :
    c.unnamed.holds e' = c.holds e := by
  rw [unnamed]
  split
  · next h =>
      rw [holds, holds]
      cases hkind : c.kind with
      | string | number | boolean | datetime => simp only [subject, hkind, hvalue h]
      | entity => simp only [subject, hkind, hid]
      | unknown => rfl
  · next h =>
      rw [holds, holds]
      cases hkind : c.kind with
      | string => exact absurd (.inl hkind) h
      | number => exact absurd (.inr (.inl hkind)) h
      | boolean => exact absurd (.inr (.inr (.inl hkind))) h
      | datetime => exact absurd (.inr (.inr (.inr hkind))) h
      | entity => simp only [subject, hkind, hid]
      | unknown => rfl

section

variable {e e' : Entity}

theorem MatchType.scan_unnamed {t : MatchType} {cs : List Constraint}
    (h : ∀ c ∈ cs, c.unnamed.holds e' = c.holds e) : t.scan e' (cs.map (·.unnamed)) = t.scan e cs := by
  induction cs with
  | nil => rfl
  | cons c cs ih =>
      rw [List.forall_mem_cons] at h
      rw [List.map_cons, scan, scan, c.unnamed_kind, h.1, ih h.2]

theorem Segment.selects_unnamed {s : Segment} (h : ∀ c ∈ s.constraints, c.unnamed.holds e' = c.holds e) :
    s.unnamed.selects e' = s.selects e := by
  rw [selects, selects, MatchType.accepts, MatchType.accepts, unnamed, List.isEmpty_map,
    MatchType.scan_unnamed h]

namespace SegmentOperator

theorem selecting_unnamed {ss : List Segment} (h : ∀ s ∈ ss, s.unnamed.selects e' = s.selects e) :
    selecting e' (ss.map (·.unnamed)) = (selecting e ss).map (List.map (·.unnamed)) := by
  induction ss with
  | nil => rfl
  | cons s ss ih =>
      rw [List.forall_mem_cons] at h
      rw [List.map_cons, selecting, selecting, h.1, ih h.2]
      cases s.selects e with
      | error x => rfl
      | ok b =>
          cases selecting e ss with
          | error x => rfl
          | ok rest => cases b <;> rfl

/-- Segments combine alike if their constraints come to the same. -/
theorem combine?_unnamed (o : SegmentOperator) {ss : List Segment}
    (h : ∀ s ∈ ss, ∀ c ∈ s.constraints, c.unnamed.holds e' = c.holds e) :
    o.combine? (ss.map (·.unnamed)) e' = o.combine? ss e := by
  rw [combine?, combine?, selecting_unnamed fun s hs => Segment.selects_unnamed (h s hs)]
  cases selecting e ss with
  | error x => rfl
  | ok hits =>
      have hkeys : (hits.map (·.unnamed)).map (·.key) = hits.map (·.key) := by
        rw [List.map_map]
        rfl
      have hsettled : o.settled (ss.map (·.unnamed)) (hits.map (·.unnamed)) = o.settled ss hits := by
        cases o <;> simp [settled]
      simp only [Except.map, hsettled, hkeys]

end SegmentOperator

end

/-! ### Flags -/

namespace FlagInfo

variable {i : FlagInfo} {request request' : Request}

theorem byRules_unnamed (hflag : request.flag = request'.flag)
    (hid : request.entity.id = request'.entity.id) {rs : List Rule}
    (h : ∀ r ∈ rs, r.unnamed.operator.combine? r.unnamed.segments request'.entity =
      r.operator.combine? r.segments request.entity) (k : ℕ) :
    i.byRules request' (rankFrom k (rs.map (·.unnamed))) = i.byRules request (rankFrom k rs) := by
  have hanswer : ∀ (r : Rule) (flag : String) (keys : List String),
      r.unnamed.answer flag keys request' = r.answer flag keys request := by
    intro r flag keys
    have hshares : r.unnamed.shares = r.shares := rfl
    rw [Rule.answer, Rule.answer, ownerOf, ownerOf, hflag, hid, hshares]
  induction rs generalizing k with
  | nil => rfl
  | cons r rs ih =>
      rw [List.forall_mem_cons] at h
      rw [List.map_cons, rankFrom, rankFrom, byRules, byRules, h.1, ih h.2]
      simp only [hanswer]

theorem byRollouts_unnamed {rs : List Rollout}
    (h : ∀ r ∈ rs, r.unnamed.effect.value? request' = r.effect.value? request) (k : ℕ) :
    i.byRollouts request' (rankFrom k ((rs.map (·.unnamed)).map (·.effect))) =
      i.byRollouts request (rankFrom k (rs.map (·.effect))) := by
  induction rs generalizing k with
  | nil => rfl
  | cons r rs ih =>
      rw [List.forall_mem_cons] at h
      rw [List.map_cons, List.map_cons, List.map_cons, rankFrom, rankFrom, byRollouts, byRollouts, h.1,
        ih h.2]

end FlagInfo

/-- A rollout has the same effect if its threshold sees the same entity and its segments combine alike. -/
theorem Rollout.value?_unnamed {r : Rollout} {request request' : Request}
    (hflag : request.flag = request'.flag) (hid : request.entity.id = request'.entity.id)
    (h : ∀ o, r.segment = some o → o.operator.combine? (o.segments.map (·.unnamed)) request'.entity =
      o.operator.combine? o.segments request.entity) :
    r.unnamed.effect.value? request' = r.effect.value? request := by
  rw [unnamed, effect, effect]
  cases r.threshold with
  | some t => simp only [Effect.value?, hflag, hid]
  | none =>
      cases hsegment : r.segment with
      | none => rfl
      | some o => simp only [Option.map_some, SegmentRollout.unnamed, Effect.value?, h o hsegment]

namespace Flag

variable {f : Flag} {request request' : Request}

section

variable (hflag : request.flag = request'.flag)
  (hagree : Entity.AgreeOn f.properties request.entity request'.entity)
include hagree

/-- Every constraint of a flag comes to the same. -/
theorem holds_unnamed {c : Constraint} (hc : c ∈ f.constraints) :
    c.unnamed.holds request'.entity = c.holds request.entity :=
  Constraint.holds_unnamed hagree.id fun h => hagree.value _ (mem_properties hc h)

include hflag

/-- A variant flag answers the same to requests that it does not tell apart. -/
theorem variant_unnamed : f.unnamed.compile.variant request' = f.compile.variant request := by
  have hrules : f.compile.rules = rankFrom 1 f.rules := rfl
  have hrules' : f.unnamed.compile.rules = rankFrom 1 (f.rules.map (·.unnamed)) := rfl
  have hinfo : f.unnamed.compile.info = f.compile.info := rfl
  have hsame : ∀ r ∈ f.rules, r.unnamed.operator.combine? r.unnamed.segments request'.entity =
      r.operator.combine? r.segments request.entity := by
    intro r hr
    refine r.operator.combine?_unnamed fun s hs c hc => ?_
    exact holds_unnamed hagree (mem_constraints_of_rule hr hs hc)
  rw [CompiledFlag.variant, CompiledFlag.variant, hrules, hrules', hinfo,
    FlagInfo.byRules_unnamed hflag hagree.id hsame]

/-- A boolean flag answers the same to requests that it does not tell apart. -/
theorem boolean_unnamed : f.unnamed.compile.boolean request' = f.compile.boolean request := by
  have hrollouts : f.compile.rollouts = rankFrom 1 (f.rollouts.map (·.effect)) := rfl
  have hrollouts' : f.unnamed.compile.rollouts =
      rankFrom 1 ((f.rollouts.map (·.unnamed)).map (·.effect)) := rfl
  have hinfo : f.unnamed.compile.info = f.compile.info := rfl
  rw [CompiledFlag.boolean, CompiledFlag.boolean, hrollouts, hrollouts', hinfo]
  refine FlagInfo.byRollouts_unnamed (fun r hr => ?_) 1
  refine Rollout.value?_unnamed hflag hagree.id fun o ho => ?_
  refine o.operator.combine?_unnamed fun s hs c hc => ?_
  exact holds_unnamed hagree (mem_constraints_of_rollout hr ho hs hc)

end

end Flag

/-! ### Evaluators -/

/-- A document does not tell two requests apart: they are for one flag and one identifier, and the
properties that the flag looks at have the same values. -/
structure Document.Indistinct (d : Document) (request request' : Request) : Prop where
  flag : request.flag = request'.flag
  agree : ∀ f ∈ d.flags, f.key = request.flag →
    Entity.AgreeOn f.properties request.entity request'.entity
  id : request.entity.id = request'.entity.id

/-- A document does not tell a request apart from itself. -/
theorem Document.Indistinct.refl (d : Document) (r : Request) : d.Indistinct r r :=
  ⟨rfl, fun _ _ _ => ⟨rfl, fun _ _ => rfl⟩, rfl⟩

/-- What is found in a snapshot is a flag of its document, under its key. -/
theorem Snapshot.exists_of_get? {ns ns' key : String} {d : Document} {s : Snapshot} {g : CompiledFlag}
    (hbuild : build ns d = .ok s) (h : s.get? ns' key = some g) :
    ∃ f ∈ d.flags, f.compile = g ∧ f.key = key := by
  rw [get?_eq_of_build hbuild] at h
  split at h
  · obtain ⟨f, hf, rfl⟩ := Option.map_eq_some_iff.1 h
    have hkey : f.key = key := by simpa using List.find?_some hf
    exact ⟨f, List.mem_of_find?_eq_some hf, rfl, hkey⟩
  · cases h

/-- All that an evaluator takes from a flag for the answer to a request. -/
def CompiledFlag.outcome (g : CompiledFlag) (request : Request) :
    FlagInfo × Except ValueFault VariantAnswer × Except ValueFault BooleanAnswer :=
  (g.info, g.variant request, g.boolean request)

/-- What the flag that a request is for says to it, if the document is served for a namespace. -/
def Document.outcome (d : Document) (ns ns' : String) (request : Request) :
    Option (FlagInfo × Except ValueFault VariantAnswer × Except ValueFault BooleanAnswer) :=
  if (d.adopt ns).space.key = ns' then
    (d.flags.find? (·.key = request.flag)).map fun f => f.compile.outcome request
  else none

/-- A document says the same without the names that it does not look up, and to a request that it does not
tell apart. -/
theorem Snapshot.outcome_unnamed {ns ns' : String} {d : Document} {s : Snapshot} {request request' : Request}
    (hbuild : build ns d = .ok s) (h : d.Indistinct request request') :
    (s.get? ns' request.flag).map (·.outcome request) = d.unnamed.outcome ns ns' request' := by
  have hspace : (d.unnamed.adopt ns).space = (d.adopt ns).space := by
    have hsame : d.unnamed.space = d.space := rfl
    rw [Document.adopt, Document.adopt, hsame]
    split
    · rfl
    · exact hsame
  have hflags : d.unnamed.flags.find? (·.key = request'.flag) =
      (d.flags.find? (·.key = request.flag)).map (·.unnamed) := by
    rw [Document.unnamed, List.find?_map, h.flag]
    rfl
  simp only [get?_eq_of_build hbuild, Document.outcome, hspace, hflags]
  split
  · cases hfind : d.flags.find? (·.key = request.flag) with
    | none => rfl
    | some f =>
        have hkey : f.key = request.flag := by simpa using List.find?_some hfind
        have hagree := h.agree f (List.mem_of_find?_eq_some hfind) hkey
        simp only [Option.map_some, CompiledFlag.outcome, Flag.variant_unnamed h.flag hagree,
          Flag.boolean_unnamed h.flag hagree]
        rfl
  · rfl

namespace Evaluator

variable {e e' : Evaluator} {request request' : Request}

section

variable (hspace : e'.space = e.space) (herror : e'.error = e.error)
include hspace

/-- Flags that say the same have the same entry in a batch. -/
theorem entry_eq_of_outcome (hflag : request.flag = request'.flag)
    (h : (e'.get? request'.flag).map (·.outcome request') = (e.get? request.flag).map (·.outcome request)) :
    e'.entry request' = e.entry request := by
  rw [entry, entry]
  cases hget : e.get? request.flag with
  | none =>
      rw [hget, Option.map_none, Option.map_eq_none_iff] at h
      simp only [h, hspace, hflag]
  | some g =>
      rw [hget, Option.map_some, Option.map_eq_some_iff] at h
      obtain ⟨g', hget', houtcome⟩ := h
      simp only [CompiledFlag.outcome, Prod.mk.injEq] at houtcome
      obtain ⟨hinfo, hvariant, hboolean⟩ := houtcome
      simp only [hget', hinfo, hvariant, hboolean]

include herror

/-- Flags that say the same are answered alike. -/
theorem eq_of_outcome (hflag : request.flag = request'.flag)
    (h : (e'.get? request'.flag).map (·.outcome request') = (e.get? request.flag).map (·.outcome request)) :
    e'.variant request' = e.variant request ∧ e'.boolean request' = e.boolean request := by
  rw [variant, variant, boolean, boolean, unlessFailed, unlessFailed, unlessFailed, unlessFailed, herror]
  cases hget : e.get? request.flag with
  | none =>
      rw [hget, Option.map_none, Option.map_eq_none_iff] at h
      simp only [h, hspace, hflag, and_self]
  | some g =>
      rw [hget, Option.map_some, Option.map_eq_some_iff] at h
      obtain ⟨g', hget', houtcome⟩ := h
      simp only [CompiledFlag.outcome, Prod.mk.injEq] at houtcome
      obtain ⟨hinfo, hvariant, hboolean⟩ := houtcome
      simp only [hget', hinfo, hvariant, hboolean, hflag, and_self]

end

section

variable {ns : String} {d d' : Document} (hbuild : Snapshot.build ns d = .ok e.snapshot)
  (hbuild' : Snapshot.build ns d' = .ok e'.snapshot) (hunnamed : d'.unnamed = d.unnamed)
  (hspace : e'.space = e.space) (herror : e'.error = e.error)
include hbuild hbuild' hunnamed hspace

/-- Two documents that differ only in names that they do not look up say the same to requests that one of
them does not tell apart. -/
theorem outcome_eq (h : d.Indistinct request request') :
    (e'.get? request'.flag).map (·.outcome request') = (e.get? request.flag).map (·.outcome request) := by
  rw [get?, get?, Snapshot.outcome_unnamed hbuild h,
    Snapshot.outcome_unnamed hbuild' (Document.Indistinct.refl d' request'), hunnamed, hspace]

theorem entry_congr (h : d.Indistinct request request') : e'.entry request' = e.entry request :=
  entry_eq_of_outcome hspace h.flag (outcome_eq hbuild hbuild' hunnamed hspace h)

include herror

theorem answers_congr (h : d.Indistinct request request') :
    e'.variant request' = e.variant request ∧ e'.boolean request' = e.boolean request :=
  eq_of_outcome hspace herror h.flag (outcome_eq hbuild hbuild' hunnamed hspace h)

theorem batch_congr {requests requests' : List Request}
    (h : List.Forall₂ d.Indistinct requests requests') : e'.batch requests' = e.batch requests := by
  have hentries : e'.entries requests' = e.entries requests := by
    induction h with
    | nil => rfl
    | cons hr _ ih => rw [entries, entries, entry_congr hbuild hbuild' hunnamed hspace hr, ih]
  rw [batch, batch, unlessFailed, unlessFailed, hentries, herror]

end

end Evaluator

/-! ### Properties that do not matter -/

theorem Context.value?_insert (c : Context) (p q v : String) :
    (c.insert p v).value? q = if q = p then some v else c.value? q :=
  lookup_replace c.entries p q v

theorem Context.value_insert (c : Context) (p q v : String) :
    (c.insert p v).value q = if q = p then v else c.value q := by
  rw [value, value?_insert, value]
  split <;> rfl

/-- The request with a value for a property, whether it had one or not. -/
def Request.insert (r : Request) (p v : String) : Request :=
  { r with entity := { r.entity with context := r.entity.context.insert p v } }

/-- A document does not tell apart what value a property is given if its flag does not look at it, or if
the property had this value before. -/
theorem Document.indistinct_insert {d : Document} {r : Request} {p v : String}
    (h : (∀ f ∈ d.flags, f.key = r.flag → p ∉ f.properties) ∨ r.entity.context.value p = v) :
    d.Indistinct r (r.insert p v) where
  flag := rfl
  id := rfl
  agree := by
    intro f hf hkey
    refine ⟨rfl, fun q hq => ?_⟩
    have hvalue : (r.insert p v).entity.context.value q = if q = p then v else _ :=
      r.entity.context.value_insert p q v
    rw [hvalue]
    split
    · next heq =>
        subst heq
        rcases h with hunread | hsame
        · exact absurd hq (hunread f hf hkey)
        · exact hsame
    · rfl

namespace Evaluator

/-- **Requests that a document does not tell apart get the same**, on their own and in a batch.  So what
value a property is given does not matter if no constraint of the flag looks at it, and a property that is
not there can as well be sent empty.  The names that no constraint looks up do not matter either: documents
that are the same without them answer the same. -/
theorem indistinct {e : Evaluator} {ns : String} {d : Document}
    (hbuild : Snapshot.build ns d = .ok e.snapshot) :
    (∀ r r', d.Indistinct r r' → e.variant r = e.variant r' ∧ e.boolean r = e.boolean r') ∧
      (∀ rs rs', List.Forall₂ d.Indistinct rs rs' → e.batch rs = e.batch rs') ∧
      (∀ r p v, (∀ f ∈ d.flags, f.key = r.flag → p ∉ f.properties) ∨
          (r.entity.context.value? p = none ∧ v = "") →
        e.variant (r.insert p v) = e.variant r ∧ e.boolean (r.insert p v) = e.boolean r ∧
          ∀ before after, e.batch (before ++ r.insert p v :: after) = e.batch (before ++ r :: after)) ∧
      ∀ (d' : Document) (s' : Snapshot), d'.unnamed = d.unnamed → Snapshot.build ns d' = .ok s' →
        (∀ r, { e with snapshot := s' }.variant r = e.variant r ∧
            { e with snapshot := s' }.boolean r = e.boolean r) ∧
          ∀ rs, { e with snapshot := s' }.batch rs = e.batch rs := by
  have hanswers : ∀ {r r' : Request}, d.Indistinct r r' →
      e.variant r' = e.variant r ∧ e.boolean r' = e.boolean r :=
    fun h => answers_congr hbuild hbuild rfl rfl rfl h
  have hbatch : ∀ {rs rs' : List Request}, List.Forall₂ d.Indistinct rs rs' → e.batch rs' = e.batch rs :=
    fun h => batch_congr hbuild hbuild rfl rfl rfl h
  have hrefl : ∀ rs : List Request, List.Forall₂ d.Indistinct rs rs :=
    fun rs => List.forall₂_same.2 fun r _ => .refl d r
  refine ⟨fun r r' h => ⟨(hanswers h).1.symm, (hanswers h).2.symm⟩, fun rs rs' h => (hbatch h).symm,
    fun r p v h => ?_, fun d' s' hunnamed hbuild' => ⟨fun r => ?_, fun rs => ?_⟩⟩
  · have hinsert : d.Indistinct r (r.insert p v) := by
      refine Document.indistinct_insert (h.imp_right ?_)
      rintro ⟨habsent, rfl⟩
      rw [Context.value, habsent]
      rfl
    refine ⟨(hanswers hinsert).1, (hanswers hinsert).2, fun before after => ?_⟩
    exact hbatch (List.rel_append (hrefl before) (.cons hinsert (hrefl after)))
  · have hbuild' : Snapshot.build ns d' = .ok { e with snapshot := s' }.snapshot := hbuild'
    exact answers_congr hbuild hbuild' hunnamed rfl rfl (.refl d r)
  · have hbuild' : Snapshot.build ns d' = .ok { e with snapshot := s' }.snapshot := hbuild'
    exact batch_congr hbuild hbuild' hunnamed rfl rfl (hrefl rs)

/-- A flag that looks at one property for its text and names two others in constraints on the identifier
and of unknown kind. -/
theorem indistinct_named :
    let segment (region color : String) : Segment := ⟨"s", .any,
      [⟨.string, "plan", "eq", "pro"⟩, ⟨.entity, region, "eq", "e7"⟩, ⟨.unknown, color, "eq", "red"⟩]⟩
    let flag (region color : String) : Flag :=
      ⟨"f", "F", .boolean, none, false, [], [⟨none, some ⟨.or, true, [segment region color]⟩, none⟩], none⟩
    let d (region color : String) : Document := ⟨⟨"", none⟩, [flag region color]⟩
    let s (region color : String) : Snapshot :=
      .ofDocument ⟨⟨"ns", none⟩, [flag region color]⟩
    let e : Evaluator := ⟨"ns", s "region" "color", none⟩
    let r : Request := ⟨"f", ⟨"e7", ⟨[("plan", "free")]⟩⟩⟩
    Snapshot.build "ns" (d "region" "color") = .ok e.snapshot ∧
      (flag "region" "color").properties = ["plan"] ∧
      e.boolean (r.insert "region" "eu") = e.boolean r ∧
      e.batch [r.insert "color" "red", r] = e.batch [r, r] ∧
      { e with snapshot := s "plan" "" }.boolean r = e.boolean r ∧
      e.boolean r = .ok ⟨true, "f", .matched⟩ := by
  intro segment flag d s e r
  have hbuild : Snapshot.build "ns" (d "region" "color") = .ok e.snapshot := by decide +kernel
  have hbuild' : Snapshot.build "ns" (d "plan" "") = .ok (s "plan" "") := by decide +kernel
  have hunnamed : (d "plan" "").unnamed = (d "region" "color").unnamed := by decide
  have hproperties : (flag "region" "color").properties = ["plan"] := by decide
  obtain ⟨-, -, hinsert, hrenamed⟩ := indistinct hbuild
  have hunread : ∀ p, p ≠ "plan" → ∀ g ∈ (d "region" "color").flags, g.key = r.flag →
      p ∉ g.properties := by
    intro p hp g hg _
    rw [List.mem_singleton.1 hg, hproperties]
    simpa using hp
  obtain ⟨-, hregion, -⟩ := hinsert r "region" "eu" (.inl (hunread _ (by decide)))
  obtain ⟨-, -, hcolor⟩ := hinsert r "color" "red" (.inl (hunread _ (by decide)))
  obtain ⟨hsame, -⟩ := hrenamed _ _ hunnamed hbuild'
  exact ⟨hbuild, hproperties, hregion, hcolor [] [r], (hsame r).2, by decide +kernel⟩

end Evaluator

end FeatureFlags
