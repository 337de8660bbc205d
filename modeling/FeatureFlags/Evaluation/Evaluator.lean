/-
**Evaluating flags.**

An evaluator serves the flags of one namespace from its current snapshot.  While it holds an error,
that error is the answer to everything; a new snapshot clears it.

A disabled variant flag selects nothing.  The first rule of an enabled one whose segments select the
entity decides: the entity gets the variant that owns its bucket, or none if its bucket is not given
away; a rule that gives nothing away is a match without a variant.  If no rule decides, the default
variant is the answer.

The first rollout of a boolean flag that applies to the entity decides.  If none does, the answer is
whether the flag is enabled.

Main definitions:

* `CompiledFlag.variant`, `CompiledFlag.boolean` — the answer of a flag;
* `Evaluator` — a namespace, a snapshot and perhaps an error;
* `Evaluator.variant`, `Evaluator.boolean`, `Evaluator.batch`, `Evaluator.list`,
  `Evaluator.document` — **the operations**.
-/
import FeatureFlags.Bucket
import FeatureFlags.Evaluation.Answer
import FeatureFlags.Evaluation.Failure
import FeatureFlags.Segment

set_option autoImplicit false

namespace FeatureFlags

/-! ### Variant flags -/

/-- Is a percentage above zero? -/
def Single.isPositive (x : Single) : Bool := (Floating.ofNat 0 : Single).lt x

/-- The distributions that give something away. -/
def Rule.shares (r : Rule) : List Distribution :=
  r.distributions.filter fun d => Single.isPositive d.percentage

/-- The distribution that owns the bucket of an entity. -/
def ownerOf (shares : List Distribution) (request : Request) : Option Distribution :=
  let bounds := Bucket.bounds (shares.map (·.percentage))
  match Bucket.select bounds (Bucket.ofVariant request.flag request.entity.id) with
  | some i => shares[i]?
  | none => none

/-- The answer of a rule whose segments select the entity. -/
def Rule.answer (r : Rule) (flag : String) (segments : List String) (request : Request) :
    VariantAnswer :=
  if r.shares.isEmpty then ⟨true, segments, .matched, flag, "", ""⟩
  else
    match ownerOf r.shares request with
    | some d => ⟨true, segments, .matched, flag, d.variant, d.attachment.getD ""⟩
    | none => ⟨false, segments, .unknown, flag, "", ""⟩

/-- The answer of a flag none of whose rules decides. -/
def FlagInfo.defaultAnswer (i : FlagInfo) : VariantAnswer :=
  match i.defaultVariant with
  | some v => ⟨false, [], .fallback, i.key, v.key, v.attachment.getD ""⟩
  | none => ⟨false, [], .fallback, i.key, "", ""⟩

/-- The answer of a flag with some rules. -/
def FlagInfo.byRules (i : FlagInfo) (request : Request) :
    List (Ranked Rule) → Except ValueFault VariantAnswer
  | [] => .ok i.defaultAnswer
  | r :: rs =>
    match r.item.operator.combine? r.item.segments request.entity with
    | .error f => .error f
    | .ok none => byRules i request rs
    | .ok (some segments) => .ok (r.item.answer i.key segments request)

/-- The answer of a variant flag. -/
def CompiledFlag.variant (f : CompiledFlag) (request : Request) :
    Except ValueFault VariantAnswer :=
  if f.info.enabled then f.info.byRules request f.rules
  else .ok ⟨false, [], .flagDisabled, f.info.key, "", ""⟩

/-! ### Boolean flags -/

/-- The value that an effect gives to the entity, if it applies to it. -/
def Effect.value? (request : Request) : Effect → Except ValueFault (Option Bool)
  | .threshold percentage value =>
    let bucket := Bucket.thresholdValue request.entity.id request.flag
    .ok (if bucket.lt percentage then some value else none)
  | .selection operator segments value =>
    match operator.combine? segments request.entity with
    | .error f => .error f
    | .ok hit => .ok (hit.map fun _ => value)
  | .nothing => .ok none

/-- The answer of a flag with some rollouts. -/
def FlagInfo.byRollouts (i : FlagInfo) (request : Request) :
    List (Ranked Effect) → Except ValueFault BooleanAnswer
  | [] => .ok ⟨i.enabled, i.key, .fallback⟩
  | r :: rs =>
    match r.item.value? request with
    | .error f => .error f
    | .ok none => byRollouts i request rs
    | .ok (some value) => .ok ⟨value, i.key, .matched⟩

/-- The answer of a boolean flag. -/
def CompiledFlag.boolean (f : CompiledFlag) (request : Request) :
    Except ValueFault BooleanAnswer :=
  f.info.byRollouts request f.rollouts

/-! ### Evaluators -/

/-- Why a request cannot be evaluated at all. -/
inductive RequestFault where
  | noSuchFlag (space flag : String)
  | notVariant (flag : String)
  | notBoolean (flag : String)
  deriving DecidableEq, Repr

def RequestFault.message : RequestFault → String
  | .noSuchFlag space flag => "failed to get flag information " ++ space ++ "/" ++ flag
  | .notVariant flag => flag ++ " is not a variant flag"
  | .notBoolean flag => flag ++ " is not a boolean flag"

def RequestFault.failure (f : RequestFault) : Failure := ⟨.request, f.message⟩

/-- A document that cannot be served. -/
def DocumentFault.failure (f : DocumentFault) : Failure := ⟨.document, f.message⟩

/-- The flags of one namespace, served from a snapshot. -/
structure Evaluator where
  space : String
  snapshot : Snapshot
  error : Option Failure
  deriving DecidableEq, Repr

namespace Evaluator

/-- An evaluator without an error. -/
def new (ns : String) (s : Snapshot) : Evaluator := ⟨ns, s, none⟩

/-- Serves another snapshot from now on. -/
def replace (e : Evaluator) (s : Snapshot) : Evaluator := { e with snapshot := s, error := none }

/-- Answers everything with an error from now on. -/
def fail (e : Evaluator) (f : Failure) : Evaluator := { e with error := some f }

/-- The answer, unless the evaluator holds an error. -/
def unlessFailed {α : Type} (e : Evaluator) (answer : Except Failure α) : Except Failure α :=
  match e.error with
  | some f => .error f
  | none => answer

/-- The flag with a key. -/
def get? (e : Evaluator) (key : String) : Option CompiledFlag := e.snapshot.get? e.space key

/-- What is listed of the flags. -/
def list (e : Evaluator) : Except Failure (List FlagInfo) :=
  e.unlessFailed <|
    match e.snapshot.list? e.space with
    | some flags => .ok flags
    | none => .error ⟨.unknown, "failed to get flags for " ++ e.space⟩

/-- The document that is served. -/
def document (e : Evaluator) : Except Failure Document :=
  e.unlessFailed (.ok e.snapshot.document)

/-- Evaluates a variant flag. -/
def variant (e : Evaluator) (request : Request) : Except Failure VariantAnswer :=
  e.unlessFailed <|
    match e.get? request.flag with
    | none => .error (RequestFault.noSuchFlag e.space request.flag).failure
    | some f =>
      if f.info.kind = .variant then (f.variant request).mapError (·.failure)
      else .error (RequestFault.notVariant request.flag).failure

/-- Evaluates a boolean flag. -/
def boolean (e : Evaluator) (request : Request) : Except Failure BooleanAnswer :=
  e.unlessFailed <|
    match e.get? request.flag with
    | none => .error (RequestFault.noSuchFlag e.space request.flag).failure
    | some f =>
      if f.info.kind = .boolean then (f.boolean request).mapError (·.failure)
      else .error (RequestFault.notBoolean request.flag).failure

/-- The entry of a batch for a request. -/
def entry (e : Evaluator) (request : Request) : Except Failure Entry :=
  match e.get? request.flag with
  | none => .ok (.missing ⟨request.flag, e.space, .notFound⟩)
  | some f =>
    match f.info.kind with
    | .boolean => ((f.boolean request).map Entry.boolean).mapError (·.failure)
    | .variant => ((f.variant request).map Entry.variant).mapError (·.failure)

/-- The entries of a batch for some requests. -/
def entries (e : Evaluator) : List Request → Except Failure (List Entry)
  | [] => .ok []
  | r :: rs =>
    match e.entry r with
    | .error f => .error f
    | .ok a =>
      match entries e rs with
      | .error f => .error f
      | .ok as => .ok (a :: as)

/-- Evaluates several flags.  The first failure is that of the batch. -/
def batch (e : Evaluator) (requests : List Request) : Except Failure (List Entry) :=
  e.unlessFailed (e.entries requests)

end Evaluator

end FeatureFlags
