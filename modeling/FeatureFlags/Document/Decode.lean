/-
**Reading a document.**

Each part of a document is a record.  Most members may be left out; some of those may also be `null`,
which then means the same.  Unknown members are skipped.

Main definitions:

* `Constraint.decoder`, `Segment.decoder`, …, `Document.decoder` — one decoder for each part.
-/
import FeatureFlags.Document.Basic
import FeatureFlags.Json.Record

set_option autoImplicit false

namespace FeatureFlags

open Json Json.Record

def Constraint.decoder : Decoder Constraint :=
  Record.decoder "Constraint" <|
    ((one (.orDefault "type" ConstraintKind.vocabulary.decoder .unknown)).and <|
      (one (.required "property" .text)).and <|
      (one (.required "operator" .text)).and <|
      one (.withDefault "value" .text "")).map
    fun (kind, property, operator, value) => ⟨kind, property, operator, value⟩

def Segment.decoder : Decoder Segment :=
  Record.decoder "Segment" <|
    ((one (.required "key" .text)).and <|
      (one (.orDefault "matchType" MatchType.vocabulary.decoder .any)).and <|
      one (.orDefault "constraints" (.list Constraint.decoder) [])).map
    fun (key, matchType, constraints) => ⟨key, matchType, constraints⟩

def Distribution.decoder : Decoder Distribution :=
  Record.decoder "Distribution" <|
    ((one (.required "variantKey" .text)).and <|
      (one (.required "rollout" .single)).and <|
      one (.optional "variantAttachment" .text)).map
    fun (variant, percentage, attachment) => ⟨variant, percentage, attachment⟩

def Rule.decoder : Decoder Rule :=
  Record.decoder "Rule" <|
    ((one (.orDefault "segments" (.list Segment.decoder) [])).and <|
      (one (.orDefault "segmentOperator" SegmentOperator.vocabulary.decoder .or)).and <|
      one (.orDefault "distributions" (.list Distribution.decoder) [])).map
    fun (segments, operator, distributions) => ⟨segments, operator, distributions⟩

def SegmentRollout.decoder : Decoder SegmentRollout :=
  Record.decoder "SegmentRollout" <|
    ((one (.orDefault "segmentOperator" SegmentOperator.vocabulary.decoder .or)).and <|
      (one (.required "value" .flag)).and <|
      one (.orDefault "segments" (.list Segment.decoder) [])).map
    fun (operator, value, segments) => ⟨operator, value, segments⟩

def Threshold.decoder : Decoder Threshold :=
  Record.decoder "Threshold" <|
    ((one (.required "percentage" .single)).and <| one (.required "value" .flag)).map
    fun (percentage, value) => ⟨percentage, value⟩

def Rollout.decoder : Decoder Rollout :=
  Record.decoder "Rollout" <|
    ((one (.optional "description" .text)).and <|
      (one (.optional "segment" SegmentRollout.decoder)).and <|
      one (.optional "threshold" Threshold.decoder)).map
    fun (description, segment, threshold) => ⟨description, segment, threshold⟩

def Variant.decoder : Decoder Variant :=
  Record.decoder "Variant" <|
    ((one (.required "key" .text)).and <| one (.optional "attachment" .text)).map
    fun (key, attachment) => ⟨key, attachment⟩

def Flag.decoder : Decoder Flag :=
  Record.decoder "Flag" <|
    ((one (.required "key" .text)).and <|
      (one (.withDefault "name" .text "")).and <|
      (one (.orDefault "type" FlagKind.vocabulary.decoder .variant)).and <|
      (one (.optional "description" .text)).and <|
      (one (.withDefault "enabled" .flag false)).and <|
      (one (.orDefault "rules" (.list Rule.decoder) [])).and <|
      (one (.orDefault "rollouts" (.list Rollout.decoder) [])).and <|
      one (.optional "defaultVariant" Variant.decoder)).map
    fun (key, name, kind, description, enabled, rules, rollouts, defaultVariant) =>
      ⟨key, name, kind, description, enabled, rules, rollouts, defaultVariant⟩

def Namespace.decoder : Decoder Namespace :=
  Record.decoder "Namespace" <|
    ((one (.withDefault "key" .text "")).and <| one (.optional "name" .text)).map
    fun (key, name) => ⟨key, name⟩

def Document.decoder : Decoder Document :=
  Record.decoder "Document" <|
    ((one (.orDefault "namespace" Namespace.decoder ⟨"", none⟩)).and <|
      one (.orDefault "flags" (.list Flag.decoder) [])).map
    fun (space, flags) => ⟨space, flags⟩

end FeatureFlags
