/-
**Buckets: where an entity stands in a rollout.**

The digest of a flag and an entity together puts the entity into one of a thousand buckets for the
variants of the flag, and, in the other order, into one of a hundred for its thresholds.  An entity so
stays in its bucket for as long as flag and entity keep their names.

The variants of a rule take the buckets from the first on: each variant as many as its percentage gives,
ten to a percent, with any fraction of a bucket dropped.

Main definitions:

* `Bucket.ofVariant`, `Bucket.ofThreshold` — the bucket of an entity;
* `Bucket.share`, `Bucket.bounds` — the buckets of a percentage, and the running totals of several;
* `Bucket.select` — **the variant that owns a bucket**, found by bisection.
-/
import FeatureFlags.Digest.Sha256
import FeatureFlags.Number.Floating
import FeatureFlags.Text.Utf8

set_option autoImplicit false

open Nat (pow)

namespace FeatureFlags.Bucket

/-- The first four bytes of the digest of a text, as a number. -/
def leading (text : List UInt8) : Nat := (Sha256.run text).a.toNat

/-- How many buckets the variants of a flag are spread over. -/
def count : Nat := 1000

/-- The bucket of an entity for the variants of a flag. -/
def ofVariant (flag entity : String) : Nat :=
  leading (Utf8.encode flag ++ Utf8.encode entity) % count

/-- The bucket of an entity for the thresholds of a flag, below a hundred. -/
def ofThreshold (entity flag : String) : Nat :=
  leading (Utf8.encode entity ++ Utf8.encode flag) % 100

/-- The bucket of an entity for the thresholds of a flag, to be compared with a percentage. -/
def thresholdValue (entity flag : String) : Single := Floating.ofNat (ofThreshold entity flag)

/-- How many whole buckets a percentage gives. -/
def share (percentage : Single) : Nat :=
  (percentage.mul (Floating.ofNat (count / 100))).truncate (pow 2 32 - 1)

/-- The running totals of the shares of some percentages; totals are kept in 32 bits. -/
def boundsFrom (total : Nat) : List Single → List Nat
  | [] => []
  | p :: ps =>
    let next := (total + share p) % pow 2 32
    next :: boundsFrom next ps

/-- The running totals of the shares of some percentages: the end of the buckets of each. -/
def bounds (percentages : List Single) : List Nat := boundsFrom 0 percentages

/-- Bisects the `size` places from `base` on: the first place at which the test fails, if it holds at
all places before some point and at none from there on. -/
def bisect (test : Nat → Bool) (base size : Nat) : Nat :=
  if size ≤ 1 then if size = 1 ∧ test base then base + 1 else base
  else
    let half := size / 2
    bisect test (if test (base + half) then base + half else base) (size - half)
termination_by size

/-- The index of the first bound above a bucket. -/
def select (bounds : List Nat) (bucket : Nat) : Option Nat :=
  let i := bisect (fun i => bounds.getD i 0 ≤ bucket) 0 bounds.length
  if i < bounds.length then some i else none

end FeatureFlags.Bucket
