/-
**When a segment selects an entity.**

A segment looks at its constraints in order and stops as soon as its match type is settled, or at the
first constraint that is a fault.  One of unknown kind settles it too: the segment then selects
nobody.  A segment without constraints selects everybody.

Several segments are all evaluated before they are combined, so a fault in any of them is one of the
combination.

Main definitions:

* `MatchType.settles`, `MatchType.scan`, `Segment.selects` — whether a segment selects an entity;
* `SegmentOperator.combine?` — **the keys of the segments that select an entity**, if their
  combination does.
-/
import FeatureFlags.Constraint.Holds

set_option autoImplicit false

namespace FeatureFlags

namespace MatchType

/-- Which outcome of a constraint settles the match, and is then its outcome. -/
def settles : MatchType → Bool
  | .all => false
  | .any => true

/-- The outcome of constraints looked at in order. -/
def scan (t : MatchType) (e : Entity) : List Constraint → Except ValueFault Bool
  | [] => .ok (!t.settles)
  | c :: cs =>
    if c.kind = .unknown then .ok false
    else
      match c.holds e with
      | .error f => .error f
      | .ok b => if b = t.settles then .ok b else scan t e cs

/-- Does an entity match some constraints?  If there are none, it does. -/
def accepts (t : MatchType) (constraints : List Constraint) (e : Entity) :
    Except ValueFault Bool :=
  if constraints.isEmpty then .ok true else t.scan e constraints

end MatchType

/-- Does the segment select the entity? -/
def Segment.selects (s : Segment) (e : Entity) : Except ValueFault Bool :=
  s.matchType.accepts s.constraints e

namespace SegmentOperator

/-- The segments that select an entity. -/
def selecting (e : Entity) : List Segment → Except ValueFault (List Segment)
  | [] => .ok []
  | s :: ss =>
    match s.selects e with
    | .error f => .error f
    | .ok b =>
      match selecting e ss with
      | .error f => .error f
      | .ok rest => .ok (if b then s :: rest else rest)

/-- Does the combination of some segments hold when these of them select an entity? -/
def settled (o : SegmentOperator) (segments selecting : List Segment) : Bool :=
  match o with
  | .or => !selecting.isEmpty
  | .and => selecting.length == segments.length

/-- The keys of the segments that select an entity, if their combination does. -/
def combine? (o : SegmentOperator) (segments : List Segment) (e : Entity) :
    Except ValueFault (Option (List String)) :=
  match selecting e segments with
  | .error f => .error f
  | .ok hits => .ok (if o.settled segments hits then some (hits.map (·.key)) else none)

end SegmentOperator

end FeatureFlags
