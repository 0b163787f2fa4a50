import DebugTree.Policy.Edit
import DebugTree.Ranges.Below

/-!
# Changes of the skip state

Two things change what a session steps over: a source is loaded, or somebody decides about a file.
A change says which policy comes out of it, from which sources on the ranges have to be computed
again, and whether the target-wide patterns may be out of date.

## Two kinds of decisions

A file that some bundle lists cannot be skipped by a pattern, since patterns decide about whole
scripts.  The decision about it is recorded for its URL, and the ranges of the bundles follow.  A
decision about anything else edits the list of globs, so it is seen in the patterns; and if
the session has loaded the source, everything below it takes the decision over.
-/

namespace DebugTree

/-- What happens to the skip state of a session. -/
inductive SkipChange where
  /-- A source has been loaded. -/
  | load (source : Source)
  /-- Somebody decides about a URL, under which the session has loaded a source or has not. -/
  | decide (url : String) (source : Option Source) (skipped : Bool)
  deriving DecidableEq

namespace SkipChange

/-- The sources whose maps list a source, if there is one. -/
def bundles (g : SourceGraph) (source : Option Source) : List Source :=
  (source.map g.compiledOf).getD []

/-- The policy that comes out of a change. -/
def revise (g : SourceGraph) (p : SkipPolicy) : SkipChange → SkipPolicy
  | .load source => Ranges.propagate p g source
  | .decide url source skipped =>
    if (bundles g source).isEmpty then
      let p := p.setExplicitSkip url skipped
      match source with
      | some s => Ranges.force p g s skipped
      | none => p
    else p.setOverride url skipped

/-- The sources from which on ranges are computed again. -/
def origins (g : SourceGraph) : SkipChange → List Source
  | .load source => [source]
  | .decide _ source _ =>
    let bundles := bundles g source
    if bundles.isEmpty then source.toList else bundles

/-- The ranges that a change calls for, under the policy that comes out of it. -/
def updates (g : SourceGraph) (revised : SkipPolicy) (c : SkipChange) : List Ranges.Update :=
  (c.origins g).flatMap (Ranges.collect revised g)

/-- The target-wide patterns have to be sent again. -/
def renewsPatterns (g : SourceGraph) : SkipChange → Bool
  | .load _ => true
  | .decide _ source _ => (bundles g source).isEmpty

end SkipChange
end DebugTree
