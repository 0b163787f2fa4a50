import DebugTree.Ranges.Inverted

/-!
# Everything below a source

Three things are done to all sources below a given one, each along the same walk: record the state
that a freshly loaded source gives them, force them into one state, and compute the ranges of
every level.  The walk enters each source once, so cycles and shared parts do no harm.
-/

namespace DebugTree
namespace Ranges

/-! ## Recording states -/

mutual

/-- Record a state for every authored source of a walk.  A recorded state stays.  Any other source
is skipped if its parent is, or if a glob matches it; the parent's state is the one it has when
the walk enters it. -/
def inherit (p : SkipPolicy) : SourceTree → SkipPolicy
  | .seen _ => p
  | .node s below => inheritAll p (p.isSkipped s.url) below

/-- `inherit` for the sources below one parent. -/
def inheritAll (p : SkipPolicy) (parent : Bool) : List (AuthoredSource × SourceTree) → SkipPolicy
  | [] => p
  | (a, tree) :: rest =>
    let p :=
      if (p.overrideFor a.url).isNone then p.setOverride a.url (parent || p.testAuthored a.url)
      else p
    inheritAll (inherit p tree) parent rest

end

/-- Record a state for every authored source below a source. -/
def propagate (p : SkipPolicy) (g : SourceGraph) (s : Source) : SkipPolicy :=
  inherit p (g.walk s)

mutual

/-- Record one state for every authored source of a walk. -/
def forceTree (p : SkipPolicy) (skipped : Bool) : SourceTree → SkipPolicy
  | .seen _ => p
  | .node _ below => forceAll p skipped below

/-- `forceTree` for the sources below one parent. -/
def forceAll (p : SkipPolicy) (skipped : Bool) : List (AuthoredSource × SourceTree) → SkipPolicy
  | [] => p
  | (a, tree) :: rest =>
    forceAll (forceTree (p.setOverride a.url skipped) skipped tree) skipped rest

end

/-- Record one state for every authored source below a source. -/
def force (p : SkipPolicy) (g : SourceGraph) (s : Source) (skipped : Bool) : SkipPolicy :=
  forceTree p skipped (g.walk s)

/-! ## Computing ranges -/

mutual

/-- The sources of a walk that list authored sources, those below a source before it. -/
def levels : SourceTree → List Source
  | .seen _ => []
  | .node s below => levelsAll below ++ if below.isEmpty then [] else [s]

/-- `levels` for the sources below one parent. -/
def levelsAll : List (AuthoredSource × SourceTree) → List Source
  | [] => []
  | (_, tree) :: rest => levels tree ++ levelsAll rest

end

/-- The ranges of one source. -/
structure Update where
  source : Source
  positions : List Position
  deriving DecidableEq

/-- The ranges of a source and of every source below it that lists authored sources, children
before parents. -/
def collect (p : SkipPolicy) (g : SourceGraph) (s : Source) : List Update :=
  (levels (g.walk s)).map fun c => ⟨c, compute p g c⟩

end Ranges
end DebugTree
