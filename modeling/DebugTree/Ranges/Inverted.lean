import DebugTree.Policy.Basic
import DebugTree.Ranges.Span
import DebugTree.Source.Graph

/-!
# Inverted ranges

The runtime skips or does not skip a script as a whole, and inverts that inside given ranges.  A
script that bundles several files gets a range for each file whose own state differs from the
script's.  Files that follow each other in the source map share a range if both differ.

A file contributes nothing if one of its ends has no place in the script, or if its last place
comes before its first; such a file also keeps its neighbours apart.
-/

namespace DebugTree
namespace Ranges

/-- The state of an authored source: what is recorded for it, else that of its parent. -/
def effective (p : SkipPolicy) (parent : Bool) (a : AuthoredSource) : Bool :=
  (p.overrideFor a.url).getD parent

/-- Where an authored source lies in a compiled one, if it lies there the right way round. -/
def placed? (g : SourceGraph) (compiled : Source) (a : AuthoredSource) : Option Span :=
  match g.place? a.source compiled .start, g.place? a.source compiled a.finish with
  | some first, some last => if first.le last then some ⟨first, last⟩ else none
  | _, _ => none

/-- The span that has to be inverted for an authored source, if there is one. -/
def invertedSpan? (p : SkipPolicy) (g : SourceGraph) (compiled : Source)
    (a : AuthoredSource) : Option Span :=
  let parent := p.isSkipped compiled.url
  if effective p parent a = parent then none else placed? g compiled a

/-- Neighbouring spans joined, given the one that is still open.  A gap closes it, and so does a
span that begins before it. -/
def joinNeighbours : Option Span → List (Option Span) → List Span
  | opened, [] => opened.toList
  | opened, none :: rest => opened.toList ++ joinNeighbours none rest
  | none, some s :: rest => joinNeighbours (some s) rest
  | some o, some s :: rest =>
    if o.first.le s.first then joinNeighbours (some (o.upTo s.last)) rest
    else o :: joinNeighbours (some s) rest

/-- The ranges of a compiled source, as spans. -/
def spans (p : SkipPolicy) (g : SourceGraph) (compiled : Source) : List Span :=
  Span.merge (joinNeighbours none ((g.authoredOf compiled).map (invertedSpan? p g compiled)))

/-- The ranges of a compiled source: first and last places in turn. -/
def compute (p : SkipPolicy) (g : SourceGraph) (compiled : Source) : List Position :=
  Span.ends (spans p g compiled)

end Ranges
end DebugTree
