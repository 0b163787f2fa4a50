import DebugTree.Source.Basic

/-!
# Spans

A span is a stretch of a script between two places, both included.  The runtime wants spans in
ascending order and apart from each other, so overlapping ones are merged.
-/

namespace DebugTree

/-- A stretch between two places. -/
structure Span where
  first : Position
  last : Position
  deriving DecidableEq

namespace Span

/-- The order by first place, then by last. -/
def le (a b : Span) : Bool :=
  if a.first = b.first then a.last.le b.last else a.first.le b.first

/-- The place lies in the span. -/
def has (s : Span) (p : Position) : Bool :=
  s.first.le p && p.le s.last

/-- The span lengthened so that it reaches at least to a place. -/
def upTo (s : Span) (p : Position) : Span :=
  { s with last := s.last.later p }

/-- Ascending spans merged, given the one that is still growing. -/
def mergeInto (growing : Span) : List Span → List Span
  | [] => [growing]
  | s :: rest =>
    if s.first.le growing.last then mergeInto (growing.upTo s.last) rest
    else growing :: mergeInto s rest

/-- Ascending spans merged. -/
def mergeSorted : List Span → List Span
  | [] => []
  | s :: rest => mergeInto s rest

/-- Spans in ascending order, overlapping ones merged. -/
def merge (spans : List Span) : List Span :=
  mergeSorted (spans.mergeSort le)

/-- The places where spans begin and end, in turn. -/
def ends (spans : List Span) : List Position :=
  spans.flatMap fun s => [s.first, s.last]

end Span
end DebugTree
