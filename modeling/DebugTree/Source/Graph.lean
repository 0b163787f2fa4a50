import DebugTree.Index
import DebugTree.Source.Basic

/-!
# Source graphs

What is known of the sources of one target: which authored sources a compiled one lists and in
which order, which compiled sources list an authored one, which scripts run a source, and where a
place of an authored source comes to lie in a compiled one.  Sources are told apart by number
only.

The graph may have cycles and shared parts, as source maps come from outside.  `SourceTree` is
what a walk down from one source sees when it enters every source once: a finite tree, on which
everything that looks below a source is defined by recursion.
-/

namespace DebugTree

/-- The sources of one target. -/
structure SourceGraph where
  sources : Index SourceReference Source
  /-- What a compiled source's map lists, in its order. -/
  authored : Index SourceReference (List AuthoredSource)
  /-- The compiled sources that list an authored one. -/
  compiled : Index SourceReference (List Source)
  scripts : Index SourceReference (List ScriptId)
  /-- The compiled place of a place of an authored source. -/
  places : Index (SourceReference × SourceReference × Position) Position

namespace SourceGraph

/-- The graph without sources. -/
def empty : SourceGraph := ⟨.empty, .empty, .empty, .empty, .empty⟩

instance : Inhabited SourceGraph := ⟨empty⟩

/-! ## Questions -/

def sourceByReference? (g : SourceGraph) (r : SourceReference) : Option Source :=
  g.sources.get? r

def sourceByUrl? (g : SourceGraph) (url : String) : Option Source :=
  g.sources.values.find? fun s => s.url == url

/-- The authored sources of a source, in the order of its map. -/
def authoredOf (g : SourceGraph) (s : Source) : List AuthoredSource :=
  (g.authored.get? s.reference).getD []

/-- The sources whose maps list a source. -/
def compiledOf (g : SourceGraph) (s : Source) : List Source :=
  (g.compiled.get? s.reference).getD []

/-- The scripts that run a source. -/
def scriptsOf (g : SourceGraph) (s : Source) : List ScriptId :=
  (g.scripts.get? s.reference).getD []

/-- Where a place of an authored source lies in a compiled one. -/
def place? (g : SourceGraph) (authored compiled : Source) (p : Position) : Option Position :=
  g.places.get? (authored.reference, compiled.reference, p)

/-! ## Growth -/

/-- One more item in the list under a key. -/
def appendTo {α : Type} (ix : Index SourceReference (List α)) (k : SourceReference) (a : α) :
    Index SourceReference (List α) :=
  ix.insert k ((ix.get? k).getD [] ++ [a])

def addSource (g : SourceGraph) (s : Source) : SourceGraph :=
  { g with sources := g.sources.insert s.reference s }

/-- One more authored source of a compiled one, without any places. -/
def addAuthored (g : SourceGraph) (compiled : Source) (a : AuthoredSource) : SourceGraph :=
  { (g.addSource compiled).addSource a.source with
    compiled := appendTo g.compiled a.source.reference compiled
    authored := appendTo g.authored compiled.reference a }

/-- The compiled places of the two ends of an authored source.  Where both ends are one place, the
place of the last one holds. -/
def addEnds (g : SourceGraph) (compiled : Source) (a : AuthoredSource)
    (first last : Position) : SourceGraph :=
  let key (p : Position) := (a.source.reference, compiled.reference, p)
  { g with places := (g.places.insert (key .start) first).insert (key a.finish) last }

/-- One more authored source of a compiled one, with the places of its ends. -/
def addMapped (g : SourceGraph) (compiled : Source) (a : AuthoredSource)
    (first last : Position) : SourceGraph :=
  (g.addEnds compiled a first last).addAuthored compiled a

/-- One more script that runs a source. -/
def addScript (g : SourceGraph) (s : Source) (script : ScriptId) : SourceGraph :=
  { g.addSource s with scripts := appendTo g.scripts s.reference script }

end SourceGraph

/-! ## Walks -/

/-- What a walk sees from a source on. -/
inductive SourceTree where
  /-- The walk has entered this source before. -/
  | seen (source : Source)
  /-- The walk enters the source, and goes on from each source that it lists. -/
  | node (source : Source) (below : List (AuthoredSource × SourceTree))

namespace SourceGraph

mutual

/-- The walk from a source, given the numbers of the sources entered before; with the numbers
entered after it. -/
def walkFrom (g : SourceGraph) : Nat → List SourceReference → Source →
    SourceTree × List SourceReference
  | 0, entered, s => (.seen s, entered)
  | fuel + 1, entered, s =>
    if s.reference ∈ entered then (.seen s, entered)
    else
      let (below, entered) := walkAll g fuel (s.reference :: entered) (g.authoredOf s)
      (.node s below, entered)

/-- The walks from each source of a list, one after the other. -/
def walkAll (g : SourceGraph) (fuel : Nat) (entered : List SourceReference) :
    List AuthoredSource → List (AuthoredSource × SourceTree) × List SourceReference
  | [] => ([], entered)
  | a :: rest =>
    let (tree, entered) := walkFrom g fuel entered a.source
    let (trees, entered) := walkAll g fuel entered rest
    ((a, tree) :: trees, entered)

end

/-- The walk from a source.  A source that lists none ends its branch, so a branch is at most one
longer than the number of sources that list any. -/
def walk (g : SourceGraph) (s : Source) : SourceTree :=
  (walkFrom g (g.authored.size + 1) [] s).1

end SourceGraph
end DebugTree
