import DebugTree.Session.World

/-!
# Two ways to tear a subtree down

When a target goes, so does everything below it, and the sessions of all these targets are released.
The registry may go down the lists of children itself and release what it meets, with the tree still
as it was (`World.releaseDown`).  Or the tree goes down first, and the registry is told afterwards
who has left (`World.releaseInTurn`).
-/

namespace DebugTree
namespace Session

namespace Registry

/-- Several names are released one after the other: the records that this released, in the order in
which they left. -/
def releaseEach (g : Registry) : List TargetId → List RecordHandle × Registry
  | [] => ([], g)
  | id :: ids =>
    let (released, g') := (g.release id).2.releaseEach ids
    ((g.sessions.get? id).toList ++ released, g')

mutual

/-- The records of a target and of everything below it are released, the target's own one last. -/
def releaseFrom (t : TargetTree) : Nat → Registry → TargetHandle → List RecordHandle × Registry
  | 0, g, h => g.releaseEach [t.idOf h]
  | fuel + 1, g, h =>
    let (below, g) := releaseChildren t fuel g (t.children h)
    let (own, g) := g.releaseEach [t.idOf h]
    (below ++ own, g)

/-- `releaseFrom`, for several targets one after the other. -/
def releaseChildren (t : TargetTree) (fuel : Nat) (g : Registry) :
    List TargetHandle → List RecordHandle × Registry
  | [] => ([], g)
  | h :: hs =>
    let (first, g) := releaseFrom t fuel g h
    let (rest, g) := releaseChildren t fuel g hs
    (first ++ rest, g)

end

end Registry

namespace World

/-- The records of a target and of everything below it are released, over the lists of children: the
records that this released, in the order in which they left. -/
def releaseDown (w : World) (target : TargetHandle) : List RecordHandle × World :=
  let (released, registry) := Registry.releaseFrom w.tree w.tree.targets.size w.registry target
  (released, { w with registry })

/-- The records of several targets are released, one after the other. -/
def releaseInTurn (w : World) : List TargetHandle → List RecordHandle × World
  | [] => ([], w)
  | h :: hs =>
    let (released, w') := (w.release (w.tree.idOf h)).2.releaseInTurn hs
    ((w.registry.sessions.get? (w.tree.idOf h)).toList ++ released, w')

end World

end Session
end DebugTree
