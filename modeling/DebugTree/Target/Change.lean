import DebugTree.Target.Tree

/-!
# Changes of a tree

A tree is made by additions and removals, and between them callers take hold of targets and let go
of them as they like.

`remove` reads a whole subtree first and takes its targets out afterwards.  A removal may also do
both at once: it takes the children out of a target's list, goes on to each of them, and takes the
target itself out when it comes back (`dismantle`).  The lists that it goes by are then the very
lists that it empties.
-/

namespace DebugTree
namespace TargetTree

/-! ## Histories -/

/-- What is asked of a tree. -/
inductive Change where
  | add (id : TargetId) (name : String) (kind : TargetKind) (parent : Option TargetId)
  /-- `held` are the targets that somebody holds at that moment. -/
  | remove (held : List TargetHandle) (id : TargetId)

/-- The tree after a change.  An addition that is refused leaves it as it is. -/
def change (t : TargetTree) : Change → TargetTree
  | .add id name kind parent =>
    match t.add id name kind parent with
    | .ok (_, t') => t'
    | .error _ => t
  | .remove held id => (t.remove held id).2

/-- The tree after several changes. -/
def grow (t : TargetTree) (cs : List Change) : TargetTree :=
  cs.foldl change t

/-! ## Removals on the way -/

/-- A target lets go of its children. -/
def letGo (t : TargetTree) (h : TargetHandle) : TargetTree :=
  { t with targets := t.targets.modify h fun x => { x with children := [] } }

/-- The name of a target becomes free. -/
def strike (t : TargetTree) (h : TargetHandle) : TargetTree :=
  { t with index := t.index.erase (t.idOf h) }

mutual

/-- A target and everything below it are taken out: those who have gone, in the order in which they
went. -/
def dismantle : Nat → TargetTree → TargetHandle → List TargetHandle × TargetTree
  | 0, t, h => ([h], (t.letGo h).strike h)
  | fuel + 1, t, h =>
    let (gone, t') := dismantleEach fuel (t.letGo h) (t.children h)
    (gone ++ [h], t'.strike h)

/-- `dismantle`, for several targets one after the other. -/
def dismantleEach (fuel : Nat) (t : TargetTree) : List TargetHandle → List TargetHandle × TargetTree
  | [] => ([], t)
  | h :: hs =>
    let (gone, t) := dismantle fuel t h
    let (more, t) := dismantleEach fuel t hs
    (gone ++ more, t)

end

/-- The subtree of a name is taken out, and its lists are emptied on the way. -/
def takeOut (t : TargetTree) (held : List TargetHandle) (id : TargetId) :
    List TargetHandle × TargetTree :=
  match t.get? id with
  | none => ([], t)
  | some h =>
    let detached := match t.parent? held h with
      | some p => { t with targets := t.targets.modify p (t.withoutChild id) }
      | none => t
    dismantle detached.targets.size detached h

end TargetTree
end DebugTree
