import DebugTree.Fault
import DebugTree.Index

/-!
# The tree of targets

One debugging run discovers targets: a page, the workers it starts, the processes that those
start.  The tree holds them under their names, knows who started whom, and takes whole subtrees
out.

## Handles

A name can be used again after its target is gone, while somebody still holds on to the old
target.  So targets are kept under *handles*, one for each addition, and the names are an index
of handles.  Nothing is ever deleted from the targets; `tree.index` says which of them are in the
tree.

## Who is alive

A target knows its parent without keeping it.  The parent is gone once the tree has lost it and
no caller holds it, and from then on the target is without a parent, though it never becomes a
root.  Who is held is the callers' business, so the functions that look upwards take the list of
held handles.
-/

namespace DebugTree

/-- What a target is. -/
inductive TargetKind where
  | page
  | iframe
  | worker
  | sharedWorker
  | serviceWorker
  | node
  | childProcess
  | extensionHost
  | other
  deriving DecidableEq

namespace TargetKind

/-- The target runs a runtime with builtin modules. -/
def isNodeLike : TargetKind → Bool
  | .node | .childProcess | .extensionHost => true
  | _ => false

/-- All kinds. -/
def all : List TargetKind :=
  [.page, .iframe, .worker, .sharedWorker, .serviceWorker, .node, .childProcess, .extensionHost,
   .other]

/-- The word for a kind. -/
def word : TargetKind → String
  | .page => "page"
  | .iframe => "iframe"
  | .worker => "worker"
  | .sharedWorker => "sharedWorker"
  | .serviceWorker => "serviceWorker"
  | .node => "node"
  | .childProcess => "childProcess"
  | .extensionHost => "extensionHost"
  | .other => "other"

/-- The kind that a word names. -/
def ofWord? (w : String) : Option TargetKind :=
  all.find? fun k => k.word == w

end TargetKind

/-- One addition to the tree; a later addition has a larger number. -/
structure TargetHandle where
  number : Nat
  deriving DecidableEq

/-- A debuggable target. -/
structure Target where
  id : TargetId
  name : String
  kind : TargetKind
  /-- Who started it; such a target is older. -/
  parent : Option TargetHandle
  /-- Whom it started, in order. -/
  children : List TargetHandle
  deriving DecidableEq

/-- The targets of a run. -/
structure TargetTree where
  /-- Every target that was ever added. -/
  targets : Index TargetHandle Target
  /-- The targets that are in the tree. -/
  index : Index TargetId TargetHandle

namespace TargetTree

/-- The tree without targets. -/
def empty : TargetTree := ⟨.empty, .empty⟩

instance : Inhabited TargetTree := ⟨empty⟩

/-! ## Looking -/

/-- The target behind a handle. -/
def target? (t : TargetTree) (h : TargetHandle) : Option Target :=
  t.targets.get? h

/-- The handle under a name. -/
def get? (t : TargetTree) (id : TargetId) : Option TargetHandle :=
  t.index.get? id

def contains (t : TargetTree) (id : TargetId) : Bool :=
  t.index.contains id

/-- How many targets are in the tree. -/
def size (t : TargetTree) : Nat :=
  t.index.size

/-- The target is in the tree or held. -/
def isAlive (t : TargetTree) (held : List TargetHandle) (h : TargetHandle) : Bool :=
  t.index.values.contains h || held.contains h

/-- Whom a target was started by, if that target is alive. -/
def parent? (t : TargetTree) (held : List TargetHandle) (h : TargetHandle) :
    Option TargetHandle :=
  ((t.target? h).bind (·.parent)).filter (t.isAlive held)

/-- A target was started by nobody. -/
def isRoot (t : TargetTree) (h : TargetHandle) : Bool :=
  ((t.target? h).bind (·.parent)).isNone

/-- The targets that a target started, in order. -/
def children (t : TargetTree) (h : TargetHandle) : List TargetHandle :=
  ((t.target? h).map (·.children)).getD []

/-- The living ancestors of a target, nearest first.  Each is older than the one before it, which
is why the walk ends. -/
def ancestors (t : TargetTree) (held : List TargetHandle) (h : TargetHandle) :
    List TargetHandle :=
  match t.parent? held h with
  | some p => if p.number < h.number then p :: t.ancestors held p else []
  | none => []
  termination_by h.number

/-- The end of the chain of living ancestors. -/
def root (t : TargetTree) (held : List TargetHandle) (h : TargetHandle) : TargetHandle :=
  (t.ancestors held h).getLastD h

/-- The name of a target. -/
def idOf (t : TargetTree) (h : TargetHandle) : TargetId :=
  ((t.target? h).map (·.id)).getD default

mutual

/-- A target and everything below it, descendants before ancestors. -/
def subtreeFrom (t : TargetTree) : Nat → TargetHandle → List TargetHandle
  | 0, h => [h]
  | fuel + 1, h => subtreesFrom t fuel (t.children h) ++ [h]

/-- The subtrees of several targets, one after the other. -/
def subtreesFrom (t : TargetTree) (fuel : Nat) : List TargetHandle → List TargetHandle
  | [] => []
  | h :: hs => subtreeFrom t fuel h ++ subtreesFrom t fuel hs

end

/-- A target and everything below it, descendants before ancestors.  A child is younger than its
parent, so no branch is longer than the number of targets. -/
def subtree (t : TargetTree) (h : TargetHandle) : List TargetHandle :=
  subtreeFrom t t.targets.size h

/-! ## Changing -/

/-- A target without children of this name. -/
def withoutChild (t : TargetTree) (id : TargetId) (x : Target) : Target :=
  { x with children := x.children.filter fun c => t.idOf c != id }

/-- One more target.  Its name must be free, and its parent in the tree. -/
def add (t : TargetTree) (id : TargetId) (name : String) (kind : TargetKind)
    (parent : Option TargetId) : Except Fault (TargetHandle × TargetTree) := do
  if t.contains id then throw (.duplicateTarget id)
  let parent ← match parent with
    | none => pure none
    | some p => match t.get? p with
      | some h => pure (some h)
      | none => throw (.unknownTarget p)
  let h : TargetHandle := ⟨t.targets.size⟩
  let targets := match parent with
    | some p => t.targets.modify p fun x => { x with children := x.children ++ [h] }
    | none => t.targets
  return (h, ⟨targets.insert h ⟨id, name, kind, parent, []⟩, t.index.insert id h⟩)

/-- One target leaves the tree and lets go of its children. -/
def drop (t : TargetTree) (h : TargetHandle) : TargetTree :=
  { targets := t.targets.modify h fun x => { x with children := [] }
    index := t.index.erase (t.idOf h) }

/-- The subtree of a name leaves the tree: the targets that left, descendants before ancestors. -/
def remove (t : TargetTree) (held : List TargetHandle) (id : TargetId) :
    List TargetHandle × TargetTree :=
  match t.get? id with
  | none => ([], t)
  | some h =>
    let gone := t.subtree h
    let detached := match t.parent? held h with
      | some p => { t with targets := t.targets.modify p (t.withoutChild id) }
      | none => t
    (gone, gone.foldl drop detached)

end TargetTree
end DebugTree
