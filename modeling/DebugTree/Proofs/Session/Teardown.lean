import DebugTree.Proofs.Session.Lasting
import DebugTree.Proofs.Target.Dismantling
import DebugTree.Session.Teardown

/-!
# Tearing down a subtree

The registry may release what it meets on its own way down, or be told who has left after the tree
has gone down.  Both ways meet the same names in the same order (`Registry.releaseFrom_eq`,
`TargetTree.Grown.takeOut_eq_remove`).  What they do to the registry then depends on the names only:
the names of the targets in a tree are all different, so each release finds the record that was
there from the beginning (`Registry.fst_releaseEach`).  Nothing is assumed about the registry.
-/

namespace DebugTree
namespace Session

open TargetTree (Change)

/-! ## Releasing one after the other -/

namespace Registry

variable {g : Registry} {ids : List TargetId}

theorem release_fst (g : Registry) (id : TargetId) :
    (g.release id).1 = (g.sessions.get? id).isSome := by
  rw [release]
  split
  · next h => rw [h]; rfl
  · next h => rw [h]; rfl

theorem releaseAll_eq (g : Registry) (ids : List TargetId) :
    g.releaseAll ids = ((g.releaseEach ids).1.length, (g.releaseEach ids).2) := by
  induction ids generalizing g with
  | nil => rfl
  | cons id ids ih =>
    simp only [releaseAll, releaseEach, ih, release_fst, List.length_append]
    cases g.sessions.get? id <;> simp [Nat.add_comm]

theorem releaseEach_append (g : Registry) (ids ids' : List TargetId) :
    g.releaseEach (ids ++ ids') =
      ((g.releaseEach ids).1 ++ ((g.releaseEach ids).2.releaseEach ids').1,
        ((g.releaseEach ids).2.releaseEach ids').2) := by
  induction ids generalizing g with
  | nil => rfl
  | cons id ids ih => simp only [List.cons_append, releaseEach, ih, List.append_assoc]

/-- Names that are all different do not take records from one another. -/
theorem fst_releaseEach (hnd : ids.Nodup) :
    (g.releaseEach ids).1 = ids.filterMap g.sessions.get? := by
  induction ids generalizing g with
  | nil => rfl
  | cons id ids ih =>
    obtain ⟨hnot, hnd⟩ := List.nodup_cons.mp hnd
    have hlater : ids.filterMap (g.release id).2.sessions.get? = ids.filterMap g.sessions.get? :=
      List.filterMap_congr fun id' hid' => by
        rw [sessions_release, if_neg (by rintro rfl; exact hnot hid')]
    simp only [releaseEach, ih hnd, hlater]
    cases hid : g.sessions.get? id with
    | none => rw [List.filterMap_cons_none hid]; rfl
    | some h => rw [List.filterMap_cons_some hid]; rfl

/-- A record that is let down a second time is none the worse. -/
theorem released_released (r : Record) : r.released.released = r.released := by
  have hreject : ∀ {α : Type} (d : Deferred α) (reason : String),
      ((d.reject reason).2.reject reason).2 = (d.reject reason).2 := by
    rintro α ⟨settlement, dropped⟩ reason
    cases settlement <;> rfl
  simp only [Record.released, hreject]

theorem record?_releaseEach (g : Registry) (ids : List TargetId) (k : RecordHandle) :
    (g.releaseEach ids).2.record? k =
      if k ∈ (g.releaseEach ids).1 then (g.record? k).map Record.released else g.record? k := by
  induction ids generalizing g with
  | nil => rfl
  | cons id ids ih =>
    rw [releaseEach, ih]
    cases hid : g.sessions.get? id with
    | none => rw [release_of_none hid]; rfl
    | some h =>
      rw [record?_release hid]
      by_cases hk : h = k
      · subst hk
        simp [Function.comp_def, released_released]
      · simp [hk, Ne.symm hk]

theorem sessions_releaseEach (g : Registry) (ids : List TargetId) (id : TargetId) :
    (g.releaseEach ids).2.sessions.get? id =
      if id ∈ ids then none else g.sessions.get? id := by
  have hsame := congrArg Prod.snd (releaseAll_eq g ids)
  rw [← hsame, sessions_releaseAll]

/-! ## Releasing on the way down -/

variable {t : TargetTree}

/-- The way down over the lists of children meets the names of the subtree in order. -/
theorem releaseFrom_eq (fuel : Nat) (g : Registry) (h : TargetHandle) :
    releaseFrom t fuel g h = g.releaseEach ((t.subtreeFrom fuel h).map t.idOf) := by
  induction fuel generalizing g h with
  | zero => rw [releaseFrom, TargetTree.subtreeFrom]; rfl
  | succ fuel ih =>
    have hlists : ∀ (hs : List TargetHandle) (g : Registry),
        releaseChildren t fuel g hs = g.releaseEach ((t.subtreesFrom fuel hs).map t.idOf) := by
      intro hs
      induction hs with
      | nil => intro g; rw [releaseChildren, TargetTree.subtreesFrom]; rfl
      | cons c hs ihs =>
        intro g
        rw [releaseChildren, TargetTree.subtreesFrom, List.map_append, releaseEach_append, ih]
        simp only [ihs]
    rw [releaseFrom, hlists, TargetTree.subtreeFrom, List.map_append, releaseEach_append]
    rfl

end Registry

/-! ## The two ways -/

namespace World

variable {w : World} {id : TargetId} {target : TargetHandle}

theorem releaseInTurn_eq (w : World) (hs : List TargetHandle) :
    w.releaseInTurn hs = ((w.registry.releaseEach (hs.map w.tree.idOf)).1,
      { w with registry := (w.registry.releaseEach (hs.map w.tree.idOf)).2 }) := by
  induction hs generalizing w with
  | nil => rfl
  | cons h hs ih => rw [releaseInTurn, ih]; rfl

theorem releaseDown_eq (w : World) (target : TargetHandle) :
    w.releaseDown target = ((w.registry.releaseEach (w.subtreeIds target)).1,
      { w with registry := (w.registry.releaseEach (w.subtreeIds target)).2 }) := by
  rw [releaseDown, Registry.releaseFrom_eq]
  rfl

theorem releaseSubtree_eq (w : World) (target : TargetHandle) : w.releaseSubtree target =
    ((w.releaseDown target).1.length, (w.releaseDown target).2) := by
  rw [releaseSubtree, Registry.releaseAll_eq, releaseDown_eq]

/-- The names of a subtree are all different. -/
theorem nodup_subtreeIds (hg : w.tree.Grown) (hid : w.tree.get? id = some target) :
    (w.subtreeIds target).Nodup := by
  have hindexed : ∀ a ∈ w.tree.subtree target, w.tree.IsIndexed a :=
    fun a ha => hg.sound.isIndexed_of_mem_subtree ⟨id, hid⟩ ha
  exact List.Nodup.map_on (fun a ha b hb heq => hg.sound.eq_of_idOf_eq (hindexed a ha)
    (hindexed b hb) heq) (hg.nodup_subtreeFrom _ target)

/-- Who is kept does not matter to the removal of a target that is in the tree. -/
theorem remove_held_congr (hg : w.tree.Grown) (held held' : List TargetHandle) (id : TargetId) :
    w.tree.remove held id = w.tree.remove held' id := by
  cases hid : w.tree.get? id with
  | none => rw [TargetTree.remove_of_get?_eq_none hid, TargetTree.remove_of_get?_eq_none hid]
  | some h =>
    rw [TargetTree.remove, TargetTree.remove, hid]
    simp only [hg.sound.parent?_eq_starter? ⟨id, hid⟩]

theorem removeTarget_eq (hid : w.tree.get? id = some target) : w.removeTarget id =
    (w.tree.subtree target, { w with tree := (w.tree.remove w.kept id).2 }) := by
  rw [removeTarget, ← TargetTree.remove_of_get? hid]

/-- The names of the targets that have left are what they were. -/
theorem releaseInTurn_removed (hg : w.tree.Grown) (hid : w.tree.get? id = some target) :
    (w.removeTarget id).2.releaseInTurn (w.removeTarget id).1 =
      ((w.registry.releaseEach (w.subtreeIds target)).1,
        { w with
          tree := (w.tree.remove w.kept id).2
          registry := (w.registry.releaseEach (w.subtreeIds target)).2 }) := by
  have hkin : w.tree.SameKin (w.tree.remove w.kept id).2 :=
    (hg.sound.removes_of_remove hid).kin
  have hnames : (w.tree.subtree target).map (w.tree.remove w.kept id).2.idOf =
      w.subtreeIds target := List.map_congr_left fun a _ => hkin.idOf_eq a
  rw [releaseInTurn_eq, removeTarget_eq hid]
  simp only [hnames]

/-- **Two ways to tear a subtree down.**  The records may be released before the targets are
removed, on a way down of its own, or afterwards, one for each target that the removal gives back;
and the removal may empty the lists of children as it goes.  All this releases the same records in
the same order and leaves the same world.  The records are those that the target and everything
below it have at that moment, each target's after those of the targets below it, and no other record
changes. -/
theorem teardown_spec (cs : List Change) {w : World} (htree : w.tree = TargetTree.empty.grow cs)
    {id : TargetId} {target : TargetHandle} (hid : w.tree.get? id = some target) :
    let recordsFirst := w.releaseDown target
    let removed := w.removeTarget id
    let targetsFirst := removed.2.releaseInTurn removed.1
    recordsFirst.1 = targetsFirst.1 ∧
    recordsFirst.2.removeTarget id = (removed.1, targetsFirst.2) ∧
    w.releaseSubtree target = (recordsFirst.1.length, recordsFirst.2) ∧
    w.tree.takeOut w.kept id = (removed.1, targetsFirst.2.tree) ∧
    w.tree.TakesOut target removed.1 targetsFirst.2.tree ∧
    recordsFirst.1 = removed.1.filterMap (fun a => w.registry.sessions.get? (w.tree.idOf a)) ∧
    (∀ name, recordsFirst.2.registry.sessions.get? name =
      if ∃ a ∈ removed.1, w.tree.idOf a = name then none else w.registry.sessions.get? name) ∧
    ∀ k, recordsFirst.2.registry.record? k =
      if k ∈ recordsFirst.1 then (w.registry.record? k).map Record.released
      else w.registry.record? k := by
  have hg : w.tree.Grown := htree ▸ (TargetTree.grown_empty.grow cs).1
  have htaken := hg.takesOut w.kept hid
  have hgone : (w.tree.remove w.kept id).1 = w.tree.subtree target := TargetTree.remove_of_get? hid
  simp only [releaseInTurn_removed hg hid, releaseDown_eq, releaseSubtree_eq]
  refine ⟨trivial, ?_, trivial, ?_, ?_, ?_, ?_, Registry.record?_releaseEach w.registry _⟩
  · rw [removeTarget_eq hid, removeTarget_eq (by exact hid)]
    simp only [remove_held_congr hg _ w.kept]
  · rw [hg.takeOut_eq_remove, removeTarget_eq hid, ← hgone]
  · rwa [removeTarget_eq hid, ← hgone]
  · rw [Registry.fst_releaseEach (nodup_subtreeIds hg hid), removeTarget_eq hid, subtreeIds,
      List.filterMap_map]
    rfl
  · intro name
    rw [Registry.sessions_releaseEach, removeTarget_eq hid, subtreeIds]
    simp only [List.mem_map]

/-- A page with a frame and a worker below the frame.  An earlier worker of this name has left with
a target below it, and their records are still there. -/
def reused : World where
  tree := TargetTree.empty.grow TargetTree.moved
  held := .empty
  clones := []
  registry :=
    ⟨⟨[(⟨0⟩, .fresh ⟨2⟩ ⟨"nested"⟩ "nested"), (⟨1⟩, .fresh ⟨0⟩ ⟨"page"⟩ "page"),
        (⟨2⟩, .fresh ⟨1⟩ ⟨"worker"⟩ "first")]⟩,
      ⟨[(⟨"nested"⟩, ⟨0⟩), (⟨"page"⟩, ⟨1⟩), (⟨"worker"⟩, ⟨2⟩)]⟩⟩
  root := ⟨"editor"⟩
  debugType := "node"
  calls := .empty

/-- The record under the name of the worker goes before that of the page, and the record of the
target that is no longer there stays. -/
theorem teardown_spec_reused :
    (reused.releaseDown ⟨0⟩).1 = [⟨2⟩, ⟨1⟩] ∧
    ((reused.removeTarget ⟨"page"⟩).2.releaseInTurn (reused.removeTarget ⟨"page"⟩).1).1 =
      [⟨2⟩, ⟨1⟩] ∧
    (reused.releaseSubtree ⟨0⟩).1 = 2 ∧
    (reused.releaseDown ⟨0⟩).2.registry.record? ⟨0⟩ = reused.registry.record? ⟨0⟩ := by
  have hpage : reused.tree.get? ⟨"page"⟩ = some ⟨0⟩ := by cbv
  have hgone : (reused.removeTarget ⟨"page"⟩).1 = [⟨4⟩, ⟨3⟩, ⟨0⟩] := by cbv
  obtain ⟨hsame, -, hcount, -, -, hreleased, -, hrecord⟩ := teardown_spec TargetTree.moved rfl hpage
  have hlist : (reused.releaseDown ⟨0⟩).1 = [⟨2⟩, ⟨1⟩] := by
    rw [hreleased, hgone]
    cbv
  refine ⟨hlist, hsame ▸ hlist, by rw [hcount, hlist]; rfl, ?_⟩
  rw [hrecord, hlist, if_neg (by decide)]

end World
end Session
end DebugTree
