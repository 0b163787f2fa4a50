import DebugTree.Proofs.Target.Growth

/-!
# A removal that empties the lists as it goes

A removal that empties the very lists that it goes by (`takeOut`) comes to the same as one that
reads a whole subtree first (`remove`), because no target is met twice: a list is emptied after it
has been read, and nobody reads it again.
-/

namespace DebugTree
namespace TargetTree

variable {t s : TargetTree} {id : TargetId} {h p a : TargetHandle} {held : List TargetHandle}
  {fuel : Nat}

/-! ## What is read is not yet emptied -/

theorem children_letGo (t : TargetTree) (h p : TargetHandle) :
    (t.letGo h).children p = if h = p then [] else t.children p := by
  rw [letGo, children_modify]
  split
  · cases t.target? p <;> rfl
  · rfl

theorem drop_eq (t : TargetTree) (h : TargetHandle) : t.drop h = (t.letGo h).strike h := by
  have hid : (t.letGo h).idOf h = t.idOf h :=
    (SameKin.modify t h (fun _ => []) t.index).idOf_eq h
  rw [strike, hid, drop, letGo]

/-- It does not matter when a list is emptied. -/
theorem drop_letGo (t : TargetTree) (h a : TargetHandle) :
    (t.letGo h).drop a = (t.drop a).letGo h := by
  have hid : (t.letGo h).idOf a = t.idOf a :=
    (SameKin.modify t h (fun _ => []) t.index).idOf_eq a
  rw [drop, hid, letGo, letGo, drop]
  by_cases ha : h = a
  · rw [ha]
  · rw [Index.modify_comm _ ha]

theorem foldl_drop_letGo (gone : List TargetHandle) (t : TargetTree) (h : TargetHandle) :
    gone.foldl drop (t.letGo h) = (gone.foldl drop t).letGo h := by
  induction gone generalizing t with
  | nil => rfl
  | cons a gone ih => rw [List.foldl_cons, drop_letGo, ih, List.foldl_cons]

/-- What is met from several targets depends on the lists of those who are met. -/
theorem subtreesFrom_congr {hs : List TargetHandle}
    (hsame : ∀ a ∈ t.subtreesFrom fuel hs, s.children a = t.children a) :
    s.subtreesFrom fuel hs = t.subtreesFrom fuel hs := by
  induction fuel generalizing hs with
  | zero =>
    induction hs with
    | nil => rw [subtreesFrom, subtreesFrom]
    | cons h hs ih =>
      rw [subtreesFrom] at hsame
      rw [subtreesFrom, subtreesFrom, subtreeFrom, subtreeFrom,
        ih fun a ha => hsame a (List.mem_append_right _ ha)]
  | succ fuel ihfuel =>
    induction hs with
    | nil => rw [subtreesFrom, subtreesFrom]
    | cons h hs ih =>
      rw [subtreesFrom] at hsame
      have hown : s.children h = t.children h :=
        hsame h (List.mem_append_left _ (mem_subtreeFrom_self t _ h))
      have hbelow : s.subtreesFrom fuel (t.children h) = t.subtreesFrom fuel (t.children h) :=
        ihfuel fun a ha => hsame a (List.mem_append_left _ (by
          rw [subtreeFrom]; exact List.mem_append_left _ ha))
      rw [subtreesFrom, subtreesFrom, subtreeFrom, subtreeFrom, hown, hbelow,
        ih fun a ha => hsame a (List.mem_append_right _ ha)]

theorem subtreeFrom_congr (hsame : ∀ a ∈ t.subtreeFrom fuel h, s.children a = t.children a) :
    s.subtreeFrom fuel h = t.subtreeFrom fuel h := by
  have hlist : s.subtreesFrom fuel [h] = t.subtreesFrom fuel [h] :=
    subtreesFrom_congr (by simpa [subtreesFrom] using hsame)
  simpa [subtreesFrom] using hlist

/-- **Emptying the lists on the way** takes out the same targets in the same order, if none is met
twice. -/
theorem dismantle_eq (hnd : (t.subtreeFrom fuel h).Nodup) :
    dismantle fuel t h = (t.subtreeFrom fuel h, (t.subtreeFrom fuel h).foldl drop t) := by
  induction fuel generalizing t h with
  | zero => rw [dismantle, subtreeFrom, List.foldl_cons, List.foldl_nil, drop_eq]
  | succ fuel ih =>
    have hlists : ∀ (hs : List TargetHandle) (t : TargetTree), (t.subtreesFrom fuel hs).Nodup →
        dismantleEach fuel t hs =
          (t.subtreesFrom fuel hs, (t.subtreesFrom fuel hs).foldl drop t) := by
      intro hs
      induction hs with
      | nil => intro t _; rw [dismantleEach, subtreesFrom, List.foldl_nil]
      | cons c hs ihs =>
        intro t hnd
        rw [subtreesFrom] at hnd
        obtain ⟨hc, hrest, hapart⟩ := List.nodup_append.mp hnd
        -- The later lists have not been touched, as nobody is met twice.
        have hsame : ((t.subtreeFrom fuel c).foldl drop t).subtreesFrom fuel hs =
            t.subtreesFrom fuel hs :=
          subtreesFrom_congr fun a ha => by
            rw [children_foldl_drop, if_neg fun hmem => hapart a hmem a ha rfl]
        rw [dismantleEach, ih hc]
        simp only
        rw [ihs _ (by rwa [hsame]), hsame, subtreesFrom, List.foldl_append]
    rw [subtreeFrom] at hnd
    obtain ⟨hbelow, -, hapart⟩ := List.nodup_append.mp hnd
    have hsame : (t.letGo h).subtreesFrom fuel (t.children h) =
        t.subtreesFrom fuel (t.children h) :=
      subtreesFrom_congr fun a ha => by
        rw [children_letGo, if_neg fun heq => hapart a ha h (List.mem_singleton_self h) heq.symm]
    rw [dismantle, hlists _ _ (by rwa [hsame])]
    simp only [hsame]
    rw [foldl_drop_letGo, ← drop_eq, subtreeFrom, List.foldl_append, List.foldl_cons,
      List.foldl_nil]

/-! ## The removal -/

/-- What leaves with a target, each once. -/
theorem Grown.nodup_subtreeFrom (hg : t.Grown) (fuel : Nat) (h : TargetHandle) :
    (t.subtreeFrom fuel h).Nodup := by
  refine (hg.sound.pairwise_subtreeFrom hg.listsOnce fuel h).imp ?_
  rintro a _ hnot rfl
  exact hnot .refl

/-- The starter of a target is not met on the way down from it. -/
theorem Sound.starter_notMem_subtreeFrom (hs : t.Sound) (hp : t.starter? h = some p) :
    p ∉ t.subtreeFrom fuel h := by
  intro hmem
  have hle := hs.number_le_of_isBelow (hs.isBelow_of_mem_subtreeFrom hmem)
  have hlt := (hs.older h p hp).2
  omega

/-- **A removal may empty the lists as it goes.** -/
theorem Grown.takeOut_eq_remove (hg : t.Grown) (held : List TargetHandle) (id : TargetId) :
    t.takeOut held id = t.remove held id := by
  rw [takeOut, remove]
  cases hid : t.get? id with
  | none => rfl
  | some h =>
    simp only
    cases hp : t.parent? held h with
    | none =>
      simp only
      rw [dismantle_eq (hg.nodup_subtreeFrom _ h)]
      rfl
    | some p =>
      have hsame : ∀ fuel, (⟨t.targets.modify p (t.withoutChild id), t.index⟩ :
          TargetTree).subtreeFrom fuel h = t.subtreeFrom fuel h := fun fuel =>
        subtreeFrom_congr fun a ha => by
          refine (children_modify t p (fun x => x.children.filter fun c => t.idOf c != id) t.index
            a).trans (if_neg ?_)
          rintro rfl
          exact hg.sound.starter_notMem_subtreeFrom (starter?_of_parent? hp) ha
      simp only
      rw [dismantle_eq (by rw [hsame]; exact hg.nodup_subtreeFrom _ h), hsame, Index.size_modify]
      rfl

end TargetTree
end DebugTree
