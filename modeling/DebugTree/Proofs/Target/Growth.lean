import DebugTree.Proofs.Target.Kinship
import DebugTree.Target.Change
import Mathlib

/-!
# How a tree grows

Who is in the tree does not depend on who is held: the starter of a target in the tree is in the
tree itself, so it is alive anyway (`Sound.parent?_eq_starter?`).

A removal goes down the lists of children and takes out what it meets, each target after everything
below it.  That no target is met twice, and none before something below it, is one fact
(`Sound.pairwise_subtree`): whoever is met first is not above whoever is met later.  For two targets
below different children of one target this holds because a target has only one chain of ancestors.
-/

namespace DebugTree
namespace TargetTree

variable {t t' : TargetTree} {id : TargetId} {h p a b c : TargetHandle} {held : List TargetHandle}

/-! ## Histories -/

theorem grow_append (t : TargetTree) (cs later : List Change) :
    t.grow (cs ++ later) = (t.grow cs).grow later :=
  List.foldl_append

/-- A target lists another one as its child. -/
def Lists (t : TargetTree) (p c : TargetHandle) : Prop :=
  c ∈ t.children p

theorem remove_of_get?_eq_none (hid : t.get? id = none) : t.remove held id = ([], t) := by
  rw [remove, hid]

theorem remove_of_get? (hid : t.get? id = some h) : (t.remove held id).1 = t.subtree h := by
  rw [remove, hid]

/-- Exactly two things are wrong with an addition: its name is taken, or its parent is not in the
tree. -/
theorem add_eq_error_iff {name : String} {kind : TargetKind} {parent : Option TargetId}
    {f : Fault} : t.add id name kind parent = .error f ↔
      (t.contains id = true ∧ f = .duplicateTarget id) ∨
      (t.contains id = false ∧ ∃ q, parent = some q ∧ t.get? q = none ∧ f = .unknownTarget q) := by
  unfold add
  simp only [bind, Except.bind, pure, Except.pure, throw, throwThe, MonadExceptOf.throw]
  cases hid : t.contains id with
  | true => simp [eq_comm]
  | false =>
    cases parent with
    | none => simp
    | some q =>
      cases hq : t.get? q with
      | none => simp [hq, eq_comm]
      | some p => simp [hq]

/-! ## What a change keeps -/

/-- Nobody is listed twice. -/
def ListsOnce (t : TargetTree) : Prop :=
  ∀ p, (t.children p).Nodup

theorem Adds.listsOnce {name : String} {kind : TargetKind} {parent : Option TargetHandle}
    (ha : t.Adds id name kind parent h t') (hs : t.Sound) (honce : t.ListsOnce) :
    t'.ListsOnce := by
  intro p
  rw [ha.children_eq hs]
  split
  · exact List.nodup_nil
  split
  · -- The new target is listed by nobody before.
    refine List.Nodup.append (honce p) (List.nodup_singleton h)
      (List.disjoint_singleton.mpr fun hc => ?_)
    exact ha.ne_of_knows hs (hs.knows_of_isIndexed (hs.listed p h hc).2.1) rfl
  · exact honce p

theorem Removes.listsOnce (hr : t.Removes h t') (honce : t.ListsOnce) : t'.ListsOnce := by
  intro p
  rw [hr.children]
  split
  · exact List.nodup_nil
  split
  · exact (honce p).filter _
  · exact honce p

/-- A tree and a later one: whoever was known keeps its starter and its name, and whoever has left
does not come back. -/
structure Precedes (t t' : TargetTree) : Prop where
  knows : ∀ h, t.Knows h → t'.Knows h
  starter? : ∀ h, t.Knows h → t'.starter? h = t.starter? h
  idOf : ∀ h, t.Knows h → t'.idOf h = t.idOf h
  isIndexed : ∀ h, t.Knows h → t'.IsIndexed h → t.IsIndexed h

namespace Precedes

theorem refl (t : TargetTree) : t.Precedes t :=
  ⟨fun _ hk => hk, fun _ _ => rfl, fun _ _ => rfl, fun _ _ hi => hi⟩

theorem trans {t'' : TargetTree} (h : t.Precedes t') (h' : t'.Precedes t'') :
    t.Precedes t'' where
  knows x hk := h'.knows x (h.knows x hk)
  starter? x hk := (h'.starter? x (h.knows x hk)).trans (h.starter? x hk)
  idOf x hk := (h'.idOf x (h.knows x hk)).trans (h.idOf x hk)
  isIndexed x hk hi := h.isIndexed x hk (h'.isIndexed x (h.knows x hk) hi)

end Precedes

theorem Adds.precedes {name : String} {kind : TargetKind} {parent : Option TargetHandle}
    (ha : t.Adds id name kind parent h t') (hs : t.Sound) : t.Precedes t' where
  knows x hk := (ha.knows_iff x).mpr (Or.inr hk)
  starter? x hk := by rw [ha.starter?_eq, if_neg (ha.ne_of_knows hs hk)]
  idOf x hk := by rw [ha.idOf_eq, if_neg (ha.ne_of_knows hs hk)]
  isIndexed x hk hi := ((ha.isIndexed_iff x).mp hi).resolve_left (ha.ne_of_knows hs hk)

theorem Removes.precedes (hr : t.Removes h t') (hs : t.Sound) : t.Precedes t' where
  knows x hk := (hr.kin.knows_iff x).mpr hk
  starter? x _ := hr.kin.starter?_eq x
  idOf x _ := hr.kin.idOf_eq x
  isIndexed x _ hi := ((hr.isIndexed_iff hs x).mp hi).1

/-- The invariant of all histories. -/
structure Grown (t : TargetTree) : Prop where
  sound : t.Sound
  listsOnce : t.ListsOnce

theorem grown_empty : empty.Grown :=
  ⟨sound_empty, fun _ => List.nodup_nil⟩

theorem Grown.change (hg : t.Grown) (c : Change) :
    (t.change c).Grown ∧ t.Precedes (t.change c) := by
  cases c with
  | add id name kind parent =>
    cases hadd : t.add id name kind parent with
    | error f =>
      simp only [TargetTree.change, hadd]
      exact ⟨hg, .refl t⟩
    | ok added =>
      obtain ⟨h, t'⟩ := added
      obtain ⟨q, ha⟩ := hg.sound.adds_of_add hadd
      simp only [TargetTree.change, hadd]
      exact ⟨⟨ha.sound hg.sound, ha.listsOnce hg.sound hg.listsOnce⟩, ha.precedes hg.sound⟩
  | remove held id =>
    cases hid : t.get? id with
    | none =>
      simp only [TargetTree.change, remove_of_get?_eq_none hid]
      exact ⟨hg, .refl t⟩
    | some h =>
      have hr : t.Removes h (t.change (.remove held id)) := hg.sound.removes_of_remove hid
      exact ⟨⟨hr.sound hg.sound, hr.listsOnce hg.listsOnce⟩, hr.precedes hg.sound⟩

theorem Grown.grow (hg : t.Grown) (cs : List Change) :
    (t.grow cs).Grown ∧ t.Precedes (t.grow cs) := by
  induction cs generalizing t with
  | nil => exact ⟨hg, .refl t⟩
  | cons c cs ih =>
    obtain ⟨hstep, hbefore⟩ := hg.change c
    obtain ⟨hrest, hafter⟩ := ih hstep
    exact ⟨hrest, hbefore.trans hafter⟩

/-! ## The way up -/

/-- The chain of ancestors of a target in the tree does not depend on who is held. -/
theorem Sound.ancestors_of_isIndexed (hs : t.Sound) (hi : t.IsIndexed h)
    (hp : t.starter? h = some p) : t.ancestors held h = p :: t.ancestors held p := by
  have hparent : t.parent? held h = some p := (hs.parent?_eq_starter? hi).trans hp
  rw [ancestors, hparent]
  exact if_pos (hs.older h p hp).2

theorem ancestors_of_starter?_eq_none (hp : t.starter? h = none) : t.ancestors held h = [] := by
  have hparent : t.parent? held h = none :=
    Option.eq_none_iff_forall_ne_some.mpr fun q hq => by
      rw [starter?_of_parent? hq] at hp
      cases hp
  rw [ancestors, hparent]

theorem isRoot_iff : t.isRoot h = true ↔ t.starter? h = none :=
  Option.isNone_iff_eq_none

/-- **The way up ends in a root in the tree**, over parents that are all in the tree. -/
theorem Sound.root_of_isIndexed (hs : t.Sound) (hi : t.IsIndexed h) :
    (h :: t.ancestors held h).IsChain (fun a b => t.parent? held a = some b) ∧
      t.IsIndexed (t.root held h) ∧ t.isRoot (t.root held h) = true := by
  induction hn : h.number using Nat.strongRecOn generalizing h with
  | ind n ih =>
    subst hn
    cases hp : t.starter? h with
    | none =>
      rw [root, ancestors_of_starter?_eq_none hp]
      exact ⟨.singleton h, hi, isRoot_iff.mpr hp⟩
    | some p =>
      have hup : t.ancestors held h = p :: t.ancestors held p := hs.ancestors_of_isIndexed hi hp
      obtain ⟨hchain, hroot⟩ := ih p.number (hs.older h p hp).2 (hs.rooted h p hi hp).1 rfl
      rw [root, hup, List.getLastD_cons]
      exact ⟨List.isChain_cons_cons.mpr ⟨(hs.parent?_eq_starter? hi).trans hp, hchain⟩, hroot⟩

/-- While a target stays in the tree, its root stays. -/
theorem Sound.root_eq_of_precedes {held' : List TargetHandle} (hs : t.Sound) (hs' : t'.Sound)
    (hlater : t.Precedes t') (hi : t.IsIndexed h) (hi' : t'.IsIndexed h) :
    t'.root held' h = t.root held h := by
  induction hn : h.number using Nat.strongRecOn generalizing h with
  | ind n ih =>
    subst hn
    have hstart := hlater.starter? h (hs.knows_of_isIndexed hi)
    cases hp : t.starter? h with
    | none =>
      rw [root, root, ancestors_of_starter?_eq_none hp,
        ancestors_of_starter?_eq_none (hstart.trans hp)]
    | some p =>
      have hp' := hstart.trans hp
      have hrest := ih p.number (hs.older h p hp).2 (hs.rooted h p hi hp).1
        (hs'.rooted h p hi' hp').1 rfl
      rw [root, root, hs.ancestors_of_isIndexed hi hp, hs'.ancestors_of_isIndexed hi' hp',
        List.getLastD_cons, List.getLastD_cons]
      exact hrest

/-! ## The way down -/

/-- A target is another one or descends from it. -/
abbrev IsBelow (t : TargetTree) : TargetHandle → TargetHandle → Prop :=
  Relation.ReflTransGen fun h p => t.starter? h = some p

theorem Sound.isBelow_of_mem_subtreeFrom (hs : t.Sound) {fuel : Nat}
    (ha : a ∈ t.subtreeFrom fuel h) : t.IsBelow a h := by
  induction fuel generalizing h with
  | zero =>
    obtain rfl : a = h := by simpa [subtreeFrom] using ha
    exact .refl
  | succ fuel ih =>
    rcases mem_subtreeFrom_succ_iff.mp ha with rfl | ⟨c, hc, ha⟩
    · exact .refl
    · exact (ih ha).tail (hs.listed h c hc).2.2

theorem Sound.number_le_of_isBelow (hs : t.Sound) (ha : t.IsBelow a h) : h.number ≤ a.number := by
  induction ha with
  | refl => exact Nat.le_refl _
  | tail _ hp ih => exact Nat.le_trans (Nat.le_of_lt (hs.older _ _ hp).2) ih

/-- A target is not below another child of its own parent. -/
theorem Sound.eq_of_isBelow (hs : t.Sound) (hbelow : t.IsBelow a b) (ha : t.starter? a = some h)
    (hb : t.starter? b = some h) : a = b := by
  rcases Relation.ReflTransGen.cases_head hbelow with rfl | ⟨q, hq, hup⟩
  · rfl
  · obtain rfl := Option.some.inj (ha.symm.trans hq)
    have hle := hs.number_le_of_isBelow hup
    have hlt := (hs.older b h hb).2
    omega

/-- Nobody is below two children of one target. -/
theorem Sound.eq_of_isBelow_of_isBelow (hs : t.Sound) (ha : t.IsBelow a b) (ha' : t.IsBelow a c)
    (hb : t.starter? b = some h) (hc : t.starter? c = some h) : b = c := by
  have hunique : Relator.RightUnique fun h p => t.starter? h = some p :=
    fun _ _ _ hx hy => Option.some.inj (hx.symm.trans hy)
  rcases Relation.ReflTransGen.total_of_right_unique hunique ha ha' with hbelow | hbelow
  · exact hs.eq_of_isBelow hbelow hb hc
  · exact (hs.eq_of_isBelow hbelow hc hb).symm

/-- **Whoever is met later is not below whoever is met earlier**, and has not been met before. -/
theorem Sound.pairwise_subtreeFrom (hs : t.Sound) (honce : t.ListsOnce) (fuel : Nat)
    (h : TargetHandle) : (t.subtreeFrom fuel h).Pairwise fun a b => ¬ t.IsBelow b a := by
  induction fuel generalizing h with
  | zero =>
    rw [subtreeFrom]
    exact List.pairwise_singleton _ h
  | succ fuel ih =>
    have hlists : ∀ cs : List TargetHandle, cs.Nodup → (∀ c ∈ cs, c ∈ t.children h) →
        (t.subtreesFrom fuel cs).Pairwise fun a b => ¬ t.IsBelow b a := by
      intro cs hnd hcs
      induction cs with
      | nil =>
        rw [subtreesFrom]
        exact List.Pairwise.nil
      | cons c cs ihcs =>
        obtain ⟨hnot, hnd⟩ := List.nodup_cons.mp hnd
        obtain ⟨hc, hcs⟩ := List.forall_mem_cons.mp hcs
        rw [subtreesFrom]
        refine List.pairwise_append.mpr ⟨ih c, ihcs hnd hcs, fun a ha b hb hab => ?_⟩
        obtain ⟨c', hc', hb⟩ := mem_subtreesFrom_iff.mp hb
        have heq : c = c' := hs.eq_of_isBelow_of_isBelow
          (hab.trans (hs.isBelow_of_mem_subtreeFrom ha)) (hs.isBelow_of_mem_subtreeFrom hb)
          (hs.listed h c hc).2.2 (hs.listed h c' (hcs c' hc')).2.2
        exact hnot (heq ▸ hc')
    rw [subtreeFrom]
    refine List.pairwise_append.mpr ⟨hlists _ (honce h) fun _ hc => hc,
      List.pairwise_singleton _ h, fun a ha b hb hab => ?_⟩
    obtain rfl := List.mem_singleton.mp hb
    obtain ⟨c, hc, ha⟩ := mem_subtreesFrom_iff.mp ha
    have hle := hs.number_le_of_isBelow (hab.trans (hs.isBelow_of_mem_subtreeFrom ha))
    have hlt := (hs.older c b (hs.listed b c hc).2.2).2
    omega

theorem lists_of_mem_subtreeFrom {fuel : Nat} (ha : a ∈ t.subtreeFrom fuel h) :
    Relation.ReflTransGen t.Lists h a := by
  induction fuel generalizing h with
  | zero =>
    obtain rfl : a = h := by simpa [subtreeFrom] using ha
    exact .refl
  | succ fuel ih =>
    rcases mem_subtreeFrom_succ_iff.mp ha with rfl | ⟨c, hc, ha⟩
    · exact .refl
    · exact (ih ha).head hc

/-- A subtree is what can be reached over the lists of children. -/
theorem Sound.mem_subtree_iff (hs : t.Sound) :
    a ∈ t.subtree h ↔ Relation.ReflTransGen t.Lists h a := by
  refine ⟨lists_of_mem_subtreeFrom, fun ha => ?_⟩
  induction ha with
  | refl => exact mem_subtreeFrom_self t _ h
  | tail _ hc ih => exact hs.mem_subtree ih hc

/-! ## Main statement -/

/-- Everybody in the tree hangs below somebody in the tree, up to a root.  Who is held does not
matter. -/
structure HangsTogether (t : TargetTree) : Prop where
  /-- A target in the tree is a root, or its parent is in the tree and lists it exactly once. -/
  hung : ∀ h, t.IsIndexed h → t.isRoot h = true ∨
    ∃ p, (∀ held, t.parent? held h = some p) ∧ t.IsIndexed p ∧ (t.children p).count h = 1
  /-- Who is listed is in the tree and has the one who lists it as parent. -/
  listed : ∀ p h, h ∈ t.children p →
    t.IsIndexed p ∧ t.IsIndexed h ∧ ∀ held, t.parent? held h = some p
  /-- The ancestors of a target in the tree are a chain of parents. -/
  chained : ∀ held h, t.IsIndexed h →
    (h :: t.ancestors held h).IsChain fun a b => t.parent? held a = some b
  /-- The chain ends in a root in the tree. -/
  rooted : ∀ held h, t.IsIndexed h →
    (h :: t.ancestors held h).getLast? = some (t.root held h) ∧
      t.IsIndexed (t.root held h) ∧ t.isRoot (t.root held h) = true

/-- What a removal gives back and leaves. -/
structure TakesOut (t : TargetTree) (h : TargetHandle) (gone : List TargetHandle)
    (t' : TargetTree) : Prop where
  /-- It takes out what can be reached over the lists of children. -/
  mem_iff : ∀ a, a ∈ gone ↔ Relation.ReflTransGen t.Lists h a
  nodup : gone.Nodup
  /-- No target comes before one that can be reached from it. -/
  ordered : gone.Pairwise fun a b => ¬ Relation.TransGen t.Lists a b
  isIndexed_iff : ∀ a, t'.IsIndexed a ↔ t.IsIndexed a ∧ a ∉ gone

theorem Grown.takesOut (hg : t.Grown) (held : List TargetHandle) (hid : t.get? id = some h) :
    t.TakesOut h (t.remove held id).1 (t.remove held id).2 := by
  have hr : t.Removes h (t.remove held id).2 := hg.sound.removes_of_remove hid
  have hpair := hg.sound.pairwise_subtreeFrom hg.listsOnce t.targets.size h
  rw [remove_of_get? hid]
  refine ⟨fun a => hg.sound.mem_subtree_iff, hpair.imp ?_, hpair.imp ?_,
    fun a => hr.isIndexed_iff hg.sound a⟩
  · rintro a _ hnot rfl
    exact hnot .refl
  · intro a b hnot hab
    exact hnot (hg.sound.isBelow_of_mem_subtreeFrom
      (hg.sound.mem_subtree_iff.mpr hab.to_reflTransGen))

/-- **Whatever is added and removed, and whoever is held, the tree hangs together**, and a target
keeps its root for as long as it is in the tree.  A removal takes out a target and all that can be
reached from it over the lists of children, each once and after everything below it.  An addition is
refused exactly if its name is taken or its parent is not in the tree, and then it changes
nothing. -/
theorem grow_spec (cs : List Change) :
    (empty.grow cs).HangsTogether ∧
    (∀ later h, (empty.grow cs).IsIndexed h → (empty.grow (cs ++ later)).IsIndexed h →
      ∀ held held', (empty.grow (cs ++ later)).idOf ((empty.grow (cs ++ later)).root held' h) =
        (empty.grow cs).idOf ((empty.grow cs).root held h)) ∧
    (∀ held id h, (empty.grow cs).get? id = some h →
      (empty.grow cs).TakesOut h ((empty.grow cs).remove held id).1
        ((empty.grow cs).remove held id).2) ∧
    (∀ held id, (empty.grow cs).get? id = none →
      (empty.grow cs).remove held id = ([], empty.grow cs)) ∧
    (∀ id name kind parent f, (empty.grow cs).add id name kind parent = .error f ↔
      ((empty.grow cs).contains id = true ∧ f = .duplicateTarget id) ∨
      ((empty.grow cs).contains id = false ∧ ∃ q, parent = some q ∧
        (empty.grow cs).get? q = none ∧ f = .unknownTarget q)) ∧
    ∀ id name kind parent f, (empty.grow cs).add id name kind parent = .error f →
      empty.grow (cs ++ [.add id name kind parent]) = empty.grow cs := by
  have hgrown := (grown_empty.grow cs).1
  obtain ⟨hs, honce⟩ := hgrown
  refine ⟨⟨fun h hi => ?_, fun p h hc => ?_, fun held h hi => (hs.root_of_isIndexed hi).1,
    fun held h hi => ⟨?_, (hs.root_of_isIndexed hi).2⟩⟩, fun later h hi hi' held held' => ?_,
    fun held id h hid => ?_, fun held id hid => remove_of_get?_eq_none hid,
    fun id name kind parent f => add_eq_error_iff, fun id name kind parent f hadd => ?_⟩
  · cases hp : (empty.grow cs).starter? h with
    | none => exact Or.inl (isRoot_iff.mpr hp)
    | some p =>
      obtain ⟨hip, hc⟩ := hs.rooted h p hi hp
      exact Or.inr ⟨p, fun held => (hs.parent?_eq_starter? hi).trans hp, hip,
        List.count_eq_one_of_mem (honce p) hc⟩
  · obtain ⟨hip, hih, hp⟩ := hs.listed p h hc
    exact ⟨hip, hih, fun held => (hs.parent?_eq_starter? hih).trans hp⟩
  · rw [List.getLast?_cons, root, List.getLastD_eq_getLast?]
  · have hlater := (Grown.mk hs honce).grow later
    rw [grow_append] at hi' ⊢
    have hroot : ((empty.grow cs).grow later).root held' h = (empty.grow cs).root held h :=
      hs.root_eq_of_precedes hlater.1.sound hlater.2 hi hi'
    rw [hroot]
    exact hlater.2.idOf _ (hs.knows_of_isIndexed (hs.root_of_isIndexed hi).2.1)
  · exact (Grown.mk hs honce).takesOut held hid
  · rw [grow_append]
    simp only [grow, List.foldl_cons, List.foldl_nil, change]
    rw [← grow, hadd]

/-- A page with a frame, and a worker of the page that is removed and comes back below the frame. -/
def moved : List Change :=
  [.add ⟨"page"⟩ "page" .page none, .add ⟨"worker"⟩ "first" .worker (some ⟨"page"⟩),
    .add ⟨"nested"⟩ "nested" .worker (some ⟨"worker"⟩),
    .add ⟨"frame"⟩ "frame" .iframe (some ⟨"page"⟩), .remove [⟨1⟩] ⟨"worker"⟩,
    .add ⟨"worker"⟩ "second" .worker (some ⟨"frame"⟩)]

/-- The second worker leaves with the page, the first one has left long before; the frame keeps its
root when the worker goes; and a taken name changes nothing. -/
theorem grow_spec_moved :
    (empty.grow moved).TakesOut ⟨0⟩ [⟨4⟩, ⟨3⟩, ⟨0⟩] ((empty.grow moved).remove [⟨1⟩] ⟨"page"⟩).2 ∧
    (empty.grow (moved ++ [.remove [] ⟨"worker"⟩])).idOf
        ((empty.grow (moved ++ [.remove [] ⟨"worker"⟩])).root [] ⟨3⟩) =
      (empty.grow moved).idOf ((empty.grow moved).root [⟨1⟩] ⟨3⟩) ∧
    empty.grow (moved ++ [.add ⟨"frame"⟩ "again" .page none]) = empty.grow moved := by
  have hpage : (empty.grow moved).get? ⟨"page"⟩ = some ⟨0⟩ := by cbv
  have hgone : ((empty.grow moved).remove [⟨1⟩] ⟨"page"⟩).1 = [⟨4⟩, ⟨3⟩, ⟨0⟩] := by cbv
  have hframe : (empty.grow moved).get? ⟨"frame"⟩ = some ⟨3⟩ := by cbv
  have hstays : (empty.grow (moved ++ [.remove [] ⟨"worker"⟩])).get? ⟨"frame"⟩ = some ⟨3⟩ := by cbv
  have hrefused : (empty.grow moved).add ⟨"frame"⟩ "again" .page none =
      .error (.duplicateTarget ⟨"frame"⟩) := by cbv
  obtain ⟨-, hroot, hremove, -, -, hadd⟩ := grow_spec moved
  exact ⟨hgone ▸ hremove [⟨1⟩] ⟨"page"⟩ ⟨0⟩ hpage,
    hroot [.remove [] ⟨"worker"⟩] ⟨3⟩ ⟨_, hframe⟩ ⟨_, hstays⟩ [⟨1⟩] [],
    hadd ⟨"frame"⟩ "again" .page none _ hrefused⟩

end TargetTree
end DebugTree
