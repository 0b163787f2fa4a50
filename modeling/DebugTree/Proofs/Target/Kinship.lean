import DebugTree.Proofs.Index
import DebugTree.Target.Tree
import Mathlib.Logic.Relation

/-!
# Who descends from whom

A target never changes its name, and never its parent.  What changes is who is in the tree, and whom
a target lists as its children.  Both change together: whoever is in the tree has its parent there
too and is listed by it, and whoever is listed is in the tree (`TargetTree.Sound`).  A removal keeps
this because it takes everything out that can be reached over the lists of children.

A name is free only when nobody in the tree has it, and a new target's ancestors are all in the tree
when it is added.  So **no target has the name of one of its ancestors**, then or later
(`Sound.distinct`), though two targets may well have one name after the other.
-/

namespace DebugTree
namespace TargetTree

variable {t t' : TargetTree} {id : TargetId} {h p a : TargetHandle} {x : Target}
  {held : List TargetHandle}

/-! ## Views of a tree -/

/-- The target was added at some time. -/
def Knows (t : TargetTree) (h : TargetHandle) : Prop :=
  ∃ x, t.target? h = some x

/-- The target is in the tree. -/
def IsIndexed (t : TargetTree) (h : TargetHandle) : Prop :=
  ∃ id, t.get? id = some h

/-- Who started a target, dead or alive. -/
def starter? (t : TargetTree) (h : TargetHandle) : Option TargetHandle :=
  (t.target? h).bind (·.parent)

/-- How a target is called: its name in the tree, and the one that people read. -/
def label? (t : TargetTree) (h : TargetHandle) : Option (TargetId × String) :=
  (t.target? h).map fun x => (x.id, x.name)

/-- One target descends from another. -/
abbrev Descends (t : TargetTree) : TargetHandle → TargetHandle → Prop :=
  Relation.TransGen fun h p => t.starter? h = some p

theorem idOf_of_target? (hx : t.target? h = some x) : t.idOf h = x.id := by
  rw [idOf, hx]
  rfl

theorem knows_of_label? {l : TargetId × String} (hl : t.label? h = some l) : t.Knows h := by
  obtain ⟨x, hx, -⟩ := Option.map_eq_some_iff.mp hl
  exact ⟨x, hx⟩

theorem idOf_of_label? {id : TargetId} {name : String} (hl : t.label? h = some (id, name)) :
    t.idOf h = id := by
  obtain ⟨x, hx, heq⟩ := Option.map_eq_some_iff.mp hl
  rw [idOf_of_target? hx]
  exact congrArg Prod.fst heq

theorem starter?_of_parent? (hp : t.parent? held h = some p) : t.starter? h = some p :=
  (Option.filter_eq_some_iff.mp hp).1

/-- Whoever is met on the way up is an ancestor. -/
theorem descends_of_mem_ancestors (ha : a ∈ t.ancestors held h) : t.Descends h a := by
  induction h using TargetTree.ancestors.induct t held with
  | case1 h p hp hlt ih =>
    rw [ancestors, hp] at ha
    simp only [hlt, if_true, List.mem_cons] at ha
    have hstart := starter?_of_parent? hp
    rcases ha with rfl | ha
    · exact .single hstart
    · exact .head hstart (ih ha)
  | case2 h p hp hlt =>
    rw [ancestors, hp] at ha
    simp only [hlt, if_false, List.not_mem_nil] at ha
  | case3 h hp =>
    rw [ancestors, hp] at ha
    cases ha

/-- The way up depends only on who is alive among the older targets. -/
theorem ancestors_congr {held' : List TargetHandle}
    (halive : ∀ p, p.number < h.number → t.isAlive held p = t.isAlive held' p) :
    t.ancestors held h = t.ancestors held' h := by
  induction h using TargetTree.ancestors.induct t held with
  | case1 h p hp hlt ih =>
    have hp' : t.parent? held' h = some p := by
      obtain ⟨hstart, hp⟩ := Option.filter_eq_some_iff.mp hp
      exact Option.filter_eq_some_iff.mpr ⟨hstart, halive p hlt ▸ hp⟩
    rw [ancestors, ancestors.eq_1 t held' h, hp, hp']
    simp only [hlt, if_true]
    rw [ih fun q hq => halive q (Nat.lt_trans hq hlt)]
  | case2 h p hp hlt =>
    have hleft : t.ancestors held h = [] := by
      rw [ancestors, hp]
      exact if_neg hlt
    rw [hleft, ancestors]
    split
    · next q hq =>
      obtain rfl := Option.some.inj ((starter?_of_parent? hq).symm.trans (starter?_of_parent? hp))
      rw [if_neg hlt]
    · rfl
  | case3 h hp =>
    have hleft : t.ancestors held h = [] := by
      rw [ancestors, hp]
    rw [hleft, ancestors]
    split
    · next q hq =>
      obtain ⟨hstart, hq⟩ := Option.filter_eq_some_iff.mp hq
      split
      · next hlt => exact absurd (halive q hlt ▸ hq) (Option.filter_eq_none_iff.mp hp q hstart)
      · rfl
    · rfl

/-! ## Trees that hang together -/

/-- Handles are given out in order, the names of the tree are right, and whoever is in the tree
hangs below somebody in the tree who lists it. -/
structure Sound (t : TargetTree) : Prop where
  numbered : ∀ h, t.Knows h → h.number < t.targets.size
  named : ∀ id h, t.get? id = some h → t.Knows h ∧ t.idOf h = id
  older : ∀ h p, t.starter? h = some p → t.Knows p ∧ p.number < h.number
  rooted : ∀ h p, t.IsIndexed h → t.starter? h = some p → t.IsIndexed p ∧ h ∈ t.children p
  listed : ∀ p h, h ∈ t.children p → t.IsIndexed p ∧ t.IsIndexed h ∧ t.starter? h = some p
  distinct : ∀ h a, t.Descends h a → t.idOf a ≠ t.idOf h

theorem sound_empty : empty.Sound where
  numbered h hk := by obtain ⟨x, hx⟩ := hk; cases hx
  named _ _ hid := by cases hid
  older _ _ hp := by cases hp
  rooted _ _ hi := by obtain ⟨id, hid⟩ := hi; cases hid
  listed _ _ hc := by cases hc
  distinct h a hd := by
    induction hd with
    | single hp => cases hp
    | tail _ hp => cases hp

theorem Sound.knows_of_isIndexed (hs : t.Sound) (hi : t.IsIndexed h) : t.Knows h := by
  obtain ⟨id, hid⟩ := hi
  exact (hs.named id h hid).1

theorem Sound.get?_idOf (hs : t.Sound) (hi : t.IsIndexed h) : t.get? (t.idOf h) = some h := by
  obtain ⟨id, hid⟩ := hi
  rw [(hs.named id h hid).2, hid]

/-- Two targets of one name are not in the tree together. -/
theorem Sound.eq_of_idOf_eq (hs : t.Sound) (hh : t.IsIndexed h) (hp : t.IsIndexed p)
    (hid : t.idOf h = t.idOf p) : h = p := by
  have hget := hs.get?_idOf hh
  rw [hid, hs.get?_idOf hp] at hget
  exact (Option.some.inj hget).symm

/-- All ancestors of a target in the tree are in the tree. -/
theorem Sound.isIndexed_of_descends (hs : t.Sound) (hi : t.IsIndexed h) (hd : t.Descends h a) :
    t.IsIndexed a := by
  induction hd with
  | single hp => exact (hs.rooted _ _ hi hp).1
  | tail _ hp ih => exact (hs.rooted _ _ ih hp).1

theorem Sound.idOf_ne_of_mem_ancestors (hs : t.Sound) (ha : a ∈ t.ancestors held h) :
    t.idOf a ≠ t.idOf h :=
  hs.distinct h a (descends_of_mem_ancestors ha)

/-! ## One more target -/

/-- What an addition does, seen from outside. -/
structure Adds (t : TargetTree) (id : TargetId) (name : String) (kind : TargetKind)
    (parent : Option TargetHandle) (h : TargetHandle) (t' : TargetTree) : Prop where
  fresh : h = ⟨t.targets.size⟩
  free : t.get? id = none
  known : ∀ p, parent = some p → t.IsIndexed p
  size : t'.targets.size = t.targets.size + 1
  get? : ∀ id', t'.get? id' = if id = id' then some h else t.get? id'
  target? : ∀ h', t'.target? h' = if h = h' then some ⟨id, name, kind, parent, []⟩
    else (t.target? h').map fun x =>
      if parent = some h' then { x with children := x.children ++ [h] } else x

theorem Sound.target?_next (hs : t.Sound) : t.target? ⟨t.targets.size⟩ = none := by
  by_contra hsome
  obtain ⟨x, hx⟩ := Option.ne_none_iff_exists'.mp hsome
  exact absurd (hs.numbered _ ⟨x, hx⟩) (Nat.lt_irrefl _)

theorem Sound.adds_of_add (hs : t.Sound) {name : String} {kind : TargetKind}
    {parent : Option TargetId} (hadd : t.add id name kind parent = .ok (h, t')) :
    ∃ parent, t.Adds id name kind parent h t' := by
  unfold add at hadd
  simp only [bind, Except.bind, pure, Except.pure, throw, throwThe, MonadExceptOf.throw] at hadd
  split at hadd
  · cases hadd
  next hfree =>
  have hfree : t.get? id = none := by simpa [contains, Index.contains, get?] using hfree
  cases parent with
  | none =>
    cases hadd
    refine ⟨none, rfl, hfree, fun p hp => (by cases hp), ?_, fun id' => Index.get?_insert _ _ _ _,
      fun h' => ?_⟩
    · exact Index.size_insert_of_get?_eq_none hs.target?_next _
    · refine (Index.get?_insert _ _ _ _).trans ?_
      simp [target?]
  | some q =>
    cases hq : t.get? q with
    | none =>
      simp only [hq] at hadd
      cases hadd
    | some p =>
      simp only [hq] at hadd
      cases hadd
      have hnew : (t.targets.modify p fun x => { x with
          children := x.children ++ [(⟨t.targets.size⟩ : TargetHandle)] }).get?
            ⟨t.targets.size⟩ = none := by
        rw [Index.get?_eq_none_iff, Index.keys_modify, ← Index.get?_eq_none_iff]
        exact hs.target?_next
      refine ⟨some p, rfl, hfree, fun p' hp => ⟨q, by rw [hq, hp]⟩, ?_,
        fun id' => Index.get?_insert _ _ _ _, fun h' => ?_⟩
      · refine (Index.size_insert_of_get?_eq_none hnew _).trans ?_
        rw [Index.size_modify]
      · refine (Index.get?_insert _ _ _ _).trans ?_
        rw [Index.get?_modify, target?]
        by_cases hp : p = h'
        · subst hp
          simp
        · simp [hp]

namespace Adds

variable {name : String} {kind : TargetKind} {parent : Option TargetHandle}

theorem starter?_eq (ha : t.Adds id name kind parent h t') (h' : TargetHandle) :
    t'.starter? h' = if h = h' then parent else t.starter? h' := by
  rw [starter?, ha.target?]
  split
  · rfl
  · rw [starter?]
    cases t.target? h' with
    | none => rfl
    | some x =>
      rw [Option.map_some, Option.bind_some, Option.bind_some]
      split <;> rfl

theorem idOf_eq (ha : t.Adds id name kind parent h t') (h' : TargetHandle) :
    t'.idOf h' = if h = h' then id else t.idOf h' := by
  rw [idOf, ha.target?]
  split
  · rfl
  · rw [idOf]
    cases t.target? h' with
    | none => rfl
    | some x =>
      rw [Option.map_some, Option.map_some, Option.map_some]
      split <;> rfl

theorem knows_iff (ha : t.Adds id name kind parent h t') (h' : TargetHandle) :
    t'.Knows h' ↔ h = h' ∨ t.Knows h' := by
  rw [Knows, ha.target?]
  split
  · next hh => exact iff_of_true ⟨_, rfl⟩ (Or.inl hh)
  · next hh => simp [Knows, hh]

theorem isIndexed_iff (ha : t.Adds id name kind parent h t') (h' : TargetHandle) :
    t'.IsIndexed h' ↔ h = h' ∨ t.IsIndexed h' := by
  constructor
  · rintro ⟨id', hid⟩
    rw [ha.get?] at hid
    split at hid
    · exact Or.inl (Option.some.inj hid)
    · exact Or.inr ⟨id', hid⟩
  · rintro (rfl | ⟨id', hid⟩)
    · exact ⟨id, by rw [ha.get?, if_pos rfl]⟩
    · refine ⟨id', ?_⟩
      rw [ha.get?, if_neg, hid]
      rintro rfl
      rw [ha.free] at hid
      cases hid

theorem children_eq (ha : t.Adds id name kind parent h t') (hs : t.Sound) (h' : TargetHandle) :
    t'.children h' = if h = h' then [] else
      if parent = some h' then t.children h' ++ [h] else t.children h' := by
  rw [children, ha.target?]
  split
  · rfl
  · rw [children]
    cases hx : t.target? h' with
    | none =>
      rw [if_neg]
      · rfl
      · intro hp
        obtain ⟨x, hx'⟩ := hs.knows_of_isIndexed (ha.known h' hp)
        rw [hx] at hx'
        cases hx'
    | some x =>
      rw [Option.map_some, Option.map_some, Option.map_some]
      split <;> rfl

theorem ne_of_knows (ha : t.Adds id name kind parent h t') (hs : t.Sound) {h' : TargetHandle}
    (hk : t.Knows h') : h ≠ h' := by
  rintro rfl
  obtain ⟨x, hx⟩ := hk
  rw [ha.fresh, hs.target?_next] at hx
  cases hx

theorem label?_eq (ha : t.Adds id name kind parent h t') (hs : t.Sound) {h' : TargetHandle}
    (hk : t.Knows h') : t'.label? h' = t.label? h' := by
  rw [label?, ha.target?, if_neg (ha.ne_of_knows hs hk), label?, Option.map_map]
  congr 1
  funext x
  rw [Function.comp_apply]
  split <;> rfl

/-- Nobody who was there before descends from the new target. -/
theorem descends_of_ne (ha : t.Adds id name kind parent h t') {h' : TargetHandle}
    (hs : t.Sound) (hne : h ≠ h') (hd : t'.Descends h' a) : t.Descends h' a ∧ t.Knows a := by
  induction hd with
  | single hp =>
    rw [ha.starter?_eq, if_neg hne] at hp
    exact ⟨.single hp, (hs.older _ _ hp).1⟩
  | @tail b c _ hp ih =>
    obtain ⟨hd, hk⟩ := ih
    rw [ha.starter?_eq, if_neg (ha.ne_of_knows hs hk)] at hp
    exact ⟨.tail hd hp, (hs.older _ _ hp).1⟩

/-- The ancestors of a new target are in the tree. -/
theorem isIndexed_of_descends (ha : t.Adds id name kind parent h t') (hs : t.Sound)
    (hd : t'.Descends h a) : t.IsIndexed a := by
  have hfirst : ∀ p, t'.starter? h = some p → t.IsIndexed p := by
    intro p hp
    rw [ha.starter?_eq, if_pos rfl] at hp
    exact ha.known p hp
  rcases (Relation.TransGen.head'_iff).mp hd with ⟨p, hp, hd⟩
  rcases Relation.reflTransGen_iff_eq_or_transGen.mp hd with rfl | hd
  · exact hfirst _ hp
  · have hne := ha.ne_of_knows hs (hs.knows_of_isIndexed (hfirst p hp))
    exact hs.isIndexed_of_descends (hfirst p hp) (ha.descends_of_ne hs hne hd).1

theorem sound (ha : t.Adds id name kind parent h t') (hs : t.Sound) : t'.Sound where
  numbered h' hk := by
    rw [ha.size]
    rcases (ha.knows_iff h').mp hk with rfl | hk
    · rw [ha.fresh]
      exact Nat.lt_succ_self _
    · exact Nat.lt_succ_of_lt (hs.numbered h' hk)
  named id' h' hid := by
    rw [ha.get?] at hid
    rw [ha.knows_iff, ha.idOf_eq]
    split at hid
    · next hid' =>
      obtain rfl := Option.some.inj hid
      exact ⟨Or.inl rfl, by rw [if_pos rfl, hid']⟩
    · obtain ⟨hk, hid⟩ := hs.named id' h' hid
      exact ⟨Or.inr hk, by rw [if_neg (ha.ne_of_knows hs hk), hid]⟩
  older h' p hp := by
    rw [ha.starter?_eq] at hp
    rw [ha.knows_iff]
    split at hp
    · next hh =>
      have hk := hs.knows_of_isIndexed (ha.known p hp)
      have hlt := hs.numbered p hk
      refine ⟨Or.inr hk, ?_⟩
      rw [← hh, ha.fresh]
      exact hlt
    · exact ⟨Or.inr (hs.older h' p hp).1, (hs.older h' p hp).2⟩
  rooted h' p hi hp := by
    rw [ha.starter?_eq] at hp
    rw [ha.isIndexed_iff, ha.children_eq hs]
    split at hp
    · next hh =>
      subst hh
      have hip := ha.known p hp
      rw [if_neg (ha.ne_of_knows hs (hs.knows_of_isIndexed hip)), if_pos hp]
      exact ⟨Or.inr hip, List.mem_append_right _ (List.mem_singleton_self h)⟩
    · next hh =>
      obtain ⟨hip, hc⟩ := hs.rooted h' p (((ha.isIndexed_iff h').mp hi).resolve_left hh) hp
      rw [if_neg (ha.ne_of_knows hs (hs.knows_of_isIndexed hip))]
      refine ⟨Or.inr hip, ?_⟩
      split
      · exact List.mem_append_left _ hc
      · exact hc
  listed p h' hc := by
    rw [ha.children_eq hs] at hc
    rw [ha.isIndexed_iff, ha.isIndexed_iff, ha.starter?_eq]
    split at hc
    · cases hc
    have hold : h' ∈ t.children p →
        (h = p ∨ t.IsIndexed p) ∧ (h = h' ∨ t.IsIndexed h') ∧
          (if h = h' then parent else t.starter? h') = some p := by
      intro hc
      obtain ⟨hip, hih, hp⟩ := hs.listed p h' hc
      have hne := ha.ne_of_knows hs (hs.knows_of_isIndexed hih)
      exact ⟨Or.inr hip, Or.inr hih, by rw [if_neg hne, hp]⟩
    split at hc
    · next hp =>
      rcases List.mem_append.mp hc with hc | hc
      · exact hold hc
      · rw [List.mem_singleton.mp hc]
        exact ⟨Or.inr (ha.known p hp), Or.inl rfl, by rw [if_pos rfl, hp]⟩
    · exact hold hc
  distinct h' a hd := by
    rw [ha.idOf_eq, ha.idOf_eq]
    by_cases hh : h = h'
    · subst hh
      have hia := ha.isIndexed_of_descends hs hd
      rw [if_neg (ha.ne_of_knows hs (hs.knows_of_isIndexed hia)), if_pos rfl]
      intro hid
      have hget := hs.get?_idOf hia
      rw [hid, ha.free] at hget
      cases hget
    · obtain ⟨hd, hk⟩ := ha.descends_of_ne hs hh hd
      rw [if_neg (ha.ne_of_knows hs hk), if_neg hh]
      exact hs.distinct h' a hd

end Adds

/-! ## A subtree leaves -/

/-- Two trees have the same targets, apart from whom these list. -/
structure SameKin (t t' : TargetTree) : Prop where
  size : t'.targets.size = t.targets.size
  target? : ∀ h, (t'.target? h).map (fun x => { x with children := [] }) =
    (t.target? h).map (fun x => { x with children := [] })

namespace SameKin

theorem refl (t : TargetTree) : t.SameKin t :=
  ⟨rfl, fun _ => rfl⟩

theorem trans {t'' : TargetTree} (hk : t.SameKin t') (hk' : t'.SameKin t'') : t.SameKin t'' :=
  ⟨hk'.size.trans hk.size, fun h => (hk'.target? h).trans (hk.target? h)⟩

/-- What can be told of a target without its list can be told in both trees. -/
theorem map_target? {β : Type} (hk : t.SameKin t') (f : Target → β)
    (hf : ∀ x, f { x with children := [] } = f x) (h : TargetHandle) :
    (t'.target? h).map f = (t.target? h).map f := by
  have hmap := congrArg (Option.map f) (hk.target? h)
  rw [Option.map_map, Option.map_map] at hmap
  rwa [show f ∘ (fun x => { x with children := [] }) = f from funext hf] at hmap

theorem idOf_eq (hk : t.SameKin t') (h : TargetHandle) : t'.idOf h = t.idOf h := by
  rw [idOf, idOf, hk.map_target? (·.id) fun _ => rfl]

theorem label?_eq (hk : t.SameKin t') (h : TargetHandle) : t'.label? h = t.label? h :=
  hk.map_target? (fun x => (x.id, x.name)) (fun _ => rfl) h

theorem starter?_eq (hk : t.SameKin t') (h : TargetHandle) : t'.starter? h = t.starter? h := by
  have hmap := hk.map_target? (·.parent) (fun _ => rfl) h
  have hbind := congrArg (Option.bind · id) hmap
  simp only [Option.bind_map] at hbind
  exact hbind

theorem knows_iff (hk : t.SameKin t') (h : TargetHandle) : t'.Knows h ↔ t.Knows h := by
  have hsome := congrArg Option.isSome (hk.target? h)
  rw [Option.isSome_map, Option.isSome_map] at hsome
  rw [Knows, Knows, ← Option.isSome_iff_exists, ← Option.isSome_iff_exists, hsome]

theorem descends_iff (hk : t.SameKin t') (h a : TargetHandle) :
    t'.Descends h a ↔ t.Descends h a := by
  rw [Descends, Descends, funext fun h => hk.starter?_eq h]

/-- Lists may be changed. -/
theorem modify (t : TargetTree) (p : TargetHandle) (f : Target → List TargetHandle)
    (index : Index TargetId TargetHandle) :
    t.SameKin ⟨t.targets.modify p fun x => { x with children := f x }, index⟩ := by
  refine ⟨Index.size_modify _ _ _, fun h => ?_⟩
  rw [TargetTree.target?, TargetTree.target?, Index.get?_modify]
  split
  · next hp => rw [hp, Option.map_map]; rfl
  · rfl

end SameKin

theorem children_modify (t : TargetTree) (p : TargetHandle) (f : Target → List TargetHandle)
    (index : Index TargetId TargetHandle) (h : TargetHandle) :
    (⟨t.targets.modify p fun x => { x with children := f x }, index⟩ : TargetTree).children h =
      if p = h then ((t.target? h).map f).getD [] else t.children h := by
  rw [children, TargetTree.target?, Index.get?_modify]
  split
  · next hp => rw [hp, Option.map_map]; rfl
  · rfl

/-! ### One target after the other -/

theorem sameKin_drop (t : TargetTree) (h : TargetHandle) : t.SameKin (t.drop h) :=
  .modify t h (fun _ => []) _

theorem children_drop (t : TargetTree) (h p : TargetHandle) :
    (t.drop h).children p = if h = p then [] else t.children p := by
  rw [drop, children_modify]
  split
  · cases t.target? p <;> rfl
  · rfl

theorem sameKin_foldl_drop (gone : List TargetHandle) (t : TargetTree) :
    t.SameKin (gone.foldl drop t) := by
  induction gone generalizing t with
  | nil => exact .refl t
  | cons h gone ih => exact (t.sameKin_drop h).trans (ih _)

theorem children_foldl_drop (gone : List TargetHandle) (t : TargetTree) (p : TargetHandle) :
    (gone.foldl drop t).children p = if p ∈ gone then [] else t.children p := by
  induction gone generalizing t with
  | nil => simp
  | cons h gone ih =>
    rw [List.foldl_cons, ih, children_drop]
    by_cases hp : h = p
    · simp [hp]
    · simp [hp, Ne.symm hp]

theorem get?_foldl_drop (gone : List TargetHandle) (t : TargetTree) (id : TargetId) :
    (gone.foldl drop t).get? id = if id ∈ gone.map t.idOf then none else t.get? id := by
  induction gone generalizing t with
  | nil => simp
  | cons h gone ih =>
    have hnames : gone.map (t.drop h).idOf = gone.map t.idOf :=
      List.map_congr_left fun g _ => (t.sameKin_drop h).idOf_eq g
    have hget : (t.drop h).get? id = if t.idOf h = id then none else t.get? id :=
      Index.get?_erase _ _ _
    rw [List.foldl_cons, ih, hnames, hget]
    by_cases hid : t.idOf h = id
    · simp [hid]
    · simp [hid, Ne.symm hid]

/-! ### What can be reached over the lists -/

theorem mem_subtreeFrom_self (t : TargetTree) (fuel : Nat) (h : TargetHandle) :
    h ∈ t.subtreeFrom fuel h := by
  cases fuel <;> simp [subtreeFrom]

theorem mem_subtreesFrom_iff {fuel : Nat} {hs : List TargetHandle} :
    a ∈ t.subtreesFrom fuel hs ↔ ∃ c ∈ hs, a ∈ t.subtreeFrom fuel c := by
  induction hs with
  | nil => simp [subtreesFrom]
  | cons c hs ih => rw [subtreesFrom, List.mem_append, ih, List.exists_mem_cons_iff]

theorem mem_subtreeFrom_succ_iff {fuel : Nat} :
    a ∈ t.subtreeFrom (fuel + 1) h ↔ a = h ∨ ∃ c ∈ t.children h, a ∈ t.subtreeFrom fuel c := by
  rw [subtreeFrom, List.mem_append, mem_subtreesFrom_iff, List.mem_singleton, or_comm]

/-- Whoever is reached is listed by somebody who is. -/
theorem exists_lister_of_mem_subtreeFrom {fuel : Nat} (ha : a ∈ t.subtreeFrom fuel h) :
    a = h ∨ ∃ p ∈ t.subtreeFrom fuel h, a ∈ t.children p := by
  induction fuel generalizing h with
  | zero => exact Or.inl (by simpa [subtreeFrom] using ha)
  | succ fuel ih =>
    rcases mem_subtreeFrom_succ_iff.mp ha with rfl | ⟨c, hc, ha⟩
    · exact Or.inl rfl
    · right
      rcases ih ha with rfl | ⟨p, hp, hap⟩
      · exact ⟨h, mem_subtreeFrom_self t _ h, hc⟩
      · exact ⟨p, mem_subtreeFrom_succ_iff.mpr (Or.inr ⟨c, hc, hp⟩), hap⟩

/-- Whoever is listed by somebody who is reached is reached: a child is younger than its parent, so
there is fuel enough. -/
theorem Sound.mem_subtreeFrom (hs : t.Sound) {fuel : Nat} (hfuel : t.targets.size ≤ fuel + h.number)
    (hp : p ∈ t.subtreeFrom fuel h) (ha : a ∈ t.children p) : a ∈ t.subtreeFrom fuel h := by
  induction fuel generalizing h with
  | zero =>
    obtain rfl : p = h := by simpa [subtreeFrom] using hp
    have hlt := hs.numbered p (hs.knows_of_isIndexed (hs.listed p a ha).1)
    omega
  | succ fuel ih =>
    refine mem_subtreeFrom_succ_iff.mpr (Or.inr ?_)
    rcases mem_subtreeFrom_succ_iff.mp hp with rfl | ⟨c, hc, hp⟩
    · exact ⟨a, ha, mem_subtreeFrom_self t fuel a⟩
    · have hlt := (hs.older c h (hs.listed h c hc).2.2).2
      exact ⟨c, hc, ih (by omega) hp⟩

theorem Sound.mem_subtree (hs : t.Sound) (hp : p ∈ t.subtree h) (ha : a ∈ t.children p) :
    a ∈ t.subtree h :=
  hs.mem_subtreeFrom (Nat.le_add_right _ _) hp ha

theorem Sound.isIndexed_of_mem_subtree (hs : t.Sound) (hi : t.IsIndexed h)
    (ha : a ∈ t.subtree h) : t.IsIndexed a := by
  rcases exists_lister_of_mem_subtreeFrom ha with rfl | ⟨p, -, hap⟩
  · exact hi
  · exact (hs.listed p a hap).2.1

/-! ### The removal -/

/-- What a removal does, seen from outside. -/
structure Removes (t : TargetTree) (h : TargetHandle) (t' : TargetTree) : Prop where
  kin : t.SameKin t'
  indexed : t.IsIndexed h
  get? : ∀ id, t'.get? id = if id ∈ (t.subtree h).map t.idOf then none else t.get? id
  children : ∀ p, t'.children p = if p ∈ t.subtree h then [] else
    if t.starter? h = some p then (t.children p).filter fun c => t.idOf c != t.idOf h
    else t.children p

/-- The starter of a target in the tree is in the tree, so it is alive. -/
theorem Sound.parent?_eq_starter? (hs : t.Sound) (hi : t.IsIndexed h) :
    t.parent? held h = t.starter? h := by
  change (t.starter? h).filter (t.isAlive held) = t.starter? h
  cases hp : t.starter? h with
  | none => rfl
  | some p =>
    obtain ⟨⟨id', hid'⟩, -⟩ := hs.rooted h p hi hp
    have halive : t.isAlive held p = true := by
      rw [isAlive, List.contains_iff_mem.mpr (Index.mem_values_of_get? hid'), Bool.true_or]
    rw [Option.filter_some, if_pos halive]

theorem Sound.removes_of_remove (hs : t.Sound) (hid : t.get? id = some h) :
    t.Removes h (t.remove held id).2 := by
  have hi : t.IsIndexed h := ⟨id, hid⟩
  have hname := (hs.named id h hid).2
  have hparent : t.parent? held h = t.starter? h := hs.parent?_eq_starter? hi
  rw [remove, hid]
  simp only [hparent]
  cases hp : t.starter? h with
  | none =>
    refine ⟨sameKin_foldl_drop _ t, hi, get?_foldl_drop _ t, fun p => ?_⟩
    rw [children_foldl_drop, hp]
    rfl
  | some q =>
    have hkin : t.SameKin { t with targets := t.targets.modify q (t.withoutChild id) } :=
      .modify t q (fun x => x.children.filter fun c => t.idOf c != id) t.index
    have hchildren := children_modify t q
      (fun x => x.children.filter fun c => t.idOf c != id) t.index
    refine ⟨hkin.trans (sameKin_foldl_drop _ _), hi, fun id' => ?_, fun p => ?_⟩
    · have hnames := List.map_congr_left (l := t.subtree h) fun g _ => hkin.idOf_eq g
      exact (get?_foldl_drop _ _ id').trans (by rw [hnames]; rfl)
    · refine (children_foldl_drop _ _ p).trans (if_congr Iff.rfl rfl ((hchildren p).trans ?_))
      simp only [hp, Option.some_inj, hname, children]
      cases t.target? p <;> rfl

namespace Removes

theorem isIndexed_iff (hr : t.Removes h t') (hs : t.Sound) (a : TargetHandle) :
    t'.IsIndexed a ↔ t.IsIndexed a ∧ a ∉ t.subtree h := by
  constructor
  · rintro ⟨id, hid⟩
    rw [hr.get?] at hid
    split at hid
    · cases hid
    · next hnot =>
      refine ⟨⟨id, hid⟩, fun ha => hnot ?_⟩
      rw [← (hs.named id a hid).2]
      exact List.mem_map_of_mem ha
  · rintro ⟨hi, hnot⟩
    refine ⟨t.idOf a, ?_⟩
    rw [hr.get?, if_neg, hs.get?_idOf hi]
    intro hmem
    obtain ⟨g, hg, hid⟩ := List.mem_map.mp hmem
    have hig := hs.isIndexed_of_mem_subtree hr.indexed hg
    exact hnot (hs.eq_of_idOf_eq hig hi hid ▸ hg)

theorem sound (hr : t.Removes h t') (hs : t.Sound) : t'.Sound where
  numbered a hk := by
    rw [hr.kin.size]
    exact hs.numbered a ((hr.kin.knows_iff a).mp hk)
  named id a hid := by
    rw [hr.get?] at hid
    rw [hr.kin.knows_iff, hr.kin.idOf_eq]
    split at hid
    · cases hid
    · exact hs.named id a hid
  older a p hp := by
    rw [hr.kin.starter?_eq] at hp
    rw [hr.kin.knows_iff]
    exact hs.older a p hp
  rooted a p hi hp := by
    rw [hr.kin.starter?_eq] at hp
    obtain ⟨hi, hnot⟩ := (hr.isIndexed_iff hs a).mp hi
    obtain ⟨hip, hc⟩ := hs.rooted a p hi hp
    -- Who stays is listed by somebody who stays.
    have hstays : p ∉ t.subtree h := fun hp => hnot (hs.mem_subtree hp hc)
    refine ⟨(hr.isIndexed_iff hs p).mpr ⟨hip, hstays⟩, ?_⟩
    rw [hr.children, if_neg hstays]
    split
    · refine List.mem_filter.mpr ⟨hc, bne_iff_ne.mpr fun hid => hnot ?_⟩
      rw [hs.eq_of_idOf_eq hi hr.indexed hid]
      exact mem_subtreeFrom_self t _ h
    · exact hc
  listed p a ha := by
    rw [hr.children] at ha
    rw [hr.isIndexed_iff hs, hr.isIndexed_iff hs, hr.kin.starter?_eq]
    split at ha
    · cases ha
    next hstays =>
    obtain ⟨hc, hne⟩ : a ∈ t.children p ∧ a ≠ h := by
      split at ha
      · obtain ⟨hc, hid⟩ := List.mem_filter.mp ha
        exact ⟨hc, fun hah => bne_iff_ne.mp hid (by rw [hah])⟩
      · next hp => exact ⟨ha, fun hah => hp (hah ▸ (hs.listed p a ha).2.2)⟩
    obtain ⟨hip, hia, hp⟩ := hs.listed p a hc
    refine ⟨⟨hip, hstays⟩, ⟨hia, fun hmem => ?_⟩, hp⟩
    obtain ⟨g, hg, hag⟩ := (exists_lister_of_mem_subtreeFrom hmem).resolve_left hne
    obtain rfl := Option.some.inj (hp.symm.trans (hs.listed g a hag).2.2)
    exact hstays hg
  distinct a b hd := by
    rw [hr.kin.idOf_eq, hr.kin.idOf_eq]
    exact hs.distinct a b ((hr.kin.descends_iff a b).mp hd)

end Removes

end TargetTree
end DebugTree
