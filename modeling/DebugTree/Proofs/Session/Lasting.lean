import DebugTree.Proofs.Session.Calls
import DebugTree.Proofs.Target.Kinship

/-!
# What lasts

Once settled, a connection or a gate stays as it is; once gone, a record does not come back; once
added, a target keeps its name.  This is what somebody can rely on who waits while others run
(`Registry.Later`, `World.Later`).

It goes together with what is true of a registry at every moment (`Registry.Upright`).  The point of
it is that **nothing is left open behind a record that is gone**: both of its promises are settled,
whichever way it went.
-/

namespace DebugTree
namespace Session

namespace Record

/-- A record at a later time. -/
structure Later (r r' : Record) : Prop where
  id : r'.id = r.id
  state : r.state ≠ .pendingAcquire → r'.state ≠ .pendingAcquire
  connection : r.connection.isSettled = true → r'.connection = r.connection
  gate : r.gate.isSettled = true → r'.gate = r.gate

variable {r r' r'' : Record}

theorem Later.refl (r : Record) : r.Later r :=
  ⟨rfl, fun hs => hs, fun _ => rfl, fun _ => rfl⟩

theorem Later.trans (h : r.Later r') (h' : r'.Later r'') : r.Later r'' where
  id := h'.id.trans h.id
  state hs := h'.state (h.state hs)
  connection hc := (h'.connection ((h.connection hc).symm ▸ hc)).trans (h.connection hc)
  gate hg := (h'.gate ((h.gate hg).symm ▸ hg)).trans (h.gate hg)

theorem later_released (r : Record) : r.Later r.released where
  id := rfl
  state hs := hs
  connection hc := congrArg Prod.snd (Deferred.settle_of_isSettled hc (.rejected releasedReason))
  gate hg := congrArg Prod.snd (Deferred.settle_of_isSettled hg (.rejected releasedReason))

theorem later_matched (r : Record) (connection : ConnectionId) (t : Traffic) :
    r.Later (r.matched connection t) where
  id := rfl
  state _ := SessionState.noConfusion
  connection hc := by rw [matched, Deferred.resolve, Deferred.settle_of_isSettled hc]
  gate _ := rfl

theorem later_ready (r : Record) : r.Later r.ready where
  id := rfl
  state _ := SessionState.noConfusion
  connection _ := rfl
  gate hg := by rw [ready, Deferred.resolve, Deferred.settle_of_isSettled hg]

theorem later_failed (r : Record) (reason : String) : r.Later (r.failed reason) where
  id := rfl
  state hs := hs
  connection _ := rfl
  gate hg := by rw [failed, Deferred.reject, Deferred.settle_of_isSettled hg]

theorem later_taken (r : Record) : r.Later { r with traffic := none } :=
  ⟨rfl, fun hs => hs, fun _ => rfl, fun _ => rfl⟩

end Record

namespace Registry

variable {g g' g'' : Registry} {id : TargetId} {h h' : RecordHandle} {r r' : Record}

/-- Handles are given out in order, names are right, and nothing is open behind a record that is
gone. -/
structure Upright (g : Registry) : Prop where
  numbered : ∀ h r, g.record? h = some r → h.number < g.records.size
  named : ∀ id h, g.sessions.get? id = some h → ∃ r, g.record? h = some r ∧ r.id = id
  distinct : g.sessions.keys.Nodup
  closed : ∀ h r, g.record? h = some r → ¬ g.IsRegistered h →
    r.connection.isSettled = true ∧ r.gate.isSettled = true

/-- A registry at a later time. -/
structure Later (g g' : Registry) : Prop where
  record : ∀ h r, g.record? h = some r → ∃ r', g'.record? h = some r' ∧ r.Later r'
  gone : ∀ h r, g.record? h = some r → g'.IsRegistered h → g.IsRegistered h

theorem Later.refl (g : Registry) : g.Later g :=
  ⟨fun _ r hr => ⟨r, hr, .refl r⟩, fun _ _ _ hreg => hreg⟩

theorem Later.trans (hl : g.Later g') (hl' : g'.Later g'') : g.Later g'' where
  record h r hr := by
    obtain ⟨r', hr', hlater⟩ := hl.record h r hr
    obtain ⟨r'', hr'', hlater'⟩ := hl'.record h r' hr'
    exact ⟨r'', hr'', hlater.trans hlater'⟩
  gone h r hr hreg := by
    obtain ⟨r', hr', -⟩ := hl.record h r hr
    exact hl.gone h r hr (hl'.gone h r' hr' hreg)

theorem upright_empty : empty.Upright where
  numbered _ _ hr := by cases hr
  named _ _ hid := by cases hid
  distinct := List.nodup_nil
  closed _ _ hr := by cases hr

/-- The handle of the next record. -/
def next (g : Registry) : RecordHandle := ⟨g.records.size⟩

theorem Upright.record?_next (hu : g.Upright) : g.record? g.next = none := by
  by_contra hsome
  obtain ⟨r, hr⟩ := Option.ne_none_iff_exists'.mp hsome
  exact absurd (hu.numbered _ r hr) (Nat.lt_irrefl _)

/-- A record is registered under its own name, or not at all. -/
theorem Upright.isRegistered_iff (hu : g.Upright) (hr : g.record? h = some r) :
    g.IsRegistered h ↔ g.sessions.get? r.id = some h := by
  refine ⟨fun ⟨id, hid⟩ => ?_, fun hid => ⟨r.id, hid⟩⟩
  obtain ⟨r', hr', rfl⟩ := hu.named id h hid
  rw [hr, Option.some.injEq] at hr'
  rw [hr', hid]

/-! ## The operations -/

/-- An operation is on the way to a later registry that is upright again. -/
structure Lasts (g g' : Registry) : Prop where
  upright : g'.Upright
  later : g.Later g'

theorem Upright.lasts_refl (hu : g.Upright) : g.Lasts g :=
  ⟨hu, .refl g⟩

theorem Upright.revise (hu : g.Upright) (hr : g.record? h = some r) (hlater : r.Later r') :
    g.Lasts (g.revise h r') where
  upright := by
    have hsize : (g.revise h r').records.size = g.records.size := size_records_revise hr r'
    refine ⟨fun h' r₁ hr₁ => ?_, fun id h' hid => ?_, hu.distinct, fun h' r₁ hr₁ hgone => ?_⟩
    · rw [hsize]
      rw [record?_revise] at hr₁
      split at hr₁
      · next hh => exact hh ▸ hu.numbered h r hr
      · exact hu.numbered h' r₁ hr₁
    · obtain ⟨r₁, hr₁, hname⟩ := hu.named id h' hid
      rw [record?_revise]
      split
      · next hh =>
        rw [← hh, hr, Option.some.injEq] at hr₁
        exact ⟨r', rfl, by rw [hlater.id, hr₁, hname]⟩
      · exact ⟨r₁, hr₁, hname⟩
    · rw [record?_revise] at hr₁
      split at hr₁
      · next hh =>
        subst hh
        obtain rfl := Option.some.inj hr₁
        obtain ⟨hc, hg⟩ := hu.closed h r hr hgone
        exact ⟨(hlater.connection hc).symm ▸ hc, (hlater.gate hg).symm ▸ hg⟩
      · exact hu.closed h' r₁ hr₁ hgone
  later := by
    refine ⟨fun h' r₁ hr₁ => ?_, fun _ _ _ hreg => hreg⟩
    rw [record?_revise]
    split
    · next hh =>
      rw [← hh, hr, Option.some.injEq] at hr₁
      exact ⟨r', rfl, hr₁ ▸ hlater⟩
    · exact ⟨r₁, hr₁, .refl r₁⟩

/-- The registry with a new record under a name. -/
def enrolled (g : Registry) (target : TargetHandle) (id : TargetId) (name : String) : Registry :=
  ⟨g.records.insert g.next (.fresh target id name), g.sessions.insert id g.next⟩

theorem record?_enrolled (g : Registry) (target : TargetHandle) (id : TargetId) (name : String)
    (h : RecordHandle) : (g.enrolled target id name).record? h =
      if g.next = h then some (.fresh target id name) else g.record? h :=
  Index.get?_insert _ _ _ _

theorem sessions_enrolled (g : Registry) (target : TargetHandle) (id : TargetId) (name : String)
    (id' : TargetId) : (g.enrolled target id name).sessions.get? id' =
      if id = id' then some g.next else g.sessions.get? id' :=
  Index.get?_insert _ _ _ _

theorem Upright.next_ne (hu : g.Upright) (hr : g.record? h = some r) : g.next ≠ h := by
  rintro rfl
  cases hr.symm.trans hu.record?_next

theorem Upright.enrolled (hu : g.Upright) (hfree : g.sessions.get? id = none)
    (target : TargetHandle) (name : String) : g.Lasts (g.enrolled target id name) := by
  have hback : ∀ h' r, g.record? h' = some r → (g.enrolled target id name).IsRegistered h' →
      g.IsRegistered h' := by
    rintro h' r hr ⟨id', hid'⟩
    rw [sessions_enrolled] at hid'
    split at hid'
    · exact absurd (Option.some.inj hid') (hu.next_ne hr)
    · exact ⟨id', hid'⟩
  refine ⟨⟨fun h' r hr => ?_, fun id' h' hid' => ?_, Index.nodup_keys_insert hu.distinct _ _,
    fun h' r hr hgone => ?_⟩, ⟨fun h' r hr => ⟨r, ?_, .refl r⟩, hback⟩⟩
  · have hsize : (g.enrolled target id name).records.size = g.records.size + 1 :=
      Index.size_insert_of_get?_eq_none hu.record?_next _
    rw [hsize]
    rw [record?_enrolled] at hr
    split at hr
    · next hh => rw [← hh]; exact Nat.lt_succ_self _
    · exact Nat.lt_succ_of_lt (hu.numbered h' r hr)
  · rw [sessions_enrolled] at hid'
    rw [record?_enrolled]
    split at hid'
    · next hid => exact ⟨_, if_pos (Option.some.inj hid'), hid⟩
    · obtain ⟨r, hr, hid⟩ := hu.named id' h' hid'
      exact ⟨r, by rw [if_neg (hu.next_ne hr), hr], hid⟩
  · rw [record?_enrolled] at hr
    split at hr
    · next hh => exact absurd ⟨id, by rw [sessions_enrolled, if_pos rfl, hh]⟩ hgone
    · refine hu.closed h' r hr fun hreg => hgone (Exists.imp (fun id' hid' => ?_) hreg)
      rw [sessions_enrolled, if_neg, hid']
      rintro rfl
      rw [hfree] at hid'
      cases hid'
  · rw [record?_enrolled, if_neg (hu.next_ne hr), hr]

/-- What is registered after a release: everything but the record of the name. -/
theorem sessions_release (g : Registry) (id id' : TargetId) :
    (g.release id).2.sessions.get? id' = if id = id' then none else g.sessions.get? id' := by
  unfold Registry.release
  split
  · next hnone =>
    split
    · next hid => rw [← hid, hnone]
    · rfl
  · exact Index.get?_erase _ _ _

theorem sessions_releaseAll (g : Registry) (ids : List TargetId) (id : TargetId) :
    (g.releaseAll ids).2.sessions.get? id =
      if id ∈ ids then none else g.sessions.get? id := by
  induction ids generalizing g with
  | nil => rw [if_neg List.not_mem_nil]; rfl
  | cons id' ids ih =>
    refine (ih (g.release id').2).trans ?_
    rw [sessions_release]
    by_cases hid : id' = id
    · simp [hid]
    · simp [hid, Ne.symm hid]

theorem record?_release (hid : g.sessions.get? id = some h) (h' : RecordHandle) :
    (g.release id).2.record? h' =
      if h = h' then (g.record? h).map Record.released else g.record? h' := by
  rw [Registry.release, hid]
  exact Index.get?_modify _ _ _ _

theorem release_of_none (hid : g.sessions.get? id = none) : g.release id = (false, g) := by
  rw [Registry.release, hid]

theorem Upright.release (hu : g.Upright) (id : TargetId) : g.Lasts (g.release id).2 := by
  cases hid : g.sessions.get? id with
  | none => rw [release_of_none hid]; exact hu.lasts_refl
  | some h =>
    obtain ⟨r, hr, hname⟩ := hu.named id h hid
    have hrecord : ∀ h', (g.release id).2.record? h' =
        if h = h' then some r.released else g.record? h' := by
      intro h'
      rw [record?_release hid, hr, Option.map_some]
    have hback : ∀ h', (g.release id).2.IsRegistered h' → g.IsRegistered h' := by
      rintro h' ⟨id', hid'⟩
      rw [sessions_release] at hid'
      split at hid'
      · cases hid'
      · exact ⟨id', hid'⟩
    have hsize : (g.release id).2.records.size = g.records.size := by
      rw [Registry.release, hid]
      exact Index.size_modify _ _ _
    have hdistinct : (g.release id).2.sessions.keys.Nodup := by
      rw [Registry.release, hid]
      exact Index.nodup_keys_erase hu.distinct id
    refine ⟨⟨fun h' r' hr' => ?_, fun id' h' hid' => ?_, hdistinct, fun h' r' hr' hgone => ?_⟩,
      ⟨fun h' r' hr' => ?_, fun h' _ _ hreg => hback h' hreg⟩⟩
    · rw [hsize]
      rw [hrecord] at hr'
      split at hr'
      · next hh => exact hh ▸ hu.numbered h r hr
      · exact hu.numbered h' r' hr'
    · rw [sessions_release] at hid'
      split at hid'
      · cases hid'
      · obtain ⟨r', hr', hname'⟩ := hu.named id' h' hid'
        rw [hrecord]
        split
        · next hh =>
          rw [← hh, hr, Option.some.injEq] at hr'
          exact ⟨_, rfl, by rw [← hname', ← hr']; rfl⟩
        · exact ⟨r', hr', hname'⟩
    · rw [hrecord] at hr'
      split at hr'
      · obtain rfl := Option.some.inj hr'
        exact ⟨r.connection.isSettled_settle (by simp), r.gate.isSettled_settle (by simp)⟩
      · next hne =>
        refine hu.closed h' r' hr' fun hreg => hgone (Exists.imp (fun id' hid' => ?_) hreg)
        rw [sessions_release, if_neg, hid']
        rintro rfl
        rw [hid, Option.some.injEq] at hid'
        exact hne hid'
    · rw [hrecord]
      split
      · next hh =>
        rw [← hh, hr, Option.some.injEq] at hr'
        exact ⟨_, rfl, hr' ▸ r.later_released⟩
      · exact ⟨r', hr', .refl r'⟩

theorem Upright.releaseAll (hu : g.Upright) (ids : List TargetId) :
    g.Lasts (g.releaseAll ids).2 :=
  releaseAll_induction (P := fun g' => g.Lasts g') (fun _ id hl =>
    have hnext := hl.upright.release id
    ⟨hnext.upright, hl.later.trans hnext.later⟩) ids hu.lasts_refl

/-- An operation that goes by name does to the record of that name what it does to a record. -/
theorem Upright.touch (hu : g.Upright) {f : Record → Record}
    (hlater : ∀ r : Record, r.Later (f r))
    (hnone : g.session? id = none → g' = g)
    (hsome : ∀ h r, g.session? id = some (h, r) → g' = g.revise h (f r)) : g.Lasts g' := by
  cases hs : g.session? id with
  | none => rw [hnone hs]; exact hu.lasts_refl
  | some e =>
    obtain ⟨h, r⟩ := e
    rw [hsome h r hs]
    exact hu.revise (session?_eq_some_iff.mp hs).2 (hlater r)

/-- The release of one name leaves the records of other names alone. -/
theorem Upright.record?_release_of_id_ne (hu : g.Upright) (hr : g.record? h = some r)
    (hname : r.id ≠ id) : (g.release id).2.record? h = some r := by
  cases hid : g.sessions.get? id with
  | none => rwa [release_of_none hid]
  | some h' =>
    rw [record?_release hid, if_neg, hr]
    rintro rfl
    obtain ⟨r', hr', hname'⟩ := hu.named id h' hid
    rw [hr, Option.some.injEq] at hr'
    exact hname (hr' ▸ hname')

/-- What is still registered after a release is as it was. -/
theorem Upright.record?_releaseAll (hu : g.Upright) (ids : List TargetId)
    (hr : g.record? h = some r) (hstays : (g.releaseAll ids).2.IsRegistered h) :
    (g.releaseAll ids).2.record? h = some r := by
  induction ids generalizing g with
  | nil => exact hr
  | cons id ids ih =>
    have hnext := hu.release id
    have hlater := (hnext.upright.releaseAll ids).later
    obtain ⟨r', hr', -⟩ := hnext.later.record h r hr
    obtain ⟨id', hid'⟩ := hlater.gone h r' hr' hstays
    have hne : r.id ≠ id := by
      rintro rfl
      rw [sessions_release] at hid'
      split at hid'
      · cases hid'
      · next hne =>
        obtain ⟨r₁, hr₁, hname⟩ := hu.named id' h hid'
        rw [hr, Option.some.injEq] at hr₁
        exact hne (hr₁ ▸ hname)
    exact ih hnext.upright (hu.record?_release_of_id_ne hr hne) hstays

/-- **Whoever is released is let down.**  A record that leaves the registry is settled as it
leaves. -/
theorem Upright.left_releaseAll (hu : g.Upright) (ids : List TargetId) (hr : g.record? h = some r)
    (hreg : g.IsRegistered h) (hgone : ¬ (g.releaseAll ids).2.IsRegistered h) :
    ∃ r', (g.releaseAll ids).2.record? h = some r' ∧ r.released.Later r' := by
  induction ids generalizing g with
  | nil => exact absurd hreg hgone
  | cons id ids ih =>
    have hnext := hu.release id
    have hid := (hu.isRegistered_iff hr).mp hreg
    by_cases hname : r.id = id
    · have hr' : (g.release id).2.record? h = some r.released := by
        rw [record?_release (hname ▸ hid), if_pos rfl, hr, Option.map_some]
      exact (hnext.upright.releaseAll ids).later.record h _ hr'
    · have hr' := hu.record?_release_of_id_ne hr hname
      have hid' : (g.release id).2.sessions.get? r.id = some h := by
        rw [sessions_release, if_neg (Ne.symm hname), hid]
      exact ih hnext.upright hr' ⟨r.id, hid'⟩ hgone

end Registry

/-! ## Runs -/

namespace World

variable {w w' w'' : World} {a : Action} {actions : List Action} {m n : Nat} {h : RecordHandle}
  {r : Record}

/-- What every action does to the registry. -/
theorem lasts_act (hu : w.registry.Upright) (a : Action) :
    w.registry.Lasts (w.act a).1.registry := by
  have hadvance := w.advance_act .empty a
  generalize (w.act a).1 = w' at hadvance ⊢
  cases hadvance with
  | quiet hreg => rw [hreg]; exact hu.lasts_refl
  | @registers target id name _ hreg =>
    obtain ⟨hfree, rfl, hreg⟩ := Registry.register_eq_ok hreg
    rw [hreg]
    exact hu.enrolled hfree target name
  | releases ids hreg => rw [hreg]; exact hu.releaseAll ids
  | «matches» hreg =>
    obtain ⟨r, hs, -, hreg⟩ := Registry.match?_eq_ok hreg
    rw [hreg]
    exact hu.revise (Registry.session?_eq_some_iff.mp hs).2 (r.later_matched _ _)
  | takes hs _ hreg =>
    rw [hreg]
    exact hu.revise (Registry.session?_eq_some_iff.mp hs).2 (Record.later_taken _)
  | hears _ hreg => rw [hreg]; exact hu.lasts_refl
  | ends _ _ hreg =>
    rw [hreg]
    exact hu.touch Record.later_ready (fun hs => congrArg Prod.snd (Registry.ready_of_none hs))
      fun h r hs => congrArg Prod.snd (Registry.ready_of_session? hs)
  | fails _ hreg =>
    rw [hreg]
    exact hu.touch (fun r => r.later_failed _) (fun hs => Registry.failed_of_none hs _)
      fun h r hs => Registry.failed_of_session? hs _

/-- A record leaves the registry only by a release. -/
theorem left_act (hu : w.registry.Upright) (hr : w.registry.record? h = some r)
    (hreg : w.registry.IsRegistered h) (hgone : ¬ (w.act a).1.registry.IsRegistered h) :
    ∃ r', (w.act a).1.registry.record? h = some r' ∧ r.released.Later r' := by
  have hadvance := w.advance_act .empty a
  generalize (w.act a).1 = w' at hadvance hgone ⊢
  cases hadvance with
  | releases ids hids =>
    rw [hids] at hgone ⊢
    exact hu.left_releaseAll ids hr hreg hgone
  | quiet hreg' => exact absurd (hreg' ▸ hreg) hgone
  | registers hnew =>
    obtain ⟨id, hid⟩ := hreg
    obtain ⟨hfree, -, hnew⟩ := Registry.register_eq_ok hnew
    refine absurd ⟨id, ?_⟩ hgone
    rw [hnew]
    refine (Index.get?_insert _ _ _ _).trans ((if_neg ?_).trans hid)
    rintro rfl
    rw [hfree] at hid
    cases hid
  | «matches» hmatch =>
    obtain ⟨r, -, -, hmatch⟩ := Registry.match?_eq_ok hmatch
    rw [hmatch] at hgone
    exact absurd hreg hgone
  | takes _ _ hreg' => rw [hreg'] at hgone; exact absurd hreg hgone
  | hears _ hreg' => rw [hreg'] at hgone; exact absurd hreg hgone
  | ends _ _ hreg' =>
    rw [hreg', Registry.ready] at hgone
    split at hgone <;> exact absurd hreg hgone
  | fails _ hreg' =>
    rw [hreg', Registry.failed] at hgone
    split at hgone <;> exact absurd hreg hgone

/-- Registry and tree are in order. -/
structure Upright (w : World) : Prop where
  registry : w.registry.Upright
  tree : w.tree.Sound

/-- A world at a later time. -/
structure Later (w w' : World) : Prop where
  registry : w.registry.Later w'.registry
  label : ∀ h l, w.tree.label? h = some l → w'.tree.label? h = some l

theorem Later.refl (w : World) : w.Later w :=
  ⟨.refl _, fun _ _ hl => hl⟩

theorem Later.trans (hl : w.Later w') (hl' : w'.Later w'') : w.Later w'' :=
  ⟨hl.registry.trans hl'.registry, fun h l hh => hl'.label h l (hl.label h l hh)⟩

theorem upright_start (root : ConnectionId) (debugType : String) :
    (start root debugType).Upright :=
  ⟨Registry.upright_empty, TargetTree.sound_empty⟩

/-- What every action does to the tree. -/
theorem tree_act (hs : w.tree.Sound) (a : Action) : (w.act a).1.tree.Sound ∧
    ∀ h l, w.tree.label? h = some l → (w.act a).1.tree.label? h = some l := by
  cases ha : a.call? with
  | some c => rw [(Confined.act ha).tree]; exact ⟨hs, fun _ _ hl => hl⟩
  | none =>
    cases a with
    | addTarget id name kind parent =>
      rw [act]
      split
      · next w' hadd =>
        rw [addTarget] at hadd
        cases htree : w.tree.add id name kind parent with
        | error f => rw [htree] at hadd; cases hadd
        | ok x =>
          rw [htree] at hadd
          cases hadd
          obtain ⟨parent, hadds⟩ := hs.adds_of_add htree
          refine ⟨hadds.sound hs, fun h l hl => ?_⟩
          exact (hadds.label?_eq hs (TargetTree.knows_of_label? hl)).trans hl
      · exact ⟨hs, fun _ _ hl => hl⟩
    | removeTarget id =>
      cases hid : w.tree.get? id with
      | none =>
        rw [act, removeTarget, TargetTree.remove, hid]
        exact ⟨hs, fun _ _ hl => hl⟩
      | some h =>
        have hremoves : w.tree.Removes h (w.tree.remove w.kept id).2 := hs.removes_of_remove hid
        exact ⟨hremoves.sound hs, fun h l hl => (hremoves.kin.label?_eq h).trans hl⟩
    | forget id => exact ⟨hs, fun _ _ hl => hl⟩
    | hold target => exact ⟨hs, fun _ _ hl => hl⟩
    | letGo target => exact ⟨hs, fun _ _ hl => hl⟩
    | release id => exact ⟨hs, fun _ _ hl => hl⟩
    | releaseSubtree target => exact ⟨hs, fun _ _ hl => hl⟩
    | _ => cases ha

theorem Upright.act (hu : w.Upright) (a : Action) : (w.act a).1.Upright :=
  ⟨(lasts_act hu.registry a).upright, (tree_act hu.tree a).1⟩

theorem Upright.later_act (hu : w.Upright) (a : Action) : w.Later (w.act a).1 :=
  ⟨(lasts_act hu.registry a).later, (tree_act hu.tree a).2⟩

/-- **Worlds are in order before every step of a run.** -/
theorem Upright.before (hu : w.Upright) (actions : List Action) (n : Nat) :
    (w.before actions n).Upright :=
  before_induction hu (fun _ a hu => hu.act a) actions n

theorem Upright.later_before_succ (hu : w.Upright) (actions : List Action) (n : Nat) :
    (w.before actions n).Later (w.before actions (n + 1)) := by
  cases hn : actions[n]? with
  | none => rw [before_succ_of_none hn]; exact .refl _
  | some a => rw [before_succ hn]; exact (hu.before actions n).later_act a

/-- **What lasts, lasts over a whole run.** -/
theorem Upright.later_before (hu : w.Upright) (hmn : m ≤ n) :
    (w.before actions m).Later (w.before actions n) := by
  induction hmn with
  | refl => exact .refl _
  | step _ ih => exact ih.trans (hu.later_before_succ actions _)

end World
end Session
end DebugTree
