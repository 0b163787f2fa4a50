import DebugTree.Proofs.Skipper.Patterns
import DebugTree.Proofs.Skipper.Tour
import DebugTree.Skipper.Estate

/-!
# Sessions that have left

A session that has left is out of the reach of everybody.  No job has to do with it, because the
jobs that did would keep it alive; the bus does not list it; and its number is not given out again.

What is left is its estate.  No request in it starts: a push that is under way keeps the session
alive, so when a session leaves, its debouncer is not busy, and all requests but the last were
cancelled before (`Debouncer.Sound.isVoid_cancelLast`).  And the question for builtin modules, which
could be put without the session, is aborted.  Hence a run with estates is a run without
(`Realm.Sound.act`).
-/

namespace DebugTree
namespace Skipper

variable {k : Listener} {a : Action}

namespace World

variable {w : World} {s s' : Skipper}

/-- Somebody holds the session: its owner, a push that has begun, or a job. -/
def IsHeld (w : World) (k : Listener) : Prop :=
  (∃ s, w.sessions.get? k = some s ∧ (s.isOwned = true ∨ s.sending.isSome = true)) ∨
    ∃ job ∈ w.jobs.values, k ∈ job.keeps

theorem isHeld_of_isKept (hs : w.sessions.get? k = some s) (hkept : w.isKept k s = true) :
    w.IsHeld k := by
  rw [isKept, Bool.or_eq_true, Bool.or_eq_true] at hkept
  rcases hkept with hs' | hjobs
  · exact Or.inl ⟨s, hs, hs'⟩
  · obtain ⟨job, hjob, hk⟩ := List.any_eq_true.mp hjobs
    exact Or.inr ⟨job, hjob, List.contains_iff_mem.mp hk⟩

/-! ## Whoever is told is there -/

theorem exists_session_of_told_tell {j : JobId} {keeps : List Listener} {e e' : SkipToggled}
    {outcome : Outcome} {audience : List Listener}
    (h : .told k e' ∈ (w.tell j keeps e outcome audience).2) :
    ∃ s, w.sessions.get? k = some s := by
  induction audience with
  | nil => simp [tell, finish] at h
  | cons k' rest ih =>
    rw [tell] at h
    split at h
    · next s hs =>
      obtain ⟨rfl, -⟩ : k = k' ∧ e' = e := by simpa using h
      exact ⟨s, hs⟩
    · exact ih h

theorem exists_session_of_told_goOn {j : JobId} {keeps : List Listener} {k' : Listener}
    {sequel : Sequel} {e : SkipToggled} (h : .told k e ∈ (w.goOn j keeps k' sequel).2) :
    ∃ s, w.sessions.get? k = some s := by
  cases sequel with
  | finish => simp [goOn, finish] at h
  | announce url was =>
    simp only [goOn] at h
    split at h
    · split at h
      · simp [finish] at h
      · exact exists_session_of_told_tell h
    · exact absurd h List.not_mem_nil
  | deliver e' rest outcome => exact exists_session_of_told_tell h

theorem exists_session_of_told_begin {j : JobId} {operation : Operation} {e : SkipToggled}
    (h : .told k e ∈ (w.begin j operation).2) : ∃ s, w.sessions.get? k = some s := by
  cases operation with
  | publish e' => exact exists_session_of_told_tell h
  | toggle k' request =>
    simp only [begin] at h
    split at h
    · split at h <;> simp [finish] at h
    · exact absurd h List.not_mem_nil
  | _ =>
    simp only [begin] at h
    split at h <;> simp [finish] at h

theorem exists_session_of_told_proceed {j : JobId} {refused : List ScriptId} {e : SkipToggled}
    (h : .told k e ∈ (w.proceed j refused).2) : ∃ s, w.sessions.get? k = some s := by
  rcases hjob : w.jobs.get? j with _ | ⟨keeps, ⟨k', c, sequel⟩ | ⟨k', batch, renews, sequel⟩ |
    ⟨k', patterns⟩⟩
  · simp [proceed, hjob] at h
  · simp only [proceed, hjob] at h
    split at h
    · split at h
      · split at h <;> simp at h
      · exact absurd h List.not_mem_nil
    · exact absurd h List.not_mem_nil
  · rw [proceed_ranges hjob] at h
    have hgoOn : .told k e ∈ ((w.update k' fun s =>
        (if renews then s.schedule else s).leave).goOn j keeps k' sequel).2 := by
      simp only at h
      split at h
      · exact h
      · simpa using h
    obtain ⟨s, hs⟩ := exists_session_of_told_goOn hgoOn
    have hmem := Index.mem_keys_of_get? hs
    rw [update, Index.keys_modify, ← Index.contains_iff] at hmem
    exact Option.isSome_iff_exists.mp hmem
  · simp [proceed, hjob, finish] at h

/-- Nobody is told anything who is not there. -/
theorem exists_session_of_told {e : SkipToggled} (h : .told k e ∈ (w.take a).2) :
    ∃ s, w.sessions.get? k = some s := by
  cases a with
  | begin j operation =>
    simp only [take] at h
    split at h
    · exact absurd h List.not_mem_nil
    · exact exists_session_of_told_begin h
  | proceed j refused => exact exists_session_of_told_proceed h
  | tick k' now latency =>
    simp only [take, tick] at h
    split at h
    · split at h <;> simp at h
    · exact absurd h List.not_mem_nil
  | inquire k' =>
    simp only [take, inquire] at h
    split at h
    · split at h <;> simp at h
    · exact absurd h List.not_mem_nil
  | answer k' reply =>
    simp only [take, answer] at h
    split at h
    · split at h <;> simp at h
    · exact absurd h List.not_mem_nil
  | _ => exact absurd h List.not_mem_nil

/-- **No event is about a session that is not there.** -/
theorem session?_ne_of_get?_eq_none (hin : w.InLine) (hnone : w.sessions.get? k = none)
    {e : Event} (he : e ∈ (w.act a).2) : e.session? ≠ some k := by
  intro hk
  have hseen := seenBy_take_of_get?_eq_none hin hnone a
  cases e with
  | told k' e' =>
    obtain rfl := Option.some.inj hk
    obtain ⟨s, hs⟩ := exists_session_of_told he
    rw [hnone] at hs
    cases hs
  | finished j outcome => cases hk
  | _ =>
    obtain rfl := Option.some.inj hk
    exact absurd (List.mem_filter.mpr ⟨he, by simp [Event.runtime?]⟩) (hseen ▸ List.not_mem_nil)

/-- Whoever is not there after an action, although its number had been given out by then, was not
there before. -/
theorem get?_eq_none_of_take (hseated : w.Seated) (hknown : k.number < (w.take a).1.nextListener)
    (hnone : (w.take a).1.sessions.get? k = none) :
    k.number < w.nextListener ∧ w.sessions.get? k = none := by
  have hgone : w.sessions.get? k = none := by
    refine Option.eq_none_iff_forall_ne_some.mpr fun s hs => ?_
    obtain ⟨s', hs'⟩ := exists_take hseated hs a
    rw [hnone] at hs'
    cases hs'
  refine ⟨?_, hgone⟩
  by_cases hopening : a.IsOpening
  · cases a with
    | openSession o =>
      refine Nat.lt_of_le_of_ne (Nat.le_of_lt_succ hknown) fun hnew => ?_
      have hself : (w.take (.openSession o)).1.sessions.get? ⟨w.nextListener⟩ = some _ :=
        Index.get?_insert_self _ _ _
      rw [← hnew, hnone] at hself
      cases hself
    | _ => exact absurd hopening (by simp [Action.IsOpening])
  · rwa [(evolves_take hopening).nextListener_eq] at hknown

/-- A session that is not there any more is among those that leave. -/
theorem mem_leaving_of_reap (hseated : w.Seated) (hs : w.sessions.get? k = some s)
    (hnone : w.reap.sessions.get? k = none) : (k, s) ∈ w.leaving := by
  have hfilter : w.reap.sessions.get? k = _ := Index.get?_filter hseated.nodup _ k
  rw [hfilter, hs, Option.filter_some] at hnone
  refine List.mem_filter.mpr ⟨Index.mem_entries_of_get? hs, ?_⟩
  split at hnone
  · cases hnone
  · next hkept => simpa using hkept

end World

/-! ## Estates -/

/-- Nothing that was left behind goes on. -/
structure Estate.IsQuiet (e : Estate) : Prop where
  void : e.debouncer.IsVoid
  aborted : e.isAborted = true

/-- Whoever may leave leaves a quiet estate: no push of his is under way. -/
theorem Paced.isQuiet_estate {s : Skipper} (h : s.Paced) (hsending : s.sending.isSome = false) :
    s.estate.IsQuiet where
  void := h.sound.isVoid_cancelLast fun hbusy => by
    rw [h.sending.mpr hbusy] at hsending
    cases hsending
  aborted := rfl

namespace Realm

variable {r : Realm}

/-- What is right about a realm at every moment of a run. -/
structure Sound (r : Realm) : Prop where
  inLine : r.world.InLine
  seated : r.world.Seated
  paced : ∀ k s, r.world.sessions.get? k = some s → s.Paced
  kept : ∀ e ∈ r.world.sessions.entries, r.world.isKept e.1 e.2 = true
  quiet : ∀ e ∈ r.estates.entries, e.2.IsQuiet
  left : ∀ k : Listener, k.number < r.world.nextListener → r.world.sessions.get? k = none →
    k ∈ r.estates.keys

theorem sound_start : start.Sound where
  inLine := World.inLine_start
  seated := World.seated_start
  paced _ _ hs := by cases hs
  kept _ he := absurd he List.not_mem_nil
  quiet _ he := absurd he List.not_mem_nil
  left _ hk _ := absurd hk (Nat.not_lt_zero _)

/-- The tasks that were left behind do nothing that anybody could notice. -/
structure Rests (r r' : Realm) : Prop where
  world : r'.world = r.world
  keys : r'.estates.keys = r.estates.keys
  quiet : ∀ e ∈ r'.estates.entries, e.2.IsQuiet

theorem rests_self (h : ∀ e ∈ r.estates.entries, e.2.IsQuiet) : r.Rests r :=
  ⟨rfl, rfl, h⟩

theorem rests_settle (h : ∀ e ∈ r.estates.entries, e.2.IsQuiet) {e e' : Estate}
    (he : r.estates.get? k = some e) (hquiet : e'.IsQuiet) : r.Rests (r.settle k e') where
  world := rfl
  keys := Index.keys_insert_of_contains (by rw [Index.contains, he]; rfl) e'
  quiet x hx := (Index.mem_entries_insert hx).elim (fun hx => hx ▸ hquiet) (h x)

theorem rests_tick (h : ∀ e ∈ r.estates.entries, e.2.IsQuiet) (k : Listener) (now : Instant)
    (latency : Nat) : r.Rests (r.tick k now latency).1 ∧ (r.tick k now latency).2 = [] := by
  unfold tick
  cases he : r.estates.get? k with
  | none => exact ⟨rests_self h, rfl⟩
  | some e =>
    have hquiet : e.IsQuiet := h _ (Index.mem_entries_of_get? he)
    have harmed := hquiet.void.arm now
    simp only
    cases hstep : (e.debouncer.arm now).step? now fun _ => latency with
    | none => exact ⟨rests_settle h he ⟨harmed, hquiet.aborted⟩, rfl⟩
    | some happened =>
      obtain ⟨es, d⟩ := happened
      obtain ⟨rfl, hd⟩ := harmed.step hstep
      exact ⟨rests_settle h he ⟨hd, hquiet.aborted⟩, rfl⟩

theorem rests_inquire (h : ∀ e ∈ r.estates.entries, e.2.IsQuiet) (k : Listener) :
    r.Rests (r.inquire k).1 ∧ (r.inquire k).2 = [] := by
  unfold inquire
  cases he : r.estates.get? k with
  | none => exact ⟨rests_self h, rfl⟩
  | some e =>
    have hquiet : e.IsQuiet := h _ (Index.mem_entries_of_get? he)
    simp only [hquiet.aborted, if_true]
    exact ⟨rests_settle h he ⟨hquiet.void, rfl⟩, trivial⟩

theorem rests_answer (h : ∀ e ∈ r.estates.entries, e.2.IsQuiet) (k : Listener)
    (reply : Except Fault Json) : r.Rests (r.answer k reply).1 ∧ (r.answer k reply).2 = [] := by
  unfold answer
  cases he : r.estates.get? k with
  | none => exact ⟨rests_self h, rfl⟩
  | some e =>
    have hquiet : e.IsQuiet := h _ (Index.mem_entries_of_get? he)
    simp only [hquiet.aborted, if_true]
    exact ⟨rests_settle h he ⟨hquiet.void, rfl⟩, trivial⟩

/-- **Estates rest.** -/
theorem rests_stir (h : ∀ e ∈ r.estates.entries, e.2.IsQuiet) (a : Action) :
    r.Rests (r.stir a).1 ∧ (r.stir a).2 = [] := by
  cases a with
  | tick k now latency => exact rests_tick h k now latency
  | inquire k => exact rests_inquire h k
  | answer k reply => exact rests_answer h k reply
  | _ => exact ⟨rests_self h, rfl⟩

/-! ## Runs with estates are runs without -/

/-- **An action does the same with estates as without**, and what is right stays right. -/
theorem Sound.act (h : r.Sound) (a : Action) :
    (r.act a).1.Sound ∧ (r.act a).1.world = (r.world.act a).1 ∧
      (r.act a).2 = (r.world.act a).2 := by
  obtain ⟨hrests, hnothing⟩ := rests_stir h.quiet a
  have hworld : (r.act a).1.world = (r.world.act a).1 := by
    rw [← hrests.world]
    rfl
  have hseen : (r.act a).2 = (r.world.act a).2 := by
    change (r.stir a).2 ++ _ = _
    rw [hnothing, ← hrests.world]
    rfl
  have hestates : (r.act a).1.estates.entries = (r.stir a).1.estates.entries ++
      (r.world.take a).1.leaving.map fun e => (e.1, e.2.estate) := by
    rw [← hrests.world]
    rfl
  have hline := h.inLine.take h.seated a
  have hseats := h.seated.take a
  have hpaced : ∀ k s, (r.world.take a).1.sessions.get? k = some s → s.Paced := by
    intro k s hs
    rcases World.opened_or_deed hs with ⟨o, -, -, rfl⟩ | ⟨t, ht, hdeed⟩
    · exact paced_opening o _
    · exact hdeed.paced (h.paced k t ht)
  refine ⟨⟨hworld ▸ hline.reap hseats, hworld ▸ hseats.reap, fun k s hs => ?_, fun e he => ?_,
    fun e he => ?_, fun k hk hnone => ?_⟩, hworld, hseen⟩
  · rw [hworld] at hs
    exact hpaced k s (World.get?_of_act h.seated hs)
  · rw [hworld] at he ⊢
    exact (List.mem_filter.mp he).2
  · rw [hestates] at he
    rcases List.mem_append.mp he with he | he
    · exact hrests.quiet e he
    · obtain ⟨x, hx, rfl⟩ := List.mem_map.mp he
      obtain ⟨hmem, hunkept⟩ := List.mem_filter.mp hx
      refine (hpaced x.1 x.2 ((Index.get?_eq_some_iff hseats.nodup).mpr hmem)).isQuiet_estate ?_
      cases hsending : x.2.sending.isSome with
      | false => rfl
      | true => simp [World.isKept, hsending] at hunkept
  · rw [hworld] at hk hnone
    rw [Index.keys, hestates, List.map_append, List.mem_append]
    cases hs : (r.world.take a).1.sessions.get? k with
    | some s =>
      refine Or.inr (List.mem_map.mpr ⟨(k, s.estate), ?_, rfl⟩)
      exact List.mem_map_of_mem (f := fun e : Listener × Skipper => (e.1, e.2.estate))
        (World.mem_leaving_of_reap hseats hs hnone)
    | none =>
      obtain ⟨hknown, hbefore⟩ := World.get?_eq_none_of_take h.seated hk hs
      have hkey := h.left k hknown hbefore
      rw [← hrests.keys] at hkey
      exact Or.inl hkey

theorem Sound.run (h : r.Sound) (actions : List Action) :
    (r.run actions).1.Sound ∧ (r.run actions).1.world = (r.world.run actions).1 ∧
      (r.run actions).2 = (r.world.run actions).2 := by
  induction actions generalizing r with
  | nil => exact ⟨h, rfl, rfl⟩
  | cons a rest ih =>
    obtain ⟨hact, hworld, hseen⟩ := h.act a
    obtain ⟨hrun, hworld', hseen'⟩ := ih hact
    refine ⟨hrun, ?_, ?_⟩
    · change ((r.act a).1.run rest).1.world = _
      rw [hworld', hworld]
      rfl
    · change (r.act a).2 ++ ((r.act a).1.run rest).2 = _
      rw [hseen, hseen', hworld]
      rfl

/-! ## Nobody reaches them -/

/-- The session has been there and is not there any more. -/
def HasLeft (r : Realm) (k : Listener) : Prop :=
  k.number < r.world.nextListener ∧ r.world.sessions.get? k = none

theorem Sound.hasLeft (h : r.Sound) (hknown : k.number < r.world.nextListener)
    (hgone : ¬ r.world.IsHeld k) : r.HasLeft k :=
  ⟨hknown, Option.eq_none_iff_forall_ne_some.mpr fun _ hs =>
    hgone (World.isHeld_of_isKept hs (h.kept _ (Index.mem_entries_of_get? hs)))⟩

theorem Sound.act_of_hasLeft (h : r.Sound) (hleft : r.HasLeft k) (a : Action) :
    (r.act a).1.HasLeft k ∧ ∀ e ∈ (r.act a).2, e.session? ≠ some k := by
  obtain ⟨-, hworld, hseen⟩ := h.act a
  refine ⟨⟨?_, ?_⟩, fun e he => ?_⟩
  · rw [hworld]
    exact Nat.lt_of_lt_of_le hleft.1 (World.nextListener_le_take _ a)
  · rw [hworld]
    refine Option.eq_none_iff_forall_ne_some.mpr fun s' hs' => ?_
    obtain ⟨s, hs⟩ := World.exists_session_of_act h.seated hleft.1 hs'
    rw [hleft.2] at hs
    cases hs
  · rw [hseen] at he
    exact World.session?_ne_of_get?_eq_none h.inLine hleft.2 he

/-- **Whoever has left stays away, and no event is about him.** -/
theorem Sound.run_of_hasLeft (h : r.Sound) (hleft : r.HasLeft k) (actions : List Action) :
    (r.run actions).1.HasLeft k ∧ ∀ e ∈ (r.run actions).2, e.session? ≠ some k := by
  induction actions generalizing r with
  | nil => exact ⟨hleft, fun e he => absurd he List.not_mem_nil⟩
  | cons a rest ih =>
    obtain ⟨hstays, hsilent⟩ := h.act_of_hasLeft hleft a
    obtain ⟨hstays', hsilent'⟩ := ih (h.act a).1 hstays
    exact ⟨hstays', fun e he => (List.mem_append.mp he).elim (hsilent e) (hsilent' e)⟩

end Realm

/-- **A session that nobody holds is gone for good.**  Whatever happens from then on, no event is
about it: its runtime is sent no patterns and no ranges and is not asked for builtin modules, and it
is told about no change.  It is in no audience.  The bus lists the sessions that are there, in each
root as many as there are, and the session is none of them.  What it has left behind is there, and
is cancelled and aborted for good. -/
theorem departed_spec {actions : List Action} {k : Listener}
    (hknown : k.number < (Realm.start.run actions).1.world.nextListener)
    (hgone : ¬ (Realm.start.run actions).1.world.IsHeld k) (later : List Action) :
    let r := (Realm.start.run actions).1.run later
    (∀ e ∈ r.2, e.session? ≠ some k) ∧
    (∀ e, k ∉ r.1.world.bus.audience r.1.world.isAlive e) ∧
    (∀ root, (∀ x ∈ r.1.world.bus.subscribers root, x.listener ≠ k) ∧
      r.1.world.bus.count root = (r.1.world.sessions.values.filter fun s => s.root = root).length) ∧
    r.1.world.isAlive k = false ∧ ∃ e, r.1.estates.get? k = some e ∧ e.IsQuiet := by
  have hstart := (Realm.sound_start.run actions).1
  have hsound := (hstart.run later).1
  obtain ⟨hleft, hsilent⟩ := hstart.run_of_hasLeft (hstart.hasLeft hknown hgone) later
  have hdead : ((Realm.start.run actions).1.run later).1.world.isAlive k = false := by
    rw [World.isAlive, Index.contains, hleft.2]
    rfl
  have hestate := hsound.left k hleft.1 hleft.2
  rw [← Index.contains_iff] at hestate
  obtain ⟨e, he⟩ := Option.isSome_iff_exists.mp hestate
  refine ⟨hsilent, fun e hk => ?_, fun root => ⟨fun x hx hxk => ?_, ?_⟩, hdead, e, he,
    hsound.quiet _ (Index.mem_entries_of_get? he)⟩
  · have halive := World.isAlive_of_mem_audience hk
    rw [hdead] at halive
    cases halive
  · rw [hsound.seated.listed, World.map_subscriber_seats] at hx
    obtain ⟨x', hx', rfl⟩ := List.mem_map.mp hx
    have hnone := Index.get?_eq_none_iff.mp hleft.2
    exact hnone (List.mem_map.mpr ⟨x', (List.mem_filter.mp hx').1, hxk⟩)
  · rw [SkipBus.count, hsound.seated.listed, World.map_subscriber_seats, List.length_map,
      Index.values, List.filter_map, List.length_map]
    rfl

/-- A worker leaves with a push scheduled and its question on the way, and its page goes on. -/
def abrupt : List Action :=
  [.openSession ⟨⟨"page"⟩, ⟨"page"⟩, .ofGlobs [] none .sensitive, .empty, 500, false⟩,
    .openSession ⟨⟨"worker"⟩, ⟨"page"⟩, .ofGlobs [] none .sensitive, .empty, 500, true⟩,
    .inquire ⟨1⟩, .begin ⟨0⟩ (.toggle ⟨0⟩ (.resource "/app/main.js")), .proceed ⟨0⟩ [],
    .proceed ⟨0⟩ [], .proceed ⟨0⟩ [], .proceed ⟨0⟩ [], .tick ⟨1⟩ 0 50, .closeSession ⟨1⟩]

/-- The delay of the push is over, the answer comes, and the page toggles the file again. -/
def aftermath : List Action :=
  [.tick ⟨1⟩ 500 50, .answer ⟨1⟩ (.ok (.array [])),
    .begin ⟨1⟩ (.toggle ⟨0⟩ (.resource "/app/main.js")), .proceed ⟨1⟩ [], .proceed ⟨1⟩ []]

theorem departed_spec_abrupt :
    ((Realm.start.run abrupt).1.estates.get? ⟨1⟩).map
      (fun e => (e.debouncer.isPending, e.discovery)) = some (true, .asked) ∧
    (∀ e ∈ ((Realm.start.run abrupt).1.run aftermath).2, e.session? ≠ some ⟨1⟩) ∧
    ((Realm.start.run abrupt).1.run aftermath).1.world.bus.count ⟨"page"⟩ = 1 := by
  have hknown : (1 : Nat) < (Realm.start.run abrupt).1.world.nextListener := by decide
  have hsession : (Realm.start.run abrupt).1.world.sessions.get? ⟨1⟩ = none := rfl
  have hjobs : (Realm.start.run abrupt).1.world.jobs.values = [] := rfl
  have hgone : ¬ (Realm.start.run abrupt).1.world.IsHeld ⟨1⟩ := by
    rintro (⟨s, hs, -⟩ | ⟨job, hjob, -⟩)
    · rw [hsession] at hs
      cases hs
    · rw [hjobs] at hjob
      exact absurd hjob List.not_mem_nil
  obtain ⟨hsilent, -, hbus, -⟩ := departed_spec hknown hgone aftermath
  exact ⟨rfl, hsilent, (hbus ⟨"page"⟩).2.trans rfl⟩

end Skipper
end DebugTree
