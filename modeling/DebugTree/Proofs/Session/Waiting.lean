import DebugTree.Proofs.Session.Stretches
import Mathlib

/-!
# Nobody waits for ever

A call waits for the editor, for an adapter, or for one of the two promises of a record: its
connection or its gate.  A world is settled when no call can go on by itself.  In a settled world
the promises that are waited for are open, and **an open promise belongs to a registered record**:
whoever leaves the registry settles both of its promises on the way out.

So a release cannot leave anybody behind.  Every call that waited for an open promise of the
released record is refused as soon as it goes on, whichever call it is and however the record came
to be released (`waits_end`).  That calls do go on is a matter of the steps they have left: each
takes one, so letting them go on comes to an end.
-/

namespace DebugTree
namespace Session

open Protocol

namespace World

variable {w w' : World} {c : CallId} {call : Call} {a : Action} {h : RecordHandle} {r : Record}
  {part : Part}

/-! ## Going on -/

/-- No call can go on by itself. -/
def IsSettled (w : World) : Prop :=
  ∀ c, w.resume c = (w, [])

/-- Whoever waits for a promise goes on exactly when it is settled, and is told if it was broken. -/
theorem resume_cases (hcall : w.calls.get? c = some call)
    (hawaits : call.awaits? = some (h, part)) :
    (w.registry.outcome? h part = none ∧ w.resume c = (w, [])) ∨
    (w.registry.outcome? h part = some (.ok ()) ∧ (w.resume c).2 ≠ []) ∨
    ∃ reason id, w.registry.outcome? h part = some (.error reason) ∧
      (w.resume c).2 = [.finished c (.error (.sessionRejected id reason))] := by
  have hresumed := resumed hcall
  generalize w.resume c = x at hresumed
  cases hresumed with
  | rests hopen => exact Or.inl ⟨hopen h part hawaits, rfl⟩
  | routed hh hroute =>
    subst hh
    cases hawaits
    exact Or.inr (Or.inl ⟨hroute.outcome?_eq, List.cons_ne_nil _ _⟩)
  | connected hh hk =>
    rcases hh with ⟨target, rfl⟩ | ⟨id, rfl⟩ <;>
    · cases hawaits
      exact Or.inr (Or.inl ⟨hk.outcome?_eq, List.cons_ne_nil _ _⟩)
  | completed hh hgate =>
    subst hh
    cases hawaits
    exact Or.inr (Or.inl ⟨hgate, List.cons_ne_nil _ _⟩)
  | refused id _ hawaits' hreason =>
    rw [hawaits, Option.some.injEq, Prod.mk.injEq] at hawaits'
    obtain ⟨rfl, rfl⟩ := hawaits'
    exact Or.inr (Or.inr ⟨_, id, hreason, rfl⟩)
  | stranded hh hreason =>
    subst hh
    cases hawaits
    exact Or.inr (Or.inr ⟨_, _, hreason, rfl⟩)

theorem resume_eq_iff (hcall : w.calls.get? c = some call)
    (hawaits : call.awaits? = some (h, part)) :
    w.resume c = (w, []) ↔ w.registry.outcome? h part = none := by
  rcases resume_cases hcall hawaits with ⟨hopen, hrest⟩ | ⟨hkept, hseen⟩ | ⟨reason, id, hout, hseen⟩
  · exact iff_of_true hrest hopen
  · exact iff_of_false (fun hrest => hseen (by rw [hrest])) (by simp [hkept])
  · exact iff_of_false (fun hrest => by rw [hrest] at hseen; cases hseen) (by simp [hout])

theorem answer_of_awaits? (hcall : w.calls.get? c = some call)
    (hawaits : call.awaits? = some (h, part)) (reply : Except Fault Unit) :
    w.answer c reply = (w, []) := by
  cases call with
  | requesting => cases hawaits
  | replaying => cases hawaits
  | _ => cases reply <;> simp only [answer, hcall]

/-- Who waits for a promise that was broken is told why. -/
theorem seen_resume_of_error (hcall : w.calls.get? c = some call)
    (hawaits : call.awaits? = some (h, part)) {reason : String}
    (hreason : w.registry.outcome? h part = some (.error reason)) :
    ∃ id, (w.resume c).2 = [.finished c (.error (.sessionRejected id reason))] := by
  rcases resume_cases hcall hawaits with ⟨hopen, -⟩ | ⟨hkept, -⟩ | ⟨reason', id, hout, hseen⟩
  · rw [hopen] at hreason
    cases hreason
  · rw [hkept] at hreason
    cases hreason
  · rw [hout, Option.some.injEq, Except.error.injEq] at hreason
    exact ⟨id, by rw [hseen, hreason]⟩

/-- Whoever waits for a promise waits until it is settled. -/
theorem get?_calls_act_of_awaits? (hcall : w.calls.get? c = some call)
    (hawaits : call.awaits? = some (h, part)) (hstays : a.displaced? ≠ some c) :
    (w.act a).1.calls.get? c = some call ∨
      a = .resume c ∧ w.registry.outcome? h part ≠ none := by
  by_cases ha : a.call? = some c
  · rcases Action.eq_resume_or_answer ha hstays with rfl | ⟨reply, rfl⟩
    · by_cases hopen : w.registry.outcome? h part = none
      · left
        rw [act, (resume_eq_iff hcall hawaits).mpr hopen]
        exact hcall
      · exact Or.inr ⟨rfl, hopen⟩
    · left
      rw [act, answer_of_awaits? hcall hawaits]
      exact hcall
  · exact Or.inl ((get?_calls_act ha).trans hcall)

/-! ## Every record that is waited for exists -/

/-- The records that calls go by exist. -/
def Grounded (w : World) : Prop :=
  ∀ c call, w.calls.get? c = some call → ∀ h ∈ call.records, ∃ r, w.registry.record? h = some r

theorem grounded_start (root : ConnectionId) (debugType : String) :
    (start root debugType).Grounded := by
  intro c call hcall
  cases hcall

/-- A call that has ended is not under way. -/
theorem get?_calls_finish_ne {result : Except Fault Outcome} :
    (w.finish c result).1.calls.get? c ≠ some call := by
  intro hsome
  rw [get?_finish] at hsome
  cases hsome

theorem eq_of_get?_suspend {call' : Call} (hcall : (w.suspend c call').calls.get? c = some call) :
    call = call' := by
  rw [suspend, Index.get?_insert_self] at hcall
  exact (Option.some.inj hcall).symm

/-- An acquisition goes by its own record and by that of the nearest ancestor. -/
theorem exists_record_of_acquire {target : TargetHandle}
    (hcall : (w.acquire c target).1.calls.get? c = some call) (hh : h ∈ call.records) :
    ∃ r, (w.acquire c target).1.registry.record? h = some r := by
  by_cases hfree : w.registry.sessions.get? (w.tree.idOf target) = none
  · have hown : ∃ r, (w.enroll target).registry.record? w.registry.next = some r :=
      ⟨_, Index.get?_insert_self _ _ _⟩
    rw [acquire_of_free hfree] at hcall ⊢
    cases hn : (w.enroll target).nearest? target with
    | none =>
      rw [hn] at hcall
      rw [eq_of_get?_suspend hcall] at hh
      rw [List.mem_singleton.mp hh]
      exact hown
    | some x =>
      obtain ⟨ancestor, record⟩ := x
      rw [hn] at hcall
      rw [eq_of_get?_suspend hcall] at hh
      rcases List.mem_pair.mp hh with rfl | rfl
      · exact hown
      · obtain ⟨r, hs⟩ := exists_of_nearest? hn
        exact ⟨r, (Registry.session?_eq_some_iff.mp hs).2⟩
  · rw [acquire_of_taken hfree] at hcall
    exact absurd hcall get?_calls_finish_ne

theorem exists_record_of_connection {id : TargetId}
    (hcall : (w.connection c id).1.calls.get? c = some call) (hh : h ∈ call.records) :
    ∃ r, (w.connection c id).1.registry.record? h = some r := by
  rcases w.connection_cases c id with ⟨record, r, hs, heq⟩ | ⟨f, heq⟩
  · rw [heq] at hcall ⊢
    rw [eq_of_get?_suspend hcall] at hh
    rw [List.mem_singleton.mp hh]
    exact ⟨r, (Registry.session?_eq_some_iff.mp hs).2⟩
  · rw [heq] at hcall
    exact absurd hcall get?_calls_finish_ne

theorem exists_record_of_complete {p : PendingConnection} {args : Launch}
    (hcall : (w.complete c p args).1.calls.get? c = some call) (hh : h ∈ call.records) :
    ∃ r, (w.complete c p args).1.registry.record? h = some r := by
  rcases w.complete_cases c p args with ⟨id, record, r, -, -, hs, -, heq⟩ | ⟨f, heq⟩
  · rw [heq] at hcall ⊢
    rw [eq_of_get?_suspend hcall] at hh
    rw [List.mem_singleton.mp hh]
    exact ⟨_, Index.get?_insert_self _ _ _⟩
  · rw [heq] at hcall
    exact absurd hcall get?_calls_finish_ne

/-- A call that has gone on goes by records that it went by before. -/
theorem records_resume (hcall : (w.resume c).1.calls.get? c = some call) (hh : h ∈ call.records) :
    ∃ call', w.calls.get? c = some call' ∧ h ∈ call'.records := by
  cases hcall' : w.calls.get? c with
  | none =>
    rw [resume_of_none hcall', hcall'] at hcall
    cases hcall
  | some call' =>
    refine ⟨call', rfl, ?_⟩
    have hresumed := resumed hcall'
    generalize w.resume c = x at hresumed hcall
    cases hresumed with
    | rests =>
      rw [hcall', Option.some.injEq] at hcall
      rwa [hcall]
    | routed hh' =>
      rw [eq_of_get?_suspend hcall] at hh
      rw [hh', List.mem_singleton.mp hh]
      exact List.mem_cons_self
    | connected | completed | refused | stranded => exact absurd hcall get?_calls_finish_ne

/-- A call that has been answered goes by records that it went by before. -/
theorem records_answer {reply : Except Fault Unit}
    (hcall : (w.answer c reply).1.calls.get? c = some call) (hh : h ∈ call.records) :
    ∃ call', w.calls.get? c = some call' ∧ h ∈ call'.records := by
  cases hcall' : w.calls.get? c with
  | none =>
    rw [answer_of_none hcall', hcall'] at hcall
    cases hcall
  | some call' =>
    refine ⟨call', rfl, ?_⟩
    have hanswered := answered hcall' reply
    generalize w.answer c reply = x at hanswered hcall
    cases hanswered with
    | rests =>
      rw [hcall', Option.some.injEq] at hcall
      rwa [hcall]
    | taken hh' =>
      rw [eq_of_get?_suspend hcall] at hh
      rw [hh']
      exact hh
    | told =>
      rw [records_ask hcall] at hh
      cases hh
    | refused | failed => exact absurd hcall get?_calls_finish_ne

/-- A call after a stretch of it goes by records that it went by before, or that exist now. -/
theorem records_act (ha : a.call? = some c)
    (hcall : (w.act a).1.calls.get? c = some call) (hh : h ∈ call.records) :
    (∃ call', w.calls.get? c = some call' ∧ h ∈ call'.records) ∨
      ∃ r, (w.act a).1.registry.record? h = some r := by
  cases a with
  | acquire c' target => cases ha; exact Or.inr (exists_record_of_acquire hcall hh)
  | connection c' id => cases ha; exact Or.inr (exists_record_of_connection hcall hh)
  | complete c' p args => cases ha; exact Or.inr (exists_record_of_complete hcall hh)
  | resume c' => cases ha; exact Or.inl (records_resume hcall hh)
  | answer c' reply => cases ha; exact Or.inl (records_answer hcall hh)
  | replay c' target =>
    cases ha
    rw [records_replay hcall] at hh
    cases hh
  | abort c' =>
    cases ha
    cases (Index.get?_erase_self w.calls c).symm.trans hcall
  | _ => cases ha

theorem Grounded.act (hg : w.Grounded) (hu : w.Upright) (a : Action) : (w.act a).1.Grounded := by
  intro c call hcall h hh
  have hold : ∀ call', w.calls.get? c = some call' → h ∈ call'.records →
      ∃ r, (w.act a).1.registry.record? h = some r := by
    intro call' hcall' hh'
    obtain ⟨r, hr⟩ := hg c call' hcall' h hh'
    obtain ⟨r', hr', -⟩ := (hu.later_act a).registry.record h r hr
    exact ⟨r', hr'⟩
  by_cases ha : a.call? = some c
  · rcases records_act ha hcall hh with ⟨call', hcall', hh'⟩ | hr
    · exact hold call' hcall' hh'
    · exact hr
  · rw [get?_calls_act ha] at hcall
    exact hold call hcall hh

theorem Upright.grounded_before (hu : w.Upright) (hg : w.Grounded) (actions : List Action)
    (n : Nat) : (w.before actions n).Grounded := by
  induction n with
  | zero => rwa [before_zero]
  | succ n ih =>
    cases hn : actions[n]? with
    | none => rwa [before_succ_of_none hn]
    | some a => rw [before_succ hn]; exact ih.act (hu.before actions n) a

/-! ## Settled worlds -/

/-- **In a settled world whoever waits waits for an open promise of a registered record.** -/
theorem IsSettled.isOpen (hw : w.IsSettled) (hg : w.Grounded)
    (hcall : w.calls.get? c = some call) (hawaits : call.awaits? = some (h, part)) :
    w.registry.IsOpen h part := by
  obtain ⟨r, hr⟩ := hg c call hcall h (Call.mem_records_of_awaits? hawaits)
  have hopen := (resume_eq_iff hcall hawaits).mp (hw c)
  rw [Registry.outcome?_of_record? hr] at hopen
  exact ⟨r, hr, hopen⟩

/-- The steps that the calls have left. -/
def stepsLeft (w : World) : Nat :=
  (w.calls.values.map Call.stepsLeft).sum

theorem stepsLeft_finish_lt (hcall : w.calls.get? c = some call) (g : Registry)
    (result : Except Fault Outcome) :
    (({ w with registry := g } : World).finish c result).1.stepsLeft < w.stepsLeft := by
  have hsum := Index.sum_values_erase (f := Call.stepsLeft) hcall
  have hpos : 0 < call.stepsLeft := by cases call <;> simp [Call.stepsLeft]
  change ((w.calls.erase c).values.map Call.stepsLeft).sum < (w.calls.values.map Call.stepsLeft).sum
  omega

/-- To go on takes a step. -/
theorem stepsLeft_resume_lt (hc : w.resume c ≠ (w, [])) :
    (w.resume c).1.stepsLeft < w.stepsLeft := by
  cases hcall : w.calls.get? c with
  | none => exact absurd (resume_of_none hcall) hc
  | some call =>
    have hresumed := resumed hcall
    generalize w.resume c = x at hresumed hc
    cases hresumed with
    | rests => exact absurd rfl hc
    | @routed target ancestor own h route hh =>
      have hsum := Index.sum_values_insert (f := Call.stepsLeft) hcall (.requesting target own route)
      rw [hh] at hsum
      simp only [Call.stepsLeft] at hsum
      change ((w.calls.insert c (.requesting target own route)).values.map Call.stepsLeft).sum <
        (w.calls.values.map Call.stepsLeft).sum
      omega
    | connected => exact stepsLeft_finish_lt hcall w.registry _
    | completed => exact stepsLeft_finish_lt hcall w.registry _
    | refused => exact stepsLeft_finish_lt hcall w.registry _
    | stranded => exact stepsLeft_finish_lt hcall _ _

/-- **Going on comes to an end.** -/
theorem exists_isSettled (w : World) : ∃ cs : List CallId, (w.run (cs.map .resume)).1.IsSettled := by
  by_cases hw : w.IsSettled
  · exact ⟨[], hw⟩
  · obtain ⟨c, hc⟩ := not_forall.mp hw
    have hlt := stepsLeft_resume_lt hc
    obtain ⟨cs, hcs⟩ := exists_isSettled (w.resume c).1
    exact ⟨c :: cs, hcs⟩
  termination_by w.stepsLeft

/-! ## Waiting over a run -/

variable {actions : List Action} {m n : Nat}

/-- No step from one number up to another puts an end to a call. -/
def Undisturbed (actions : List Action) (c : CallId) (m n : Nat) : Prop :=
  ∀ k a, m ≤ k → k < n → actions[k]? = some a → a.displaced? ≠ some c

/-- Whoever waits for a promise waits until it is settled and the call goes on. -/
theorem exists_resume_of_awaits? (hmn : m ≤ n) (hstays : Undisturbed actions c m n)
    (hcall : (w.before actions m).calls.get? c = some call)
    (hawaits : call.awaits? = some (h, part)) :
    (w.before actions n).calls.get? c = some call ∨
    ∃ k, m ≤ k ∧ k < n ∧ actions[k]? = some (.resume c) ∧
      (w.before actions k).calls.get? c = some call ∧
      (w.before actions k).registry.outcome? h part ≠ none := by
  induction hmn with
  | refl => exact Or.inl hcall
  | @step n hmn ih =>
    rcases ih fun k a hk hkn => hstays k a hk (Nat.lt_succ_of_lt hkn) with hwaits | hgoes
    · cases hn : actions[n]? with
      | none => left; rwa [before_succ_of_none hn]
      | some a =>
        have hne := hstays n a hmn (Nat.lt_succ_self n) hn
        rcases get?_calls_act_of_awaits? hwaits hawaits hne with hwaits' | ⟨rfl, hsettled⟩
        · left; rwa [before_succ hn]
        · exact Or.inr ⟨n, hmn, Nat.lt_succ_self n, hn, hwaits, hsettled⟩
    · obtain ⟨k, hk, hkn, hrest⟩ := hgoes
      exact Or.inr ⟨k, hk, Nat.lt_succ_of_lt hkn, hrest⟩

/-- A promise that is open when its record is released is broken from then on. -/
theorem Upright.outcome?_of_left (hu : w.Upright) (hmn : m < n)
    (hreg : (w.before actions m).registry.IsRegistered h)
    (hgone : ¬ (w.before actions (m + 1)).registry.IsRegistered h)
    (hopen : (w.before actions m).registry.IsOpen h part) :
    (w.before actions n).registry.outcome? h part = some (.error Record.releasedReason) := by
  obtain ⟨r, hr, hopen⟩ := hopen
  cases hm : actions[m]? with
  | none =>
    rw [before_succ_of_none hm] at hgone
    exact absurd hreg hgone
  | some a =>
    rw [before_succ hm] at hgone
    obtain ⟨r', hr', hlater⟩ := left_act (hu.before actions m).registry hr hreg hgone
    rw [← before_succ hm] at hr'
    obtain ⟨r'', hr'', hlater'⟩ := (hu.later_before hmn).registry.record h r' hr'
    rw [Registry.outcome?_of_record? hr'', (hlater.trans hlater').outcome?_eq,
      Record.outcome?_released hopen]

theorem Upright.not_isRegistered_of_left (hu : w.Upright) (hmn : m < n)
    (hreg : (w.before actions m).registry.IsRegistered h)
    (hgone : ¬ (w.before actions (m + 1)).registry.IsRegistered h) :
    ¬ (w.before actions n).registry.IsRegistered h := by
  obtain ⟨id, hid⟩ := hreg
  obtain ⟨r, hr, -⟩ := (hu.before actions m).registry.named id h hid
  have hlater : (w.before actions m).Later (w.before actions (m + 1)) :=
    hu.later_before (Nat.le_succ m)
  obtain ⟨r', hr', -⟩ := hlater.registry.record h r hr
  exact fun hback => hgone ((hu.later_before hmn).registry.gone h r' hr' hback)

end World

/-- **Nobody waits for ever.**  In a settled world every call that has not ended waits for the
editor or an adapter, or for an open promise of a registered record.

So when a record leaves the registry, whichever way, and a call waits for a promise of it that was
open then, the call has been told by the next settled moment that the session was released, unless
it was broken off; and nobody waits for that record at that moment.

And settled moments come: from every moment on, letting calls go on leads to one. -/
theorem waits_end (root : ConnectionId) (debugType : String) (actions : List Action) :
    let w := World.start root debugType
    (∀ n, (w.before actions n).IsSettled → ∀ c call,
      (w.before actions n).calls.get? c = some call →
        (∃ target own route, call = .requesting target own route) ∨
        (∃ target what rest, call = .replaying target what rest) ∨
        ∃ h part, call.awaits? = some (h, part) ∧ (w.before actions n).registry.IsOpen h part ∧
          (w.before actions n).registry.IsRegistered h) ∧
    (∀ l n h, l < n → (w.before actions l).registry.IsRegistered h →
      ¬ (w.before actions (l + 1)).registry.IsRegistered h → (w.before actions n).IsSettled →
        (∀ m c call part, l ≤ m → m ≤ n → (w.before actions m).calls.get? c = some call →
          call.awaits? = some (h, part) → (w.before actions l).registry.IsOpen h part →
          World.Undisturbed actions c m n → ∃ k id, m ≤ k ∧ k < n ∧
            w.seenAt actions k =
              [.finished c (.error (.sessionRejected id Record.releasedReason))]) ∧
        ∀ c call, (w.before actions n).calls.get? c = some call →
          ∀ part, call.awaits? ≠ some (h, part)) ∧
    ∀ n, ∃ cs : List CallId, ((w.before actions n).run (cs.map .resume)).1.IsSettled := by
  intro w
  have hu := World.upright_start root debugType
  have hground : ∀ n, (w.before actions n).Grounded :=
    hu.grounded_before (World.grounded_start root debugType) actions
  have hwaits : ∀ n, (w.before actions n).IsSettled → ∀ c call,
      (w.before actions n).calls.get? c = some call → ∀ h part, call.awaits? = some (h, part) →
        (w.before actions n).registry.IsOpen h part ∧
          (w.before actions n).registry.IsRegistered h := by
    intro n hn c call hcall h part hawaits
    have hopen := hn.isOpen (hground n) hcall hawaits
    exact ⟨hopen, (hu.before actions n).registry.isRegistered_of_isOpen hopen⟩
  refine ⟨fun n hn c call hcall => ?_, fun l n h hln hreg hgone hn => ⟨?_, ?_⟩, fun n => ?_⟩
  · cases call with
    | requesting target own route => exact Or.inl ⟨target, own, route, rfl⟩
    | replaying target what rest => exact Or.inr (Or.inl ⟨target, what, rest, rfl⟩)
    | _ => exact Or.inr (Or.inr ⟨_, _, rfl, hwaits n hn c _ hcall _ _ rfl⟩)
  · intro m c call part hlm hmn hcall hawaits hopen hstays
    rcases World.exists_resume_of_awaits? hmn hstays hcall hawaits with hstill | hgoes
    · have hreg' := (hwaits n hn c call hstill h part hawaits).2
      exact absurd hreg' (hu.not_isRegistered_of_left hln hreg hgone)
    · obtain ⟨k, hmk, hkn, hk, hcall', hsettled⟩ := hgoes
      have hlk : l < k := by
        refine Nat.lt_of_le_of_ne (Nat.le_trans hlm hmk) ?_
        rintro rfl
        exact hsettled hopen.outcome?_eq
      obtain ⟨id, hseen⟩ :=
        World.seen_resume_of_error hcall' hawaits (hu.outcome?_of_left hlk hreg hgone hopen)
      exact ⟨k, id, hmk, hkn, by rw [World.seenAt_of_getElem? hk]; exact hseen⟩
  · intro c call hcall part hawaits
    have hreg' := (hwaits n hn c call hcall h part hawaits).2
    exact hu.not_isRegistered_of_left hln hreg hgone hreg'
  · exact World.exists_isSettled _

/-- A target is asked for, then its child, and somebody listens for the target's connection; then
the whole subtree is released, and everybody goes on. -/
def teardown : List Action :=
  [.addTarget ⟨"p"⟩ "p.js" .node none, .addTarget ⟨"c"⟩ "c.js" .childProcess (some ⟨"p"⟩),
    .acquire ⟨"parent"⟩ ⟨0⟩, .answer ⟨"parent"⟩ (.ok ()),
    .acquire ⟨"child"⟩ ⟨1⟩, .connection ⟨"listener"⟩ ⟨"p"⟩,
    .releaseSubtree ⟨0⟩,
    .resume ⟨"parent"⟩, .resume ⟨"child"⟩, .resume ⟨"listener"⟩]

/-- The child of a released target does not wait for ever. -/
theorem waits_end_teardown :
    let w := World.start ⟨"root"⟩ "node"
    ∃ k id, 6 ≤ k ∧ k < 10 ∧ w.seenAt teardown k =
      [.finished ⟨"child"⟩ (.error (.sessionRejected id Record.releasedReason))] := by
  intro w
  have hreg : (w.before teardown 6).registry.sessions.get? ⟨"p"⟩ = some ⟨0⟩ := by cbv
  have hnone : (w.before teardown 7).registry.sessions.entries = [] := by cbv
  have hended : (w.before teardown 10).calls.entries = [] := by cbv
  have hcall : (w.before teardown 6).calls.get? ⟨"child"⟩ =
      some (.awaitingAncestor ⟨1⟩ ⟨1⟩ ⟨0⟩ ⟨0⟩) := by cbv
  have hrecord : (w.before teardown 6).registry.record? ⟨0⟩ =
      some (.fresh ⟨0⟩ ⟨"p"⟩ "p.js") := by cbv
  have hgone : ¬ (w.before teardown 7).registry.IsRegistered ⟨0⟩ := by
    rintro ⟨id, hid⟩
    rw [Index.get?, hnone] at hid
    cases hid
  have hsettled : (w.before teardown 10).IsSettled := by
    intro c
    refine World.resume_of_none ?_
    rw [Index.get?, hended]
    rfl
  have hstays : World.Undisturbed teardown ⟨"child"⟩ 6 10 := by
    intro k a hk hk' ha
    interval_cases k <;> cases ha <;> decide
  exact ((waits_end ⟨"root"⟩ "node" teardown).2.1 6 10 ⟨0⟩ (by decide) ⟨_, hreg⟩ hgone hsettled).1
    6 _ _ _ (by decide) (by decide) hcall rfl ⟨_, hrecord, rfl⟩ hstays

end Session
end DebugTree
