import DebugTree.Proofs.Session.Requests

/-!
# Whose connection it is

Nothing but an id goes from a request to the connection that the editor opens for it: the request is
tagged with the name of a target, the connection is brought with a tag, and the two meet in a
record.  Yet what a call to `acquire` returns is the connection that was brought for *its own*
record (`acquired_spec`).  The call holds on to the handle of the record that it has registered, a
record is matched once, and handles are never given out twice; so no match can serve two calls, even
if their targets had one name, one after the other.
-/

namespace DebugTree
namespace Session

open Protocol

namespace Registry

variable {g : Registry} {h h' : RecordHandle} {id : TargetId} {k : ConnectionId} {r r' : Record}

/-! ## Who has got its connection -/

theorem isConnected_revise (hr : g.record? h' = some r) (hsame : r'.connection = r.connection) :
    (g.revise h' r').IsConnected h k ↔ g.IsConnected h k := by
  rw [IsConnected, IsConnected, record?_revise]
  split
  · next hh =>
    subst hh
    rw [hr]
    simp [hsame]
  · rfl

theorem isConnected_of_enrolled {target : TargetHandle} {name : String}
    (hk : (g.enrolled target id name).IsConnected h k) : g.IsConnected h k := by
  obtain ⟨r, hr, hk⟩ := hk
  rw [record?_enrolled] at hr
  split at hr
  · obtain rfl := Option.some.inj hr
    cases hk
  · exact ⟨r, hr, hk⟩

theorem isConnected_of_release (hk : (g.release id).2.IsConnected h k) : g.IsConnected h k := by
  cases hid : g.sessions.get? id with
  | none => rwa [release_of_none hid] at hk
  | some h' =>
    obtain ⟨r, hr, hk⟩ := hk
    rw [record?_release hid] at hr
    split at hr
    · next hh =>
      subst hh
      obtain ⟨r, hr', rfl⟩ := Option.map_eq_some_iff.mp hr
      refine ⟨r, hr', ?_⟩
      rw [Record.released, Deferred.reject, Deferred.settle] at hk
      split at hk
      · exact hk
      · cases hk
    · exact ⟨r, hr, hk⟩

theorem isConnected_of_releaseAll (ids : List TargetId)
    (hk : (g.releaseAll ids).2.IsConnected h k) : g.IsConnected h k :=
  releaseAll_induction (P := fun g' => g'.IsConnected h k → g.IsConnected h k)
    (fun _ _ hold hk => hold (isConnected_of_release hk)) ids (fun hk => hk) hk

theorem isConnected_of_touch {g' : Registry} {f : Record → Record}
    (hsame : ∀ r, (f r).connection = r.connection) (hnone : g.session? id = none → g' = g)
    (hsome : ∀ h r, g.session? id = some (h, r) → g' = g.revise h (f r))
    (hk : g'.IsConnected h k) : g.IsConnected h k := by
  cases hs : g.session? id with
  | none => rwa [hnone hs] at hk
  | some e =>
    rw [hsome e.1 e.2 hs] at hk
    exact (isConnected_revise (session?_eq_some_iff.mp hs).2 (hsame _)).mp hk

theorem isConnected_of_ready (hk : (g.ready id).2.IsConnected h k) : g.IsConnected h k :=
  isConnected_of_touch (fun r => (rfl : r.ready.connection = r.connection))
    (fun hs => congrArg Prod.snd (ready_of_none hs))
    (fun _ _ hs => congrArg Prod.snd (ready_of_session? hs)) hk

theorem isConnected_of_failed {reason : String} (hk : (g.failed id reason).IsConnected h k) :
    g.IsConnected h k :=
  isConnected_of_touch (fun r => (rfl : (r.failed reason).connection = r.connection))
    (fun hs => failed_of_none hs reason) (fun _ _ hs => failed_of_session? hs reason) hk

end Registry

namespace World

variable {w : World} {actions : List Action} {m n s : Nat} {c : CallId} {call : Call} {a : Action}
  {target : TargetHandle} {own h : RecordHandle} {id : TargetId} {k : ConnectionId} {r : Record}

/-! ## Matches -/

/-- An action brings a connection for a record: it is tagged with a name, and the call waits for the
gate of that record. -/
def Brings (w : World) (a : Action) (id : TargetId) (h : RecordHandle) (k : ConnectionId) : Prop :=
  ∃ c p args, a = .complete c p args ∧ args.target = some id ∧ p.id = k ∧
    (w.complete c p args).1.calls.get? c = some (.gated id h)

/-- Who waits at a gate has come with the tag of a record that waited. -/
theorem complete_of_gated {p : PendingConnection} {args : Launch}
    (hcall : (w.complete c p args).1.calls.get? c = some (.gated id h)) :
    args.target = some id ∧ ∃ r, w.registry.session? id = some (h, r) ∧
      r.state = .pendingAcquire ∧
      (w.complete c p args).1.registry = w.registry.revise h (r.matched p.id p.traffic) := by
  rcases w.complete_cases c p args with ⟨id', h', r, htag, -, hs, hstate, heq⟩ | ⟨f, heq⟩
  · rw [heq] at hcall ⊢
    cases Option.some.inj ((Index.get?_insert_self _ _ _).symm.trans hcall)
    exact ⟨htag, r, hs, hstate, rfl⟩
  · rw [heq] at hcall
    cases (get?_finish _ _ _).symm.trans hcall

/-- Only a call to `complete` brings a connection. -/
theorem exists_complete_of_brought {t : Traffic}
    (hb : (Ledger.empty.note w a).brought.get? h = some (k, t)) :
    ∃ c p args id, a = .complete c p args ∧ p.id = k ∧
      (w.complete c p args).1.calls.get? c = some (.gated id h) := by
  unfold Ledger.note at hb
  split at hb
  · next c p args =>
    split at hb
    · next id h' hcall =>
      rcases Index.of_get?_insert_eq_some hb with ⟨rfl, heq⟩ | hb
      · exact ⟨c, p, args, id, rfl, congrArg Prod.fst heq, hcall⟩
      · cases hb
    · cases hb
  · split at hb
    · split at hb <;> cases hb
    · cases hb
  · split at hb
    · rw [Ledger.brought_hear] at hb
      cases hb
    · cases hb
  · cases hb

/-- **A record that gets its connection gets it by a match.** -/
theorem brings_of_isConnected (hk : (w.act a).1.registry.IsConnected h k)
    (hnot : ¬ w.registry.IsConnected h k) : ∃ id, w.Brings a id h k := by
  have hadvance := w.advance_act .empty a
  generalize hl : Ledger.empty.note w a = l' at hadvance
  generalize (w.act a).1 = w' at hadvance hk
  cases hadvance with
  | quiet hreg => rw [hreg] at hk; exact absurd hk hnot
  | registers hreg =>
    obtain ⟨-, rfl, hreg⟩ := Registry.register_eq_ok hreg
    rw [hreg] at hk
    exact absurd (Registry.isConnected_of_enrolled hk) hnot
  | releases ids hreg =>
    rw [hreg] at hk
    exact absurd (Registry.isConnected_of_releaseAll ids hk) hnot
  | @«matches» id connection t h' hmatch _ hb =>
    obtain ⟨r, hs, -, hreg⟩ := Registry.match?_eq_ok hmatch
    rw [hreg] at hk
    obtain ⟨r', hr', hk⟩ := hk
    rw [Registry.record?_revise] at hr'
    split at hr'
    · next hh =>
      subst hh
      obtain rfl := Option.some.inj hr'
      rw [Record.matched, Deferred.resolve, Deferred.settle] at hk
      split at hk
      · exact absurd ⟨r, (Registry.session?_eq_some_iff.mp hs).2, hk⟩ hnot
      · cases hk
        have hbrought : (Ledger.empty.note w a).brought.get? h' = some (k, t) := by
          rw [hl, hb]
          exact Index.get?_insert_self _ _ _
        obtain ⟨c, p, args, id', rfl, hid, hcall⟩ := exists_complete_of_brought hbrought
        exact ⟨id', c, p, args, rfl, (complete_of_gated hcall).1, hid, hcall⟩
    · exact absurd ⟨r', hr', hk⟩ hnot
  | takes hs _ hreg =>
    rw [hreg] at hk
    have hr := (Registry.session?_eq_some_iff.mp hs).2
    refine absurd ((Registry.isConnected_revise hr ?_).mp hk) hnot
    rfl
  | hears _ hreg => rw [hreg] at hk; exact absurd hk hnot
  | ends _ _ hreg => rw [hreg] at hk; exact absurd (Registry.isConnected_of_ready hk) hnot
  | fails _ hreg => rw [hreg] at hk; exact absurd (Registry.isConnected_of_failed hk) hnot

/-! ## Matches in a run -/

/-- A step brings a connection for a record. -/
def BringsAt (w : World) (actions : List Action) (s : Nat) (id : TargetId) (h : RecordHandle)
    (k : ConnectionId) : Prop :=
  ∃ a, actions[s]? = some a ∧ (w.before actions s).Brings a id h k

theorem BringsAt.exists_record (hb : w.BringsAt actions s id h k) :
    ∃ r, (w.before actions s).registry.session? id = some (h, r) ∧ r.state = .pendingAcquire ∧
      ∃ t, (w.before actions (s + 1)).registry.record? h = some (r.matched k t) := by
  obtain ⟨a, hs, c, p, args, rfl, -, rfl, hcall⟩ := hb
  obtain ⟨-, r, hsession, hstate, hregistry⟩ := complete_of_gated hcall
  refine ⟨r, hsession, hstate, p.traffic, ?_⟩
  rw [before_succ hs, act, hregistry, Registry.record?_revise, if_pos rfl]

/-- **Every connection that a record has was brought for it by a step.** -/
theorem exists_bringsAt (hempty : w.registry = .empty)
    (hk : (w.before actions n).registry.IsConnected h k) :
    ∃ s id, s < n ∧ w.BringsAt actions s id h k := by
  induction n with
  | zero =>
    rw [before_zero, hempty] at hk
    obtain ⟨r, hr, -⟩ := hk
    cases hr
  | succ n ih =>
    have hlater : (w.before actions n).registry.IsConnected h k →
        ∃ s id, s < n + 1 ∧ w.BringsAt actions s id h k := by
      intro hk
      obtain ⟨s, id, hsn, hb⟩ := ih hk
      exact ⟨s, id, Nat.lt_succ_of_lt hsn, hb⟩
    cases hn : actions[n]? with
    | none =>
      rw [before_succ_of_none hn] at hk
      exact hlater hk
    | some a =>
      rw [before_succ hn] at hk
      by_cases hk' : (w.before actions n).registry.IsConnected h k
      · exact hlater hk'
      · obtain ⟨id, hb⟩ := brings_of_isConnected hk hk'
        exact ⟨n, id, Nat.lt_succ_self n, a, hn, hb⟩

/-- After a match the record does not wait any more. -/
theorem Upright.not_bringsAt_of_lt (hu : w.Upright) {s' : Nat} {id' : TargetId}
    {k' : ConnectionId} (hss : s < s') (hb : w.BringsAt actions s id h k) :
    ¬ w.BringsAt actions s' id' h k' := by
  intro hb'
  obtain ⟨r, -, -, t, hr⟩ := hb.exists_record
  obtain ⟨r', hr', hlater⟩ := (hu.later_before hss).registry.record h _ hr
  obtain ⟨r'', hsession, hstate, -⟩ := hb'.exists_record
  have hr'' := (Registry.session?_eq_some_iff.mp hsession).2
  rw [hr', Option.some.injEq] at hr''
  exact hlater.state (by simp [Record.matched]) (hr'' ▸ hstate)

/-- **A record is matched once.** -/
theorem Upright.bringsAt_unique (hu : w.Upright) {s' : Nat} {id' : TargetId} {k' : ConnectionId}
    (hb : w.BringsAt actions s id h k) (hb' : w.BringsAt actions s' id' h k') : s' = s := by
  rcases Nat.lt_trichotomy s s' with hss | rfl | hss
  · exact absurd hb' (hu.not_bringsAt_of_lt hss hb)
  · rfl
  · exact absurd hb (hu.not_bringsAt_of_lt hss hb')

/-- A step brings a connection for one record only. -/
theorem BringsAt.record_unique {h' : RecordHandle} {id' : TargetId} {k' : ConnectionId}
    (hb : w.BringsAt actions s id h k) (hb' : w.BringsAt actions s id' h' k') : h' = h := by
  obtain ⟨a, hs, c, p, args, rfl, -, rfl, hcall⟩ := hb
  obtain ⟨a', hs', c', p', args', rfl, -, rfl, hcall'⟩ := hb'
  rw [hs] at hs'
  cases hs'
  rw [hcall] at hcall'
  cases hcall'
  rfl

/-! ## The record of an acquisition -/

/-- The record that a step registers is new. -/
theorem Upright.lt_of_record? (hu : w.Upright)
    (hr : (w.before actions n).registry.record? (w.recordAt actions m) = some r) : m < n := by
  by_contra hnm
  obtain ⟨r', hr', -⟩ := (hu.later_before (Nat.le_of_not_lt hnm)).registry.record _ r hr
  cases hr'.symm.trans (hu.before actions m).registry.record?_next

theorem AcquiresAt.exists_record (hbegins : w.AcquiresAt actions m c target) :
    ∃ r, (w.before actions (m + 1)).registry.record? (w.recordAt actions m) = some r := by
  rw [before_succ hbegins.action, act, registry_acquire_of_free hbegins.free, enroll,
    Registry.record?_enrolled, recordAt, if_pos rfl]
  exact ⟨_, rfl⟩

/-- **No two acquisitions have one record.** -/
theorem AcquiresAt.eq_of_recordAt_eq (hu : w.Upright) {m' : Nat} {c' : CallId}
    {target' : TargetHandle} (hbegins : w.AcquiresAt actions m c target)
    (hbegins' : w.AcquiresAt actions m' c' target')
    (heq : w.recordAt actions m = w.recordAt actions m') : m = m' := by
  obtain ⟨r, hr⟩ := hbegins.exists_record
  obtain ⟨r', hr'⟩ := hbegins'.exists_record
  rw [heq] at hr
  rw [← heq] at hr'
  exact Nat.le_antisymm (Nat.le_of_lt_succ (hu.lt_of_record? hr'))
    (Nat.le_of_lt_succ (hu.lt_of_record? hr))

/-! ## How far an acquisition has come -/

/-- Between two steps a call sends one request and is silent otherwise.  The request is tagged with
the name of the target.  It goes over the connection of the ancestor that was nearest in the
beginning, when this ancestor has got it, or over the root connection at once if there was no such
ancestor. -/
structure Sends (w : World) (actions : List Action) (m n : Nat) (c : CallId)
    (target : TargetHandle) (id : TargetId) (name : String) (q : Nat) (route : ConnectionId) :
    Prop where
  le : m ≤ q
  lt : q < n
  seen : w.seenAt actions q = [.requested c route (startDebugging w.debugType name id)]
  routed : match (w.before actions m).nearest? target with
    | none => q = m ∧ route = w.root
    | some (_, h) => m < q ∧ (w.before actions q).registry.IsConnected h route
  once : ∀ l, m ≤ l → l < n → l ≠ q → ∀ e ∈ w.seenAt actions l, e.call ≠ c

/-- How far a call that was begun by a step has come, if nothing has broken it off. -/
inductive Stage (w : World) (actions : List Action) (m n : Nat) (c : CallId)
    (target : TargetHandle) (id : TargetId) (name : String) : Prop
  | awaits {ancestor : TargetHandle} {h : RecordHandle}
      (hnearest : (w.before actions m).nearest? target = some (ancestor, h))
      (hcall : (w.before actions n).calls.get? c =
        some (.awaitingAncestor target (w.recordAt actions m) ancestor h))
      (hsilent : ∀ l, m ≤ l → l < n → ∀ e ∈ w.seenAt actions l, e.call ≠ c)
  | sent {q : Nat} {route : ConnectionId}
      (hsends : w.Sends actions m n c target id name q route)
      {call : Call} (hcall : (w.before actions n).calls.get? c = some call)
      (hkind : (∃ route, call = .requesting target (w.recordAt actions m) route) ∨
        call = .expecting target (w.recordAt actions m))
  | ended (hcall : (w.before actions n).calls.get? c = none)

variable {name : String} {q : Nat} {route : ConnectionId}

theorem Sends.succ (hsends : w.Sends actions m n c target id name q route)
    (hn : ∀ e ∈ w.seenAt actions n, e.call ≠ c) :
    w.Sends actions m (n + 1) c target id name q route := by
  refine ⟨hsends.le, Nat.lt_succ_of_lt hsends.lt, hsends.seen, hsends.routed,
    fun l hml hln hlq => ?_⟩
  rcases Nat.lt_succ_iff_lt_or_eq.mp hln with hln | rfl
  · exact hsends.once l hml hln hlq
  · exact hn

/-- What a step of a run does to an acquisition, if it does not put an end to it. -/
theorem proceeds_before_succ (hcall : (w.before actions n).calls.get? c = some call)
    (hacquires : call.acquires? = some (target, own))
    (hstays : ∀ a, actions[n]? = some a → a.displaced? ≠ some c) :
    (w.before actions n).Proceeds c call target own
      (w.before actions (n + 1), w.seenAt actions n) := by
  cases hn : actions[n]? with
  | none =>
    rw [before_succ_of_none hn, seenAt, hn]
    exact .stays hcall fun _ he => absurd he List.not_mem_nil
  | some a =>
    rw [before_succ hn, seenAt_of_getElem? hn]
    exact proceeds_act hcall hacquires (hstays a hn)

/-- A call that has ended does nothing. -/
theorem get?_calls_before_succ_of_none (hcall : (w.before actions n).calls.get? c = none)
    (hstays : ∀ a, actions[n]? = some a → a.displaced? ≠ some c) :
    (w.before actions (n + 1)).calls.get? c = none := by
  cases hn : actions[n]? with
  | none => rwa [before_succ_of_none hn]
  | some a =>
    rw [before_succ hn]
    by_cases ha : a.call? = some c
    · rcases Action.eq_resume_or_answer ha (hstays a hn) with rfl | ⟨reply, rfl⟩
      · rwa [act, resume_of_none hcall]
      · rwa [act, answer_of_none hcall]
    · exact (get?_calls_act ha).trans hcall

/-- The request of an acquisition that is under way. -/
theorem request_eq_of_label? (hu : w.Upright) (hmn : m ≤ n)
    (hlabel : (w.before actions m).tree.label? target = some (id, name)) :
    (w.before actions n).demand target = startDebugging w.debugType name id := by
  rw [demand_of_label? ((hu.later_before hmn).label _ _ hlabel), debugType_before]

/-- An acquisition begins. -/
theorem AcquiresAt.stage (hbegins : w.AcquiresAt actions m c target) (hu : w.Upright)
    (hlabel : (w.before actions m).tree.label? target = some (id, name)) :
    w.Stage actions m (m + 1) c target id name := by
  have hseen : w.seenAt actions m = ((w.before actions m).acquire c target).2 :=
    seenAt_of_getElem? hbegins.action
  have hnext : w.before actions (m + 1) = ((w.before actions m).acquire c target).1 :=
    before_succ hbegins.action
  rcases acquire_cases (hu.before actions m) hbegins.free c with
    ⟨ancestor, h, hnearest, heq⟩ | ⟨hnearest, heq⟩
  · rw [heq] at hseen hnext
    refine .awaits hnearest ?_ fun l hml hlm => ?_
    · rw [hnext]
      exact Index.get?_insert_self _ _ _
    · obtain rfl := Nat.le_antisymm hml (Nat.le_of_lt_succ hlm)
      rw [hseen]
      exact fun _ he => absurd he List.not_mem_nil
  · rw [heq] at hseen hnext
    have hrequest := request_eq_of_label? hu (Nat.le_refl m) hlabel
    have hsends : w.Sends actions m (m + 1) c target id name m w.root := by
      refine ⟨Nat.le_refl m, Nat.lt_succ_self m, ?_, ?_, fun l hml hlm hne => ?_⟩
      · rw [hseen, ← hrequest, root_before]
        rfl
      · rw [hnearest]
        exact ⟨rfl, rfl⟩
      · exact absurd (Nat.le_antisymm (Nat.le_of_lt_succ hlm) hml) hne
    refine .sent hsends ?_ (Or.inl ⟨(w.before actions m).root, rfl⟩)
    rw [hnext]
    exact Index.get?_insert_self _ _ _

/-- **An acquisition comes one stage further, or ends.** -/
theorem Stage.succ (hu : w.Upright)
    (hlabel : (w.before actions m).tree.label? target = some (id, name)) (hmn : m < n)
    (hstage : w.Stage actions m n c target id name)
    (hstays : ∀ a, actions[n]? = some a → a.displaced? ≠ some c) :
    w.Stage actions m (n + 1) c target id name := by
  cases hstage with
  | awaits hnearest hcall hsilent =>
    have hproceeds := proceeds_before_succ hcall rfl hstays
    generalize hnext : w.before actions (n + 1) = w' at hproceeds
    generalize hseen : w.seenAt actions n = seen at hproceeds
    cases hproceeds with
    | stays hcalls hquiet =>
      refine .awaits hnearest (hnext ▸ hcalls) fun l hml hln => ?_
      rcases Nat.lt_succ_iff_lt_or_eq.mp hln with hln | rfl
      · exact hsilent l hml hln
      · exact hseen ▸ hquiet
    | @routed ancestor h route hh hroute =>
      cases hh
      have hsends : w.Sends actions m (n + 1) c target id name n route := by
        refine ⟨Nat.le_of_lt hmn, Nat.lt_succ_self n, ?_, ?_, fun l hml hln hne => ?_⟩
        · rw [hseen, ← request_eq_of_label? hu (Nat.le_of_lt hmn) hlabel]
          rfl
        · rw [hnearest]
          exact ⟨hmn, hroute⟩
        · exact hsilent l hml (Nat.lt_of_le_of_ne (Nat.le_of_lt_succ hln) hne)
      refine .sent hsends ?_ (Or.inl ⟨route, rfl⟩)
      rw [hnext]
      exact Index.get?_insert_self _ _ _
    | taken hh => cases hh
    | connected hh => cases hh
    | fails f hcalls => exact .ended (hnext ▸ hcalls)
  | @sent q route hsends call hcall hkind =>
    have hacquires : call.acquires? = some (target, w.recordAt actions m) := by
      rcases hkind with ⟨route, rfl⟩ | rfl <;> rfl
    have hproceeds := proceeds_before_succ hcall hacquires hstays
    generalize hnext : w.before actions (n + 1) = w' at hproceeds
    generalize hseen : w.seenAt actions n = seen at hproceeds
    cases hproceeds with
    | stays hcalls hquiet =>
      exact .sent (hsends.succ (hseen ▸ hquiet)) (hnext ▸ hcalls) hkind
    | routed hh =>
      subst hh
      rcases hkind with ⟨route, hh⟩ | hh <;> cases hh
    | taken =>
      refine .sent (hsends.succ fun e he => ?_) ?_ (Or.inr rfl)
      · rw [hseen] at he
        cases he
      · rw [hnext]
        exact Index.get?_insert_self _ _ _
    | connected =>
      refine .ended ?_
      rw [hnext]
      exact Index.get?_erase_self _ _
    | fails f hcalls => exact .ended (hnext ▸ hcalls)
  | ended hcall => exact .ended (get?_calls_before_succ_of_none hcall hstays)

/-- How far an acquisition has come before a later step, if it was not broken off. -/
theorem AcquiresAt.stage_of_lt (hbegins : w.AcquiresAt actions m c target) (hu : w.Upright)
    (hlabel : (w.before actions m).tree.label? target = some (id, name)) (hmn : m < n)
    (hstays : Undisturbed actions c (m + 1) n) : w.Stage actions m n c target id name := by
  induction hmn with
  | refl => exact hbegins.stage hu hlabel
  | @step n hmn ih =>
    have hstage := ih fun k a hk hkn => hstays k a hk (Nat.lt_succ_of_lt hkn)
    exact hstage.succ hu hlabel hmn fun a hn => hstays n a hmn (Nat.lt_succ_self n) hn

/-- A call that returns a connection was under way, and the record that it waited for has got it. -/
theorem Upright.exists_of_connected (hu : w.Upright)
    (he : .finished c (.ok (.connected k)) ∈ w.seenAt actions n) :
    ∃ h, (w.before actions n).registry.IsConnected h k ∧
      ((∃ target, (w.before actions n).calls.get? c = some (.expecting target h)) ∨
        ∃ id, (w.before actions n).calls.get? c = some (.listening id h)) := by
  obtain ⟨a, -, he⟩ := exists_of_mem_seenAt he
  have hcause := cause_of_mem_act (hu.before actions n) he
  cases hcause with
  | connected _ hcall hk => exact ⟨_, hk, hcall⟩

/-- A call that finds its target's name taken ends at once. -/
theorem seenAt_of_taken (hm : actions[m]? = some (.acquire c target))
    (htaken : (w.before actions m).registry.sessions.get? ((w.before actions m).tree.idOf target) ≠
      none) :
    w.seenAt actions m =
        [.finished c (.error (.duplicateTarget ((w.before actions m).tree.idOf target)))] ∧
      (w.before actions (m + 1)).registry = (w.before actions m).registry ∧
      (w.before actions (m + 1)).calls.get? c = none := by
  rw [seenAt_of_getElem? hm, before_succ hm, act, acquire_of_taken htaken]
  exact ⟨rfl, rfl, Index.get?_erase_self _ _⟩

/-- What has ended stays so, unless another call gets its name. -/
theorem get?_calls_of_undisturbed (hmn : m ≤ n) (hstays : Undisturbed actions c m n)
    (hcall : (w.before actions m).calls.get? c = none) :
    (w.before actions n).calls.get? c = none := by
  induction hmn with
  | refl => exact hcall
  | @step n hmn ih =>
    refine get?_calls_before_succ_of_none (ih fun k a hk hkn => ?_) fun a hn => ?_
    · exact hstays k a hk (Nat.lt_succ_of_lt hkn)
    · exact hstays n a hmn (Nat.lt_succ_self n) hn

/-- **What a session that has come has gone through.** -/
theorem Upright.acquired (hu : w.Upright) (hempty : w.registry = .empty)
    (hm : actions[m]? = some (.acquire c target))
    (hlabel : (w.before actions m).tree.label? target = some (id, name)) (hmn : m < n)
    (hstays : Undisturbed actions c (m + 1) n)
    (he : .finished c (.ok (.connected k)) ∈ w.seenAt actions n) :
    w.AcquiresAt actions m c target ∧
      (∃ s, m < s ∧ s < n ∧ w.BringsAt actions s id (w.recordAt actions m) k) ∧
      ∃ q route, w.Sends actions m n c target id name q route := by
  obtain ⟨h, hk, hcall⟩ := hu.exists_of_connected he
  have hfree : (w.before actions m).registry.sessions.get?
      ((w.before actions m).tree.idOf target) = none := by
    by_contra htaken
    have hnone := get?_calls_of_undisturbed hmn hstays (seenAt_of_taken hm htaken).2.2
    rw [hnone] at hcall
    rcases hcall with ⟨target, hcall⟩ | ⟨id, hcall⟩ <;> cases hcall
  have hbegins : w.AcquiresAt actions m c target := ⟨hm, hfree⟩
  cases hbegins.stage_of_lt hu hlabel hmn hstays with
  | awaits _ hcall' =>
    rw [hcall'] at hcall
    rcases hcall with ⟨target, hcall⟩ | ⟨id, hcall⟩ <;> cases hcall
  | ended hcall' =>
    rw [hcall'] at hcall
    rcases hcall with ⟨target, hcall⟩ | ⟨id, hcall⟩ <;> cases hcall
  | sent hsends hcall' hkind =>
    have hown : h = w.recordAt actions m := by
      rw [hcall'] at hcall
      rcases hkind with ⟨route, rfl⟩ | rfl <;>
        rcases hcall with ⟨target, hcall⟩ | ⟨id, hcall⟩ <;> cases hcall
      rfl
    subst hown
    obtain ⟨s, id', hsn, hb⟩ := exists_bringsAt hempty hk
    obtain ⟨r, hsession, -, -⟩ := hb.exists_record
    obtain ⟨hsid, hr⟩ := Registry.session?_eq_some_iff.mp hsession
    have hms := hu.lt_of_record? hr
    have hid : id' = id := by
      have hfresh := (Registry.session?_eq_some_iff.mp (hbegins.session?_succ hlabel)).2
      obtain ⟨r', hr', hlater⟩ := (hu.later_before hms).registry.record _ _ hfresh
      obtain ⟨r'', hr'', hname⟩ := (hu.before actions s).registry.named id' _ hsid
      rw [hr', Option.some.injEq] at hr''
      rw [← hname, ← hr'', hlater.id]
      rfl
    exact ⟨hbegins, ⟨s, hms, hsn, hid ▸ hb⟩, _, _, hsends⟩

end World

/-- **Whose connection it is.**  A call to `acquire` that returns a connection found its target's
name free and registered a record.  The connection is the one that was brought, with the target's
tag, for that very record, by the only match that the record ever has; and the call has sent exactly
one request for its target, over the connection of the ancestor that was nearest in the beginning,
once that ancestor had got it, or over the root connection if there was none.

No match is for the records of two calls.  A call that finds its target's name taken is told so.  A
connection that is brought without a tag, before the editor has introduced itself, for an unknown
name, or for a record that does not wait is refused; and one that is refused changes no record. -/
theorem acquired_spec (root : ConnectionId) (debugType : String) (actions : List Action) :
    let w := World.start root debugType
    (∀ m n c target id name k, actions[m]? = some (.acquire c target) →
      (w.before actions m).tree.label? target = some (id, name) → m < n →
      World.Undisturbed actions c (m + 1) n →
      .finished c (.ok (.connected k)) ∈ w.seenAt actions n →
        w.AcquiresAt actions m c target ∧
        (∃ s, m < s ∧ s < n ∧ w.BringsAt actions s id (w.recordAt actions m) k ∧
          ∀ s' id' k', w.BringsAt actions s' id' (w.recordAt actions m) k' → s' = s) ∧
        ∃ q route, w.Sends actions m n c target id name q route) ∧
    (∀ m m' c c' target target' s id id' k k', w.AcquiresAt actions m c target →
      w.AcquiresAt actions m' c' target' → w.BringsAt actions s id (w.recordAt actions m) k →
      w.BringsAt actions s id' (w.recordAt actions m') k' → m = m') ∧
    (∀ m c target, actions[m]? = some (.acquire c target) →
      (w.before actions m).registry.sessions.get? ((w.before actions m).tree.idOf target) ≠ none →
        w.seenAt actions m =
          [.finished c (.error (.duplicateTarget ((w.before actions m).tree.idOf target)))] ∧
        (w.before actions (m + 1)).registry = (w.before actions m).registry) ∧
    ∀ s c p args, actions[s]? = some (.complete c p args) →
      ((args.target = none ∨ p.traffic.introduction = none ∨
          (∃ id, args.target = some id ∧ (w.before actions s).registry.session? id = none) ∨
          ∃ id h r, args.target = some id ∧
            (w.before actions s).registry.session? id = some (h, r) ∧ r.state ≠ .pendingAcquire) →
        ∃ f, w.seenAt actions s = [.finished c (.error f)]) ∧
      ∀ f, .finished c (.error f) ∈ w.seenAt actions s →
        (w.before actions (s + 1)).registry = (w.before actions s).registry := by
  intro w
  have hu := World.upright_start root debugType
  refine ⟨fun m n c target id name k hm hlabel hmn hstays he => ?_,
    fun m m' c c' target target' s id id' k k' hbegins hbegins' hb hb' => ?_,
    fun m c target hm htaken => ?_, fun s c p args hs => ?_⟩
  · obtain ⟨hbegins, ⟨s, hms, hsn, hb⟩, hsends⟩ := hu.acquired rfl hm hlabel hmn hstays he
    exact ⟨hbegins, ⟨s, hms, hsn, hb, fun s' id' k' hb' => hu.bringsAt_unique hb hb'⟩, hsends⟩
  · exact hbegins.eq_of_recordAt_eq hu hbegins' (hb'.record_unique hb)
  · obtain ⟨hseen, hregistry, -⟩ := World.seenAt_of_taken hm htaken
    exact ⟨hseen, hregistry⟩
  · rw [World.seenAt_of_getElem? hs, World.before_succ hs, World.act]
    rcases (w.before actions s).complete_cases c p args with
      ⟨id, h, r, htag, hintroduced, hsession, hstate, heq⟩ | ⟨f, heq⟩
    · rw [heq]
      refine ⟨fun hrefused => ?_, fun f he => absurd he List.not_mem_nil⟩
      rcases hrefused with hnone | hnone | ⟨id', htag', hnone⟩ | ⟨id', h', r', htag', hs', hstate'⟩
      · rw [htag] at hnone
        cases hnone
      · rw [hnone] at hintroduced
        cases hintroduced
      · rw [htag] at htag'
        cases htag'
        rw [hsession] at hnone
        cases hnone
      · rw [htag] at htag'
        cases htag'
        rw [hsession] at hs'
        cases hs'
        exact absurd hstate hstate'
    · rw [heq]
      exact ⟨fun _ => ⟨f, rfl⟩, fun _ _ => rfl⟩

/-- A target is asked for, then its child, which waits for it; then the connection of the target is
brought, and the one of the child. -/
def nested : List Action :=
  [.addTarget ⟨"p"⟩ "p.js" .node none, .addTarget ⟨"c"⟩ "c.js" .childProcess (some ⟨"p"⟩),
    .acquire ⟨"parent"⟩ ⟨0⟩, .answer ⟨"parent"⟩ (.ok ()),
    .acquire ⟨"child"⟩ ⟨1⟩,
    .complete ⟨"first"⟩ (introducedBy ⟨"k"⟩) ⟨some ⟨"p"⟩, .empty⟩,
    .resume ⟨"child"⟩, .answer ⟨"child"⟩ (.ok ()),
    .complete ⟨"second"⟩ (introducedBy ⟨"l"⟩) ⟨some ⟨"c"⟩, .empty⟩, .resume ⟨"child"⟩]

/-- The child of a target gets its own connection, for one request. -/
theorem acquired_spec_nested :
    let w := World.start ⟨"root"⟩ "node"
    .finished ⟨"child"⟩ (.ok (.connected ⟨"l"⟩)) ∈ w.seenAt nested 9 ∧
    (∃ s, 4 < s ∧ s < 9 ∧ w.BringsAt nested s ⟨"c"⟩ (w.recordAt nested 4) ⟨"l"⟩) ∧
    ∃ q route, w.Sends nested 4 9 ⟨"child"⟩ ⟨1⟩ ⟨"c"⟩ "c.js" q route := by
  intro w
  have hlabel : (w.before nested 4).tree.label? ⟨1⟩ = some (⟨"c"⟩, "c.js") := by cbv
  have hseen : w.seenAt nested 9 = [.finished ⟨"child"⟩ (.ok (.connected ⟨"l"⟩))] := by cbv
  have hreturns : .finished ⟨"child"⟩ (.ok (.connected ⟨"l"⟩)) ∈ w.seenAt nested 9 := by
    rw [hseen]
    exact List.mem_singleton_self _
  have hstays : World.Undisturbed nested ⟨"child"⟩ (4 + 1) 9 := by
    intro k a hk hk' ha
    interval_cases k <;> cases ha <;> decide
  obtain ⟨-, ⟨s, hs, hs', hb, -⟩, hsends⟩ := (acquired_spec ⟨"root"⟩ "node" nested).1 4 9 _ _ _ _ _
    rfl hlabel (by decide) hstays hreturns
  exact ⟨hreturns, ⟨s, hs, hs', hb⟩, hsends⟩

end Session
end DebugTree
