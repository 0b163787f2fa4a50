import DebugTree.Proofs.Session.Collecting
import DebugTree.Proofs.Session.Replays
import DebugTree.Proofs.Session.Revisions

/-!
# From the editor to the adapter

What an editor has said on a connection goes through two hands before an adapter hears it.  A call
to `complete` puts it into the record that the connection is for, and waits at the gate of that
record; the first replay that goes by the record's name takes it out again and tells it
(`World.Handshake`).  The adapter hears it with the numbers that the editor was given, up to the
first thing that it refuses.

What becomes of the record, and what the waiting call is told, ought to follow from how that replay
ends (`World.AsDue`).  But these go by the gate of the record, and a gate can be settled by any
replay that goes by the same name: by one that was begun for an earlier record of that name, in
particular (`World.Interferes`).  So they follow from how the replay ends exactly as long as nobody
interferes (`handshake_iff`), and what is lost otherwise is the answer of the adapter
(`overtaken_handshake`).
-/

namespace DebugTree
namespace Session

open Protocol

/-! ## What a replay comes to -/

/-- The state of a record, by what the replay of its traffic has come to. -/
def stateAfter : Option (Except Fault Outcome) → SessionState
  | some (.ok _) => .initialized
  | _ => .matched

/-- The gate of a record, by what the replay of its traffic has come to. -/
def gateAfter : Option (Except Fault Outcome) → Deferred Unit
  | none => .pending
  | some (.ok _) => (Deferred.pending.resolve ()).2
  | some (.error f) => (Deferred.pending.reject f.message).2

/-- What the call that has brought a connection is told, by what the replay ends with. -/
def verdict (id : TargetId) : Except Fault Outcome → Except Fault Outcome
  | .ok _ => .ok .completed
  | .error f => .error (.sessionRejected id f.message)

/-- A record is initialized and its gate is settled as the replay of its traffic says. -/
structure Record.Agrees (r : Record) (result : Option (Except Fault Outcome)) : Prop where
  state : r.state = .initialized ↔ stateAfter result = .initialized
  gate : r.gate = gateAfter result

namespace Record

variable {r r' : Record} {result : Option (Except Fault Outcome)}

theorem Agrees.state_eq (hagrees : r.Agrees result) (hstate : r.state ≠ .pendingAcquire) :
    r.state = stateAfter result := by
  have hiff := hagrees.state
  cases hr : r.state with
  | pendingAcquire => exact absurd hr hstate
  | initialized => exact (hiff.mp hr).symm
  | matched =>
    rw [hr] at hiff
    cases result with
    | none => rfl
    | some x =>
      cases x with
      | error f => rfl
      | ok o => cases hiff.mpr rfl

theorem Agrees.isSettled (hagrees : r.Agrees result) (hstate : r.state = .initialized) :
    r.gate.isSettled = true := by
  have hinit := hagrees.state.mp hstate
  rw [hagrees.gate]
  cases result with
  | none => cases hinit
  | some x => cases x <;> rfl

theorem agrees_fresh (target : TargetHandle) (id : TargetId) (name : String) :
    (fresh target id name).Agrees none where
  state := iff_of_false SessionState.noConfusion SessionState.noConfusion
  gate := rfl

theorem Agrees.ready (hagrees : r.Agrees none) (o : Outcome) : r.ready.Agrees (some (.ok o)) where
  state := ⟨fun _ => rfl, fun _ => rfl⟩
  gate := congrArg (fun d => (Deferred.resolve d ()).2) hagrees.gate

theorem Agrees.failed (hagrees : r.Agrees none) (f : Fault) :
    (r.failed f.message).Agrees (some (.error f)) where
  state := hagrees.state
  gate := congrArg (fun d => (Deferred.reject d f.message).2) hagrees.gate

/-- A record that nobody settles agrees with what it agreed with before. -/
theorem Agrees.revised {w : World} {a : Action} {h : RecordHandle} (hagrees : r.Agrees result)
    (hrevised : w.Revised a h r r') (hnone : ∀ d, ¬ w.Settles d h a) : r'.Agrees result := by
  rcases hrevised.eq_or_settles hagrees.isSettled with ⟨hgate, hstate⟩ | ⟨d, hsettles⟩
  · exact ⟨hstate.trans hagrees.state, hgate.trans hagrees.gate⟩
  · exact absurd hsettles (hnone d)

end Record

namespace World

variable {w : World} {actions : List Action} {m n N M : Nat} {c b : CallId} {a : Action}
  {p : PendingConnection} {target : TargetHandle} {id : TargetId} {h : RecordHandle}
  {r r' : Record}

/-- Who waits at the gate of a record goes on when the replay has ended, and is told how. -/
theorem resume_gated {result : Option (Except Fault Outcome)}
    (hcall : w.calls.get? c = some (.gated id h)) (hr : w.registry.record? h = some r)
    (hgate : r.gate = gateAfter result) :
    w.resume c = result.elim (w, []) fun x => w.finish c (verdict id x) := by
  simp only [resume, hcall, hr, Option.bind_some, hgate]
  cases result with
  | none => rfl
  | some x => cases x <;> rfl

/-! ## Who hands over to whom -/

/-- The traffic of a connection goes from hand to hand.  The connection has taken a terminal request
with the tag of a target; with step `m` the call `c` brings it for the record `h` of that target,
which waits for its connection.  With step `n` the call `b` begins a replay for the target, and
nobody has begun one in between. -/
structure Handshake (w : World) (actions : List Action) (m n : Nat) (c b : CallId)
    (p : PendingConnection) (id : TargetId) (h : RecordHandle) (target : TargetHandle) : Prop where
  completes : ∃ kind args, (p.collect (.launch kind args)).1 = .ok (.terminal kind args) ∧
    args.target = some id ∧ actions[m]? = some (.complete c p args)
  expected : ∃ r, (w.before actions m).registry.session? id = some (h, r) ∧
    r.state = .pendingAcquire
  replays : actions[n]? = some (.replay b target)
  known : ∃ name, (w.before actions n).tree.label? target = some (id, name)
  lt : m < n
  first : ∀ l d target', m < l → l < n → actions[l]? = some (.replay d target') →
    (w.before actions l).tree.idOf target' ≠ id

/-- A connection takes a terminal request only if the editor has introduced itself. -/
theorem introduced_of_collect {kind : LaunchKind} {args : Launch}
    (haccepted : (p.collect (.launch kind args)).1 = .ok (.terminal kind args)) :
    p.traffic.introduction.isNone = false := by
  rw [PendingConnection.collect] at haccepted
  split at haccepted
  · cases haccepted
  · next hintroduced => exact Bool.eq_false_iff.mpr hintroduced

/-- A connection is taken by the record that waits for it. -/
theorem complete_of_pendingAcquire {args : Launch} (htag : args.target = some id)
    (hintroduced : p.traffic.introduction.isNone = false)
    (hs : w.registry.session? id = some (h, r)) (hstate : r.state = .pendingAcquire) :
    w.complete c p args =
      (({ w with registry := w.registry.revise h (r.matched p.id p.traffic) } : World).suspend c
        (.gated id h), []) := by
  simp only [complete, htag, hintroduced, Registry.match?, hs, hstate, if_true, Bool.false_eq_true,
    if_false]
  rfl

/-- A record that is registered later, and exists already, is registered already. -/
theorem Upright.isRegistered_of_le (hu : w.Upright) (hNM : N ≤ M)
    (hr : (w.before actions N).registry.record? h = some r)
    (hM : (w.before actions M).registry.IsRegistered h) :
    (w.before actions N).registry.IsRegistered h :=
  (hu.later_before hNM).registry.gone h r hr hM

/-- What a step of a run can do to a record that stays registered. -/
theorem Upright.revised_before_succ (hu : w.Upright)
    (hr : (w.before actions N).registry.record? h = some r)
    (hstays : (w.before actions (N + 1)).registry.IsRegistered h) :
    ∃ r', (w.before actions (N + 1)).registry.record? h = some r' ∧
      (r' = r ∨ ∃ a, actions[N]? = some a ∧ (w.before actions N).Revised a h r r') := by
  cases hN : actions[N]? with
  | none => exact ⟨r, by rw [before_succ_of_none hN, hr], Or.inl rfl⟩
  | some a =>
    rw [before_succ hN] at hstays ⊢
    obtain ⟨r', hr', hrevised⟩ := revised_act (hu.before actions N).registry hr hstays
    exact ⟨r', hr', Or.inr ⟨a, rfl, hrevised⟩⟩

/-- Whoever settles a record has done something. -/
theorem Settles.not_idleAt (hN : actions[N]? = some a)
    (hsettles : (w.before actions N).Settles c h a) : ¬ w.IdleAt actions N c := by
  intro hidle
  obtain ⟨reply, target, what, rest, r, rfl, hcall, -, hopen⟩ := hsettles
  have hended := hidle.calls
  rw [before_succ hN, act, hcall] at hended
  cases reply with
  | error f =>
    rw [answer_replaying_error hcall, get?_finish] at hended
    cases hended
  | ok =>
    obtain ⟨rfl, -⟩ := hopen
    rw [answer_replaying_ok hcall, ask, get?_finish] at hended
    cases hended

/-- What a call has ended with does not change. -/
theorem result?_heard_succ {x : Except Fault Outcome}
    (hx : result? c (w.heard actions n N) = some x) :
    result? c (w.heard actions n (N + 1)) = some x := by
  rcases Nat.lt_or_ge N n with hNn | hnN
  · rw [heard_of_le (Nat.le_of_lt hNn)] at hx
    cases hx
  · rw [heard_succ hnN, result?_append, hx, Option.some_or]

/-! ## Who interferes -/

/-- A step interferes: a replay settles the record, and it is not the one by the call `b` that has
begun with step `n`. -/
def Interferes (w : World) (actions : List Action) (n i : Nat) (b : CallId) (h : RecordHandle) :
    Prop :=
  ∃ a d, actions[i]? = some a ∧ (w.before actions i).Settles d h a ∧ (n < i → d ≠ b)

/-- All is as the replay says: the state of the record and its gate, what the call that has brought
the connection would be told, and what it has been told. -/
structure AsDue (w : World) (actions : List Action) (m n N : Nat) (c b : CallId) (id : TargetId)
    (h : RecordHandle) : Prop where
  record : ∃ r, (w.before actions N).registry.session? id = some (h, r) ∧
    r.state = stateAfter (result? b (w.heard actions n N)) ∧
    r.gate = gateAfter (result? b (w.heard actions n N))
  waits : result? c (w.heard actions m N) = none →
    ((w.before actions N).resume c).2 =
      ((result? b (w.heard actions n N)).map fun x => Event.finished c (verdict id x)).toList
  returned : ∀ x, result? c (w.heard actions m N) = some x →
    (result? b (w.heard actions n N)).map (verdict id) = some x

/-- The call that has brought a connection waits at the gate of the record, or it has been told how
the replay has ended. -/
inductive Gated (w : World) (actions : List Action) (m n N : Nat) (c b : CallId) (id : TargetId)
    (h : RecordHandle) : Prop
  | waits (hcall : (w.before actions N).calls.get? c = some (.gated id h))
      (hresult : result? c (w.heard actions m N) = none)
  | told (hcall : (w.before actions N).calls.get? c = none) {x : Except Fault Outcome}
      (hx : result? b (w.heard actions n N) = some x)
      (hresult : result? c (w.heard actions m N) = some (verdict id x))

theorem Gated.idle (hgated : w.Gated actions m n N c b id h) (hmN : m ≤ N)
    (hidle : w.IdleAt actions N c) : w.Gated actions m n (N + 1) c b id h := by
  have hresult' := hidle.result?_heard hmN
  cases hgated with
  | waits hcall hresult => exact .waits (hidle.calls.trans hcall) (hresult'.trans hresult)
  | told hcall hx hresult =>
    exact .told (hidle.calls.trans hcall) (result?_heard_succ hx) (hresult'.trans hresult)

namespace Handshake

variable (hs : w.Handshake actions m n c b p id h target) (hu : w.Upright)

include hs hu

/-- The target keeps its name. -/
theorem idOf_eq (hnN : n ≤ N) : (w.before actions N).tree.idOf target = id := by
  obtain ⟨name, hlabel⟩ := hs.known
  have hlater := (hu.later_before hnN).label _ _ hlabel
  obtain ⟨x, hx, heq⟩ := Option.map_eq_some_iff.mp hlater
  exact (TargetTree.idOf_of_target? hx).trans (congrArg Prod.fst heq)

/-- The record has the name of the target at all times. -/
theorem id_eq (hr : (w.before actions N).registry.record? h = some r) : r.id = id := by
  obtain ⟨r₁, hsession, -⟩ := hs.expected
  obtain ⟨hid, hr₁⟩ := Registry.session?_eq_some_iff.mp hsession
  obtain ⟨r₂, hr₂, hname⟩ := (hu.before actions m).registry.named id h hid
  obtain rfl : r₁ = r₂ := Option.some.inj (hr₁.symm.trans hr₂)
  rcases Nat.le_total N m with hNm | hmN
  · obtain ⟨r', hr', hlater⟩ := (hu.later_before hNm).registry.record h r hr
    obtain rfl : r₁ = r' := Option.some.inj (hr₁.symm.trans hr')
    exact hlater.id.symm.trans hname
  · obtain ⟨r', hr', hlater⟩ := (hu.later_before hmN).registry.record h r₁ hr₁
    obtain rfl : r = r' := Option.some.inj (hr.symm.trans hr')
    exact hlater.id.trans hname

/-- As long as the record is registered it is found under the name of the target. -/
theorem session?_eq (hM : (w.before actions M).registry.IsRegistered h) (hNM : N ≤ M)
    (hr : (w.before actions N).registry.record? h = some r) :
    (w.before actions N).registry.session? id = some (h, r) := by
  have hreg := hu.isRegistered_of_le hNM hr hM
  have hid := ((hu.before actions N).registry.isRegistered_iff hr).mp hreg
  exact Registry.session?_eq_some_iff.mpr ⟨hs.id_eq hu hr ▸ hid, hr⟩

omit hu in
/-- The record has got its connection, and the call waits at its gate. -/
theorem matched_succ : ∃ r, (w.before actions (m + 1)).registry.record? h = some r ∧
    r.state = .matched ∧ r.traffic = some p.traffic ∧
    (w.before actions (m + 1)).calls.get? c = some (.gated id h) ∧ w.seenAt actions m = [] := by
  obtain ⟨kind, args, haccepted, htag, hm⟩ := hs.completes
  obtain ⟨r, hsession, hstate⟩ := hs.expected
  have hcomplete := complete_of_pendingAcquire (c := c) htag (introduced_of_collect haccepted)
    hsession hstate
  rw [before_succ hm, seenAt_of_getElem? hm, act, hcomplete]
  exact ⟨r.matched p.id p.traffic, Index.get?_insert_self _ _ _, rfl, rfl,
    Index.get?_insert_self _ _ _, rfl⟩

theorem exists_record (hmN : m < N) : ∃ r, (w.before actions N).registry.record? h = some r ∧
    r.state ≠ .pendingAcquire := by
  obtain ⟨r, hr, hstate, -⟩ := hs.matched_succ
  obtain ⟨r', hr', hlater⟩ := (hu.later_before hmN).registry.record h r hr
  exact ⟨r', hr', hlater.state (by rw [hstate]; exact SessionState.noConfusion)⟩

/-- The record keeps the traffic of the connection for the replay. -/
theorem traffic_eq (hM : (w.before actions M).registry.IsRegistered h) (hnM : n ≤ M) (hmN : m < N)
    (hNn : N ≤ n) : ∃ r, (w.before actions N).registry.record? h = some r ∧
      r.state ≠ .pendingAcquire ∧ r.traffic = some p.traffic := by
  induction hmN with
  | refl =>
    obtain ⟨r, hr, hstate, htraffic, -⟩ := hs.matched_succ
    exact ⟨r, hr, by rw [hstate]; exact SessionState.noConfusion, htraffic⟩
  | @step N hmN ih =>
    obtain ⟨r, hr, hstate, htraffic⟩ := ih (Nat.le_of_succ_le hNn)
    obtain ⟨r₁, hr₁, hstate₁⟩ := hs.exists_record hu (Nat.lt_succ_of_lt hmN)
    have hreg := hu.isRegistered_of_le (Nat.le_trans hNn hnM) hr₁ hM
    obtain ⟨r', hr', hrevised⟩ := hu.revised_before_succ hr hreg
    obtain rfl : r₁ = r' := Option.some.inj (hr₁.symm.trans hr')
    refine ⟨r₁, hr₁, hstate₁, ?_⟩
    rcases hrevised with rfl | ⟨a, hN, hrevised⟩
    · exact htraffic
    · rw [hrevised.traffic_eq hstate fun d target' haction hsession => ?_, htraffic]
      obtain ⟨r₂, hr₂, hname⟩ := (hu.before actions N).registry.named _ h
        (Registry.session?_eq_some_iff.mp hsession).1
      obtain rfl : r = r₂ := Option.some.inj (hr.symm.trans hr₂)
      exact hs.first N d target' hmN hNn (haction ▸ hN) (hname.symm.trans (hs.id_eq hu hr))

/-- The replay takes the traffic, and nobody finds any afterwards. -/
theorem traffic_eq_none (hM : (w.before actions M).registry.IsRegistered h) (hnN : n < N)
    (hNM : N ≤ M) : ∃ r, (w.before actions N).registry.record? h = some r ∧
      r.state ≠ .pendingAcquire ∧ r.traffic = none := by
  induction hnN with
  | refl =>
    have hnM := Nat.le_of_succ_le hNM
    obtain ⟨r, hr, hstate, htraffic⟩ := hs.traffic_eq hu hM hnM hs.lt (Nat.le_refl n)
    refine ⟨{ r with traffic := none }, ?_, hstate, rfl⟩
    obtain ⟨what, rest, hreplay⟩ := List.exists_cons_of_ne_nil p.traffic.replay_ne_nil
    rw [before_succ hs.replays, act, replay, hs.idOf_eq hu (Nat.le_refl n),
      Registry.takeTraffic_of_session? (hs.session?_eq hu hM hnM hr)]
    simp only [htraffic, hreplay, ask]
    exact (Registry.record?_revise _ _ _ _).trans (if_pos rfl)
  | @step N hnN ih =>
    obtain ⟨r, hr, hstate, htraffic⟩ := ih (Nat.le_of_succ_le hNM)
    obtain ⟨r₁, hr₁, hstate₁⟩ := hs.exists_record hu (Nat.lt_succ_of_lt (Nat.lt_trans hs.lt hnN))
    obtain ⟨r', hr', hrevised⟩ :=
      hu.revised_before_succ hr (hu.isRegistered_of_le hNM hr₁ hM)
    obtain rfl : r₁ = r' := Option.some.inj (hr₁.symm.trans hr')
    refine ⟨r₁, hr₁, hstate₁, ?_⟩
    rcases hrevised with rfl | ⟨a, -, hrevised⟩
    · exact htraffic
    · exact hrevised.traffic_eq_none hstate htraffic

/-- **What the adapter hears.** -/
theorem telling (hM : (w.before actions M).registry.IsRegistered h)
    (hstays : Undisturbed actions b (n + 1) M) (hnN : n < N) (hNM : N ≤ M) :
    w.Telling actions n N b target p.traffic.replay := by
  induction hnN with
  | refl =>
    have hnM := Nat.le_of_succ_le hNM
    obtain ⟨r, hr, -, htraffic⟩ := hs.traffic_eq hu hM hnM hs.lt (Nat.le_refl n)
    have hsession := hs.session?_eq hu hM hnM hr
    rw [← hs.idOf_eq hu (Nat.le_refl n)] at hsession
    exact telling_succ hs.replays hsession htraffic
  | @step N hnN ih =>
    have hle := Nat.le_of_succ_le hNM
    obtain ⟨r, hr, -⟩ := hs.exists_record hu (Nat.lt_trans hs.lt hnN)
    refine (ih hle).succ hnN (fun a hN => hstays N a hnN hNM hN) ?_
    rw [hs.idOf_eq hu (Nat.le_of_lt hnN), hs.session?_eq hu hM hle hr]
    exact Option.some_ne_none _

/-- Every further replay has nothing to tell. -/
theorem seenAt_replay (hM : (w.before actions M).registry.IsRegistered h) (hnN : n < N)
    (hNM : N ≤ M) {d : CallId} {target' : TargetHandle}
    (hN : actions[N]? = some (.replay d target'))
    (hname : (w.before actions N).tree.idOf target' = id) :
    w.seenAt actions N = [.finished d (.ok (.replayed false))] := by
  obtain ⟨r, hr, -, htraffic⟩ := hs.traffic_eq_none hu hM hnN hNM
  rw [seenAt_of_getElem? hN, act, replay, hname,
    Registry.takeTraffic_of_session? (hs.session?_eq hu hM hNM hr)]
  simp only [htraffic, finish]

/-! ## Nobody interferes -/

/-- Nothing is heard of the replay until it has begun, and then it waits for an answer. -/
theorem result?_eq_none_of_le (hM : (w.before actions M).registry.IsRegistered h) (hnM : n ≤ M)
    (hNn : N ≤ n) : result? b (w.heard actions n (N + 1)) = none := by
  rcases Nat.lt_or_eq_of_le hNn with hNn | rfl
  · rw [heard_of_le hNn]
    rfl
  · obtain ⟨r, hr, -, htraffic⟩ := hs.traffic_eq hu hM hnM hs.lt (Nat.le_refl N)
    have hsession := hs.session?_eq hu hM hnM hr
    rw [← hs.idOf_eq hu (Nat.le_refl N)] at hsession
    obtain ⟨what, rest, -, hseen, -⟩ := seenAt_of_traffic hs.replays hsession htraffic
    rw [heard_succ (Nat.le_refl N), heard_of_le (Nat.le_refl N), hseen, List.nil_append,
      result?_asked]

/-- A record is new only before its connection comes. -/
theorem agrees_of_new (hold : (w.before actions N).registry.record? h = none)
    (hr : (w.before actions (N + 1)).registry.record? h = some r) :
    r.Agrees (result? b (w.heard actions n (N + 1))) := by
  have hNm : N ≤ m := by
    by_contra hmN
    obtain ⟨r₁, hr₁, -⟩ := hs.exists_record hu (Nat.lt_of_not_le hmN)
    cases hold.symm.trans hr₁
  rw [heard_of_le (Nat.lt_of_le_of_lt hNm hs.lt)]
  cases hN : actions[N]? with
  | none =>
    rw [before_succ_of_none hN, hold] at hr
    cases hr
  | some a =>
    rw [before_succ hN] at hr
    obtain ⟨target, id, name, rfl⟩ := fresh_of_act hold hr
    exact Record.agrees_fresh target id name

/-- A step that does not interfere keeps the agreement of the record with the replay. -/
theorem agrees_succ (hM : (w.before actions M).registry.IsRegistered h) (hnM : n < M)
    (hstays : Undisturbed actions b (n + 1) M) (hNM : N + 1 ≤ M)
    (hnot : ¬ w.Interferes actions n N b h) {r₀ : Record}
    (hold : (w.before actions N).registry.record? h = some r₀)
    (hr : (w.before actions (N + 1)).registry.record? h = some r)
    (hagrees : r₀.Agrees (result? b (w.heard actions n N))) :
    r.Agrees (result? b (w.heard actions n (N + 1))) := by
  have hle := Nat.le_of_succ_le hNM
  obtain ⟨r', hr', hrevised⟩ := hu.revised_before_succ hold (hu.isRegistered_of_le hNM hr hM)
  obtain rfl : r = r' := Option.some.inj (hr.symm.trans hr')
  -- Most steps neither end the replay nor settle the record.
  have hkeeps (hresult : result? b (w.heard actions n (N + 1)) = result? b (w.heard actions n N))
      (hown : n < N → ∀ a, actions[N]? = some a → ¬ (w.before actions N).Settles b h a) :
      r.Agrees (result? b (w.heard actions n (N + 1))) := by
    rw [hresult]
    rcases hrevised with rfl | ⟨a, hN, hrevised⟩
    · exact hagrees
    · refine hagrees.revised hrevised fun d hsettles => hnot ⟨a, d, hN, hsettles, ?_⟩
      rintro hnN rfl
      exact hown hnN a hN hsettles
  rcases Nat.lt_or_ge n N with hnN | hNn
  · have hidles (hidle : w.IdleAt actions N b) :
        r.Agrees (result? b (w.heard actions n (N + 1))) :=
      hkeeps (hidle.result?_heard (Nat.le_of_lt hnN))
        fun _ a hN hsettles => hsettles.not_idleAt hN hidle
    have hstays' : ∀ a, actions[N]? = some a → a.displaced? ≠ some b :=
      fun a hN => hstays N a hnN hNM hN
    have hheard : w.heard actions n (N + 1) = w.heard actions n N ++ w.seenAt actions N :=
      heard_succ (Nat.le_of_lt hnN)
    cases hs.telling hu hM hstays hnN hle with
    | ready hcall => exact hidles (idleAt_of_none hstays' hcall)
    | failed _ hcall => exact hidles (idleAt_of_none hstays' hcall)
    | @asks done what rest _ hcall _ hresult =>
      have hsession := hs.session?_eq hu hM hle hold
      rw [← hs.idOf_eq hu (Nat.le_of_lt hnN)] at hsession
      cases answers_of_replaying hcall hstays' (by rw [hsession]; exact Option.some_ne_none _) with
      | idle hidle => exact hidles hidle
      | next hrest hN _ hseen =>
        refine hkeeps ?_ fun _ a hN' hsettles => ?_
        · rw [hheard, result?_append, hseen, result?_asked, Option.or_none]
        · obtain ⟨reply, _, _, _, _, rfl, hcall', -, hopen⟩ := hsettles
          cases hN.symm.trans hN'
          cases hcall.symm.trans hcall'
          cases hrest.symm.trans hopen.1
      | ready hrest hN _ hseen =>
        subst hrest
        rw [before_succ hN, record?_act_ready hcall hsession, Option.some.injEq] at hr
        rw [hheard, result?_append, hseen, result?_finished, hresult, Option.none_or, ← hr]
        rw [hresult] at hagrees
        exact hagrees.ready _
      | @failed f hN _ hseen =>
        rw [before_succ hN, record?_act_failed hcall hsession f, Option.some.injEq] at hr
        rw [hheard, result?_append, hseen, result?_finished, hresult, Option.none_or, ← hr]
        rw [hresult] at hagrees
        exact hagrees.failed f
  · refine hkeeps ?_ fun hnN => absurd hnN (Nat.not_lt_of_le hNn)
    rw [hs.result?_eq_none_of_le hu hM (Nat.le_of_lt hnM) hNn, heard_of_le hNn]
    rfl

section

variable (hempty : w.registry = .empty) (hM : (w.before actions M).registry.IsRegistered h)
  (hnM : n < M) (hstays : Undisturbed actions b (n + 1) M)
  (hnone : ∀ i, i < M → ¬ w.Interferes actions n i b h)

include hempty hM hnM hstays hnone

/-- **If nobody interferes, the record is as the replay says.** -/
theorem agrees (hNM : N ≤ M)
    (hr : (w.before actions N).registry.record? h = some r) :
    r.Agrees (result? b (w.heard actions n N)) := by
  induction N generalizing r with
  | zero =>
    rw [before_zero, hempty] at hr
    cases hr
  | succ N ih =>
    cases hold : (w.before actions N).registry.record? h with
    | none => exact hs.agrees_of_new hu hold hr
    | some r₀ =>
      exact hs.agrees_succ hu hM hnM hstays hNM (hnone N hNM) hold hr
        (ih (Nat.le_of_succ_le hNM) hold)

/-- **If nobody interferes, the call that has brought the connection is told how the replay
ends.** -/
theorem gated (hstays' : Undisturbed actions c (m + 1) M) (hmN : m < N) (hNM : N ≤ M) :
    w.Gated actions m n N c b id h := by
  induction hmN with
  | refl =>
    obtain ⟨r, -, -, -, hcall, hseen⟩ := hs.matched_succ
    refine .waits hcall ?_
    rw [heard_succ (Nat.le_refl m), heard_of_le (Nat.le_refl m), hseen]
    rfl
  | @step N hmN ih =>
    have hle := Nat.le_of_succ_le hNM
    have hmN' := Nat.le_of_succ_le hmN
    have hdisplaced : ∀ a, actions[N]? = some a → a.displaced? ≠ some c :=
      fun a hN => hstays' N a hmN hNM hN
    cases ih hle with
    | told hcall hx htold =>
      exact (Gated.told hcall hx htold).idle hmN' (idleAt_of_none hdisplaced hcall)
    | waits hcall hwaits =>
      have hidles := (Gated.waits (n := n) (b := b) hcall hwaits).idle hmN'
      rcases idleAt_or hdisplaced with hidle | hN | ⟨reply, hN⟩
      · exact hidles hidle
      · obtain ⟨r, hr, -⟩ := hs.exists_record hu hmN
        have hagrees := hs.agrees hu hempty hM hnM hstays hnone hle hr
        have hresume := resume_gated hcall hr hagrees.gate
        cases hx : result? b (w.heard actions n N) with
        | none =>
          rw [hx] at hresume
          exact hidles (idleAt_of_act hN hresume)
        | some x =>
          rw [hx, Option.elim_some] at hresume
          refine .told ?_ (result?_heard_succ hx) ?_
          · rw [before_succ hN, act, hresume]
            exact get?_finish _ _ _
          · rw [heard_succ hmN', seenAt_of_getElem? hN, act, hresume, result?_append, hwaits,
              finish, result?_finished, Option.none_or]
      · exact hidles (idleAt_of_act hN (answer_of_awaits? hcall rfl reply))

/-- If nobody interferes, all is as the replay says. -/
theorem asDue (hstays' : Undisturbed actions c (m + 1) M) (hmN : m < N) (hNM : N ≤ M) :
    w.AsDue actions m n N c b id h := by
  obtain ⟨r, hr, hstate⟩ := hs.exists_record hu hmN
  have hagrees := hs.agrees hu hempty hM hnM hstays hnone hNM hr
  refine ⟨⟨r, hs.session?_eq hu hM hNM hr, hagrees.state_eq hstate, hagrees.gate⟩, ?_, ?_⟩
  all_goals obtain ⟨hcall, hwaits⟩ | ⟨hcall, hx, htold⟩ :=
    hs.gated hu hempty hM hnM hstays hnone hstays' hmN hNM
  · intro _
    rw [resume_gated hcall hr hagrees.gate]
    cases result? b (w.heard actions n N) <;> rfl
  · intro hwaits
    rw [htold] at hwaits
    cases hwaits
  · intro y hy
    rw [hwaits] at hy
    cases hy
  · intro y hy
    rw [hx, Option.map_some, ← htold, hy]

end

/-! ## Somebody interferes -/

/-- A record that is settled by another replay is not as the replay says. -/
theorem not_interferes (hM : (w.before actions M).registry.IsRegistered h) (hnM : n < M)
    (hdue : ∀ N, m < N → N ≤ M → w.AsDue actions m n N c b id h) {i : Nat} (hiM : i < M) :
    ¬ w.Interferes actions n i b h := by
  rintro ⟨a, d, hi, hsettles, hother⟩
  obtain ⟨r, hr, hcases⟩ := hsettles.cases
  rw [← before_succ hi] at hcases
  -- The settled record differs from what it was.
  obtain ⟨r', hr', hsettled, hdiffers⟩ : ∃ r',
      (w.before actions (i + 1)).registry.record? h = some r' ∧ r'.gate.isSettled = true ∧
        ¬ (r'.state = r.state ∧ r'.gate = r.gate) := by
    rcases hcases with ⟨hstate, hr'⟩ | ⟨f, hopen, hr'⟩
    · exact ⟨_, hr', r.isSettled_gate_ready, fun hsame => hstate hsame.1.symm⟩
    · refine ⟨_, hr', r.isSettled_gate_failed f.message, fun hsame => ?_⟩
      have hsettled := r.isSettled_gate_failed f.message
      rw [hsame.2, hopen] at hsettled
      cases hsettled
  have hrecord {N : Nat} {r : Record} (hr : (w.before actions N).registry.record? h = some r)
      (hmN : m < N) (hNM : N ≤ M) : r.state = stateAfter (result? b (w.heard actions n N)) ∧
        r.gate = gateAfter (result? b (w.heard actions n N)) := by
    obtain ⟨r₁, hsession, hstate, hgate⟩ := (hdue N hmN hNM).record
    obtain rfl : r = r₁ := Option.some.inj
      (hr.symm.trans (Registry.session?_eq_some_iff.mp hsession).2)
    exact ⟨hstate, hgate⟩
  rcases Nat.lt_or_ge m i with hmi | him
  · have hsame : result? b (w.heard actions n (i + 1)) = result? b (w.heard actions n i) := by
      rcases Nat.lt_or_ge n i with hni | hin
      · refine IdleAt.result?_heard (idleAt_of_call? fun a' ha' => ?_) (Nat.le_of_lt hni)
        obtain ⟨reply, _, _, _, _, rfl, -⟩ := hsettles
        cases hi.symm.trans ha'
        exact fun hd => hother hni (Option.some.inj hd)
      · rw [hs.result?_eq_none_of_le hu hM (Nat.le_of_lt hnM) hin, heard_of_le hin]
        rfl
    obtain ⟨hstate, hgate⟩ := hrecord hr hmi (Nat.le_of_lt hiM)
    obtain ⟨hstate', hgate'⟩ := hrecord hr' (Nat.lt_succ_of_lt hmi) hiM
    rw [hsame] at hstate' hgate'
    exact hdiffers ⟨hstate'.trans hstate.symm, hgate'.trans hgate.symm⟩
  · obtain ⟨r'', hr'', hlater⟩ :=
      (hu.later_before (Nat.succ_le_succ him)).registry.record h r' hr'
    obtain ⟨-, hgate⟩ := hrecord hr'' (Nat.lt_succ_self m) (Nat.le_trans hs.lt (Nat.le_of_lt hnM))
    rw [heard_of_le (show m + 1 ≤ n from hs.lt), hlater.gate hsettled] at hgate
    rw [hgate] at hsettled
    cases hsettled

end Handshake

end World

/-- **What becomes of what an editor has said before there was a target.**  The connection has taken
requests and then a terminal request with the tag of a target; a call brings the connection for the
record of that target, which waits for it, and a replay for the target begins; and the record stays
registered.

The editor is given the numbers 1, 2, 3 and so on over the whole connection, one for every
breakpoint that it asks for, in order.  The adapter is asked the script of the requests with exactly
these numbers, up to the first thing that it refuses.  Every further replay for the name asks
nothing.

The record is initialized, and the call that has brought the connection returns, exactly if the
adapter has refused nothing in the end; if it has refused something the call fails with the
adapter's words.  This holds all along exactly if no other replay settles the record. -/
theorem handshake_iff (root : ConnectionId) (debugType : String) (actions : List Action)
    (k : ConnectionId) (requests : List Request) (m n M : Nat) (c b : CallId) (id : TargetId)
    (h : RecordHandle) (target : TargetHandle) :
    let w := World.start root debugType
    let answers := ((PendingConnection.fresh k).collectAll requests).1
    let p := ((PendingConnection.fresh k).collectAll requests).2
    w.Handshake actions m n c b p id h target → n < M →
    (w.before actions M).registry.IsRegistered h →
    World.Undisturbed actions c (m + 1) M → World.Undisturbed actions b (n + 1) M →
      (answers.filterMap breakpointsIn? =
          List.zipWith PendingConnection.placeholders (requests.filterMap Request.breakpoints?)
            (numbersIn answers) ∧
        (numbersIn answers).map List.length =
          (requests.filterMap Request.breakpoints?).map (·.breakpoints.length) ∧
        ∃ count, (numbersIn answers).flatten = List.range' 1 count) ∧
      (∀ N, n < N → N ≤ M →
        w.Telling actions n N b target (script requests (numbersIn answers))) ∧
      (∀ N d target', n < N → N ≤ M → actions[N]? = some (.replay d target') →
        (w.before actions N).tree.idOf target' = id →
          w.seenAt actions N = [.finished d (.ok (.replayed false))]) ∧
      ((∀ N, m < N → N ≤ M → w.AsDue actions m n N c b id h) ↔
        ∀ i, i < M → ¬ w.Interferes actions n i b h) := by
  intro w answers p hs hnM hM hstays' hstays
  have hu := World.upright_start root debugType
  obtain ⟨-, hanswers, hlengths, hnumbers, hscript⟩ := collectAll_fresh k requests
  refine ⟨⟨hanswers, hlengths, hnumbers⟩, fun N hnN hNM => ?_,
    fun N d target' hnN hNM hN hname => hs.seenAt_replay hu hM hnN hNM hN hname,
    fun hdue i hiM => hs.not_interferes hu hM hnM hdue hiM,
    fun hnone N hmN hNM => hs.asDue hu rfl hM hnM hstays hnone hstays' hmN hNM⟩
  rw [← hscript]
  exact hs.telling hu hM hstays hnN hNM

/-! ## A refusal, and a refusal that is not heard -/

/-- An editor introduces itself and asks for two breakpoints in one file and for one in another. -/
def wishes : List Request :=
  [.setBreakpoints ⟨⟨none, some "/a.js", none⟩,
      [⟨1, none, none, none, none⟩, ⟨5, none, none, none, none⟩], none⟩,
    .initialization ⟨"node", none, none, none, none, .empty⟩,
    .setBreakpoints ⟨⟨none, some "/b.js", none⟩, [⟨7, none, none, none, none⟩], none⟩]

/-- The adapter takes the first breakpoints and refuses the last one. -/
def refusal : List Action :=
  [.addTarget ⟨"t"⟩ "t.js" .node none, .acquire ⟨"want"⟩ ⟨0⟩, .answer ⟨"want"⟩ (.ok ()),
    .complete ⟨"bring"⟩ ((PendingConnection.fresh ⟨"k"⟩).collectAll wishes).2
      ⟨some ⟨"t"⟩, .empty⟩,
    .replay ⟨"tell"⟩ ⟨0⟩, .answer ⟨"tell"⟩ (.ok ()),
    .answer ⟨"tell"⟩ (.error (.inspector "no such file")), .resume ⟨"bring"⟩,
    .replay ⟨"again"⟩ ⟨0⟩]

/-- A refusal reaches the editor. -/
theorem handshake_iff_refusal :
    let w := World.start ⟨"root"⟩ "node"
    result? ⟨"bring"⟩ (w.heard refusal 3 9) =
      some (.error (.sessionRejected ⟨"t"⟩ "Inspector error: no such file")) ∧
    w.Telling refusal 4 9 ⟨"tell"⟩ ⟨0⟩ (script wishes [[1, 2], [3]]) ∧
    ∀ N, 3 < N → N ≤ 9 → w.AsDue refusal 3 4 N ⟨"bring"⟩ ⟨"tell"⟩ ⟨"t"⟩ ⟨0⟩ := by
  intro w
  have hpending : (w.before refusal 3).registry.session? ⟨"t"⟩ =
      some (⟨0⟩, .fresh ⟨0⟩ ⟨"t"⟩ "t.js") := by cbv
  have hlabel : (w.before refusal 4).tree.label? ⟨0⟩ = some (⟨"t"⟩, "t.js") := by cbv
  have hregistered : (w.before refusal 9).registry.IsRegistered ⟨0⟩ := ⟨⟨"t"⟩, by decide +kernel⟩
  have hhandshake : w.Handshake refusal 3 4 ⟨"bring"⟩ ⟨"tell"⟩
      ((PendingConnection.fresh ⟨"k"⟩).collectAll wishes).2 ⟨"t"⟩ ⟨0⟩ ⟨0⟩ :=
    ⟨⟨.attach, ⟨some ⟨"t"⟩, .empty⟩, rfl, rfl, rfl⟩, ⟨_, hpending, rfl⟩, rfl, ⟨_, hlabel⟩, by decide,
      fun l d target hl hl' => absurd hl' (Nat.not_lt_of_le hl)⟩
  have hbring : World.Undisturbed refusal ⟨"bring"⟩ (3 + 1) 9 := by
    intro l a hl hl' ha
    interval_cases l <;> cases ha <;> decide
  have htell : World.Undisturbed refusal ⟨"tell"⟩ (4 + 1) 9 := by
    intro l a hl hl' ha
    interval_cases l <;> cases ha <;> decide
  -- The only answers are to the acquisition and to the replay itself.
  have hnone : ∀ i, i < 9 → ¬ w.Interferes refusal 4 i ⟨"tell"⟩ ⟨0⟩ := by
    rintro i hi ⟨a, d, ha, ⟨reply, _, _, _, _, rfl, hcall, -⟩, hother⟩
    have hwant : (w.before refusal 2).calls.get? ⟨"want"⟩ =
        some (.requesting ⟨0⟩ ⟨0⟩ ⟨"root"⟩) := by cbv
    interval_cases i <;> cases ha
    · cases hwant.symm.trans hcall
    · exact hother (by decide) rfl
    · exact hother (by decide) rfl
  have hnumbers : numbersIn ((PendingConnection.fresh ⟨"k"⟩).collectAll wishes).1 =
      [[1, 2], [3]] := by decide
  have hspec := handshake_iff ⟨"root"⟩ "node" refusal ⟨"k"⟩ wishes 3 4 9 ⟨"bring"⟩ ⟨"tell"⟩ ⟨"t"⟩
    ⟨0⟩ ⟨0⟩ hhandshake (by decide) hregistered hbring htell
  have htelling := hspec.2.1 9 (by decide) (by decide)
  rw [hnumbers] at htelling
  exact ⟨by decide +kernel, htelling, hspec.2.2.2.mpr hnone⟩

/-- An editor introduces itself and says nothing else. -/
def greeting : List Request :=
  [.initialization ⟨"node", none, none, none, none, .empty⟩]

/-- While the adapter of a target starts, the target is released and asked for again; its new
connection comes; then the first adapter is ready.  The new adapter refuses the first thing that it
is asked. -/
def overtaken : List Action :=
  [.addTarget ⟨"t"⟩ "t.js" .node none, .acquire ⟨"want"⟩ ⟨0⟩, .answer ⟨"want"⟩ (.ok ()),
    .complete ⟨"bring"⟩ ((PendingConnection.fresh ⟨"k"⟩).collectAll greeting).2
      ⟨some ⟨"t"⟩, .empty⟩,
    .replay ⟨"tell"⟩ ⟨0⟩, .answer ⟨"tell"⟩ (.ok ()), .answer ⟨"tell"⟩ (.ok ()),
    .release ⟨"t"⟩,
    .acquire ⟨"want again"⟩ ⟨0⟩, .answer ⟨"want again"⟩ (.ok ()),
    .complete ⟨"bring again"⟩ ((PendingConnection.fresh ⟨"l"⟩).collectAll greeting).2
      ⟨some ⟨"t"⟩, .empty⟩,
    .answer ⟨"tell"⟩ (.ok ()), .resume ⟨"bring again"⟩,
    .replay ⟨"tell again"⟩ ⟨0⟩, .answer ⟨"tell again"⟩ (.error (.inspector "no such file"))]

/-- **A refusal can go unheard.**  The second replay has failed, and yet the record is initialized
and the call that has brought its connection has returned well. -/
theorem overtaken_handshake :
    let w := World.start ⟨"root"⟩ "node"
    w.Handshake overtaken 10 13 ⟨"bring again"⟩ ⟨"tell again"⟩
      ((PendingConnection.fresh ⟨"l"⟩).collectAll greeting).2 ⟨"t"⟩ ⟨1⟩ ⟨0⟩ ∧
    (w.before overtaken 15).registry.IsRegistered ⟨1⟩ ∧
    result? ⟨"tell again"⟩ (w.heard overtaken 13 15) = some (.error (.inspector "no such file")) ∧
    result? ⟨"bring again"⟩ (w.heard overtaken 10 15) = some (.ok .completed) ∧
    (w.before overtaken 15).registry.state? ⟨"t"⟩ = some .initialized ∧
    ¬ w.AsDue overtaken 10 13 15 ⟨"bring again"⟩ ⟨"tell again"⟩ ⟨"t"⟩ ⟨1⟩ := by
  intro w
  have hpending : (w.before overtaken 10).registry.session? ⟨"t"⟩ =
      some (⟨1⟩, .fresh ⟨0⟩ ⟨"t"⟩ "t.js") := by cbv
  have hlabel : (w.before overtaken 13).tree.label? ⟨0⟩ = some (⟨"t"⟩, "t.js") := by cbv
  have hregistered : (w.before overtaken 15).registry.IsRegistered ⟨1⟩ :=
    ⟨⟨"t"⟩, by decide +kernel⟩
  have hhandshake : w.Handshake overtaken 10 13 ⟨"bring again"⟩ ⟨"tell again"⟩
      ((PendingConnection.fresh ⟨"l"⟩).collectAll greeting).2 ⟨"t"⟩ ⟨1⟩ ⟨0⟩ := by
    refine ⟨⟨.attach, ⟨some ⟨"t"⟩, .empty⟩, rfl, rfl, rfl⟩, ⟨_, hpending, rfl⟩, rfl, ⟨_, hlabel⟩,
      by decide, fun l d target hl hl' hreplay => ?_⟩
    interval_cases l <;> cases hreplay
  have htold : result? ⟨"tell again"⟩ (w.heard overtaken 13 15) =
      some (.error (.inspector "no such file")) := by decide +kernel
  have hreturned : result? ⟨"bring again"⟩ (w.heard overtaken 10 15) = some (.ok .completed) := by
    decide +kernel
  refine ⟨hhandshake, hregistered, htold, hreturned, by decide +kernel, fun hdue => ?_⟩
  have hverdict := hdue.returned _ hreturned
  rw [htold] at hverdict
  cases hverdict

end Session
end DebugTree
