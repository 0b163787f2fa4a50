import DebugTree.Proofs.Session.Stages

/-!
# When the state of a record tells the truth

A record that waits for its connection should say so, and a record should be called initialized
only when its own connection has come and its own traffic has been told to an adapter to the end
(`World.Faithful`).

A call to `replay` goes by name at both ends: it takes the traffic of the record that it finds, and
when the adapter has answered for the last time it looks the name up again.  In between the name
may have been released and registered again.  Then the call opens the gate of a record that it
knows nothing about, or shuts it if the adapter has refused (`World.Overtakes`).  The call does ask
whether there still *is* a record, so it is not meant to do that; what it does not ask is whether
it is the same one.

Nothing else can go wrong.  The states of all registered records are true at every moment of a run,
and no replay touches a record other than its own, exactly if no step of the run overtakes
(`faithful_iff`).
-/

namespace DebugTree
namespace Session

open Protocol

namespace World

variable {w : World} {l : Ledger} {a : Action} {c : CallId}

/-- The states of registered records are true: a record waits for its connection exactly while
nobody has settled it, and a record is initialized only if its connection was brought and adapters
have answered everything that was said on it. -/
structure Faithful (w : World) (l : Ledger) : Prop where
  pending : ∀ id h r, w.registry.session? id = some (h, r) →
    (r.state = .pendingAcquire ↔ r.connection.settlement = .pending)
  initialized : ∀ id h r, w.registry.session? id = some (h, r) → r.state = .initialized →
    ∃ connection t, l.brought.get? h = some (connection, t) ∧
      r.connection.settlement = .resolved connection ∧ l.answeredFor h = t.replay

/-- A replay leaves every record but its own as it was. -/
def Discreet (w : World) (l : Ledger) : Action → Prop
  | .answer c reply => ∀ target call rest own, w.calls.get? c = some (.replaying target call rest) →
      l.taken.get? c = some own → ∀ h, h ≠ own →
        (w.act (.answer c reply)).1.registry.record? h = w.registry.record? h
  | _ => True

/-- A replay comes to its end, well or badly, when its target's name has got another record than the
one whose traffic it has told; and that record is still open to what the replay does to it. -/
def Overtakes (w : World) (l : Ledger) : Action → Prop
  | .answer c reply => ∃ target call rest own h r,
      w.calls.get? c = some (.replaying target call rest) ∧ l.taken.get? c = some own ∧
        w.registry.session? (w.tree.idOf target) = some (h, r) ∧ h ≠ own ∧
          match reply with
          | .ok _ => rest = [] ∧ r.state ≠ .initialized
          | .error _ => r.gate.isSettled = false
  | _ => False

/-- The records, the ledger and the calls fit together. -/
def Accounted (w : World) (l : Ledger) : Prop :=
  w.registry.Accounted l w.todo?

theorem accounted_start (root : ConnectionId) (debugType : String) :
    (start root debugType).Accounted .empty :=
  .empty

/-- Whoever tells something has taken it from a record. -/
theorem Accounted.exists_taken (ha : w.Accounted l) {target : TargetHandle} {call : AdapterCall}
    {rest : List AdapterCall} (hcall : w.calls.get? c = some (.replaying target call rest)) :
    ∃ own connection t, l.taken.get? c = some own ∧ l.brought.get? own = some (connection, t) ∧
      l.answeredFor own ++ call :: rest = t.replay := by
  have htodo : w.todo? c = some (call :: rest) := by rw [todo?, hcall]; rfl
  obtain ⟨own, -, connection, t, htaken, -, -, hb, hrest⟩ := ha.replays c _ htodo
  exact ⟨own, connection, t, htaken, hb, hrest⟩

/-! ## The states are true -/

theorem Accounted.faithful (ha : w.Accounted l) : w.Faithful l where
  pending id h r hs := by
    have hr := (Registry.session?_eq_some_iff.mp hs).2
    cases ha.stage h r hr with
    | expected _ _ _ hstate hc => simp [hstate, hc (Registry.isRegistered_of_session? hs)]
    | waiting _ _ _ _ _ hstate hc => simp [hstate, hc]
    | telling _ _ _ _ hstate hc => rcases hstate with hstate | ⟨hstate, -⟩ <;> simp [hstate, hc]
  initialized id h r hs hinit := by
    have hr := (Registry.session?_eq_some_iff.mp hs).2
    cases ha.stage h r hr with
    | expected _ _ _ hstate => rw [hinit] at hstate; cases hstate
    | waiting _ _ _ _ _ hstate => rw [hinit] at hstate; cases hstate
    | telling connection t hb _ hstate hc =>
      rcases hstate with hstate | ⟨-, hanswered, -⟩
      · rw [hinit] at hstate; cases hstate
      · exact ⟨connection, t, hb, hc, hanswered⟩

/-- The last answer to a replay that does not overtake. -/
theorem Accounted.ends (ha : w.Accounted l) (hnot : ¬ w.Overtakes l (.answer c (.ok ())))
    {target : TargetHandle} {call : AdapterCall}
    (hcall : w.calls.get? c = some (.replaying target call []))
    {todo? : CallId → Option (List AdapterCall)}
    (hcalls : ∀ c', todo? c' = if c = c' then none else w.todo? c') :
    (w.registry.ready (w.tree.idOf target)).2.Accounted (l.hear c call) todo? := by
  obtain ⟨own, connection, t, htaken, hb, hrest⟩ := ha.exists_taken hcall
  have htodo : w.todo? c = some [call] := by rw [World.todo?, hcall]; rfl
  have hhear : w.registry.Accounted (l.hear c call) todo? := by
    refine Registry.Accounted.hear ha htodo fun c' todo hc' => ?_
    rw [hcalls] at hc'
    split at hc'
    · cases hc'
    · next hne => exact Or.inr ⟨hne, hc'⟩
  refine hhear.ready fun h r hs => ?_
  by_cases hown : h = own
  · subst hown
    refine Or.inr ⟨connection, t, by rw [Ledger.brought_hear, hb], ?_⟩
    rw [Ledger.answeredFor_hear htaken, if_pos rfl]
    exact hrest
  · refine Or.inl (by_contra fun hstate => hnot ?_)
    exact ⟨target, call, [], own, h, r, hcall, htaken, hs, hown, rfl, hstate⟩

/-- **What a step keeps**, if it does not overtake. -/
theorem Accounted.act (ha : w.Accounted l) (hnot : ¬ w.Overtakes l a) :
    (w.act a).1.Accounted (l.note w a) := by
  have hadvance := w.advance_act l a
  generalize (w.act a).1 = w' at hadvance ⊢
  generalize l.note w a = l' at hadvance ⊢
  cases hadvance with
  | quiet hreg hcalls hl =>
    rw [Accounted, hreg, hl]
    exact Registry.Accounted.noNews ha hcalls
  | registers hreg hcalls hl =>
    rw [Accounted, hl]
    exact (Registry.Accounted.register ha hreg).noNews hcalls
  | releases ids hreg hcalls hl =>
    rw [Accounted, hreg, hl]
    exact (Registry.Accounted.releaseAll ha ids).noNews hcalls
  | «matches» hreg hcalls hl =>
    rw [Accounted, hl]
    exact (Registry.Accounted.bring ha hreg).noNews hcalls
  | takes hsession htraffic hreg hcalls hl =>
    rw [Accounted, hreg, hl]
    exact Registry.Accounted.take ha hsession htraffic hcalls
  | hears htodo hreg hcalls hl =>
    rw [Accounted, hreg, hl]
    refine Registry.Accounted.hear ha htodo fun c' todo hc' => ?_
    rw [hcalls] at hc'
    split at hc'
    · next hcc => exact Or.inl ⟨hcc, (Option.some.inj hc').symm⟩
    · next hne => exact Or.inr ⟨hne, hc'⟩
  | ends haction hcall hreg hcalls hl =>
    rw [Accounted, hreg, hl]
    subst haction
    exact ha.ends hnot hcall hcalls
  | fails hcall hreg hcalls hl =>
    rw [Accounted, hreg, hl]
    exact (Registry.Accounted.failed ha _ _).noNews hcalls

/-! ## Who is touched -/

/-- What a replay does to records when it has been answered. -/
theorem record?_answer_ok {target : TargetHandle} {call : AdapterCall}
    {rest : List AdapterCall} (hcall : w.calls.get? c = some (.replaying target call rest))
    (h : RecordHandle) :
    (w.answer c (.ok ())).1.registry.record? h =
      if rest = [] then (w.registry.ready (w.tree.idOf target)).2.record? h
      else w.registry.record? h := by
  rw [answer_replaying_ok hcall]
  cases rest with
  | nil => rfl
  | cons next rest => rfl

theorem record?_answer_error {target : TargetHandle} {call : AdapterCall}
    {rest : List AdapterCall} (hcall : w.calls.get? c = some (.replaying target call rest))
    (f : Fault) (h : RecordHandle) :
    (w.answer c (.error f)).1.registry.record? h =
      (w.registry.failed (w.tree.idOf target) f.message).record? h := by
  rw [answer_replaying_error hcall]
  rfl

theorem Overtakes.not_discreet (h : w.Overtakes l a) : ¬ w.Discreet l a := by
  intro hdiscreet
  cases a with
  | answer c reply =>
    obtain ⟨target, call, rest, own, h, r, hcall, htaken, hs, hne, hopen⟩ := h
    have hr := (Registry.session?_eq_some_iff.mp hs).2
    have hsame : (w.answer c reply).1.registry.record? h = w.registry.record? h :=
      hdiscreet target call rest own hcall htaken h hne
    cases reply with
    | ok =>
      obtain ⟨rfl, hstate⟩ := hopen
      rw [record?_answer_ok hcall, if_pos rfl, Registry.ready_of_session? hs,
        Registry.record?_revise, if_pos rfl, hr, Option.some.injEq] at hsame
      exact hstate (congrArg Record.state hsame).symm
    | error f =>
      rw [record?_answer_error hcall, Registry.failed_of_session? hs, Registry.record?_revise,
        if_pos rfl, hr, Option.some.injEq] at hsame
      have hsettled := r.isSettled_gate_failed f.message
      rw [hsame, show r.gate.isSettled = false from hopen] at hsettled
      cases hsettled
  | _ => exact h

theorem Accounted.discreet (ha : w.Accounted l) (hnot : ¬ w.Overtakes l a) : w.Discreet l a := by
  cases a with
  | answer c reply =>
    intro target call rest own hcall htaken h hne
    change (w.answer c reply).1.registry.record? h = w.registry.record? h
    cases reply with
    | ok =>
      rw [record?_answer_ok hcall]
      split
      · next hrest =>
        refine Registry.record?_ready_of_eq fun r hs => ?_
        have hinit : r.state = .initialized := by
          by_contra hstate
          exact hnot ⟨target, call, rest, own, h, r, hcall, htaken, hs, hne, hrest, hstate⟩
        have hstage := ha.stage h r (Registry.session?_eq_some_iff.mp hs).2
        exact Record.ready_of_initialized hinit (hstage.isSettled_gate hinit)
      · rfl
    | error f =>
      rw [record?_answer_error hcall]
      refine Registry.record?_failed_of_eq fun r hs => Record.failed_of_isSettled ?_ _
      by_contra hopen
      exact hnot ⟨target, call, rest, own, h, r, hcall, htaken, hs, hne, by simpa using hopen⟩
  | _ => trivial

/-- **A step touches no record of others exactly if it does not overtake.** -/
theorem Accounted.discreet_iff (ha : w.Accounted l) : w.Discreet l a ↔ ¬ w.Overtakes l a :=
  ⟨fun hdiscreet hovertakes => hovertakes.not_discreet hdiscreet, ha.discreet⟩

/-! ## Runs -/

/-- Where no step overtakes, the states are true all along and nobody is touched by others. -/
theorem Accounted.run_iff (ha : w.Accounted l) (actions : List Action) :
    ((∀ n, (w.run (actions.take n)).1.Faithful (w.ledger l (actions.take n))) ∧
      ∀ n a, actions[n]? = some a →
        (w.run (actions.take n)).1.Discreet (w.ledger l (actions.take n)) a) ↔
    ∀ n a, actions[n]? = some a →
      ¬ (w.run (actions.take n)).1.Overtakes (w.ledger l (actions.take n)) a := by
  induction actions generalizing w l with
  | nil =>
    constructor
    · intro _ n a hn
      cases hn
    · refine fun _ => ⟨fun n => ?_, fun n a hn => by cases hn⟩
      rw [List.take_nil]
      exact ha.faithful
  | cons a rest ih =>
    constructor
    · rintro ⟨hfaithful, hdiscreet⟩
      have hnot := ha.discreet_iff.mp (hdiscreet 0 a rfl)
      have hlater := (ih (ha.act hnot)).mp
        ⟨fun n => hfaithful (n + 1), fun n b hb => hdiscreet (n + 1) b hb⟩
      intro n b hb
      cases n with
      | zero => exact Option.some.inj hb ▸ hnot
      | succ n => exact hlater n b hb
    · intro hnone
      have hnot := hnone 0 a rfl
      obtain ⟨hfaithful, hdiscreet⟩ := (ih (ha.act hnot)).mpr fun n b hb => hnone (n + 1) b hb
      refine ⟨fun n => ?_, fun n b hb => ?_⟩
      · cases n with
        | zero => exact ha.faithful
        | succ n => exact hfaithful n
      · cases n with
        | zero => exact Option.some.inj hb ▸ ha.discreet_iff.mpr hnot
        | succ n => exact hdiscreet n b hb

end World

/-- **When the states of records are true.**  At every moment of a run, every registered record
waits for its connection exactly while that connection is open, and is initialized only if its own
connection was brought and its own traffic was told to the end; and no replay touches a record
other than the one whose traffic it has taken.  All of this holds exactly if no replay of the run
comes to its end when the name it goes by has got another record that is still open. -/
theorem faithful_iff (root : ConnectionId) (debugType : String) (actions : List Action) :
    let w := World.start root debugType
    ((∀ n, (w.run (actions.take n)).1.Faithful (w.ledger .empty (actions.take n))) ∧
      ∀ n a, actions[n]? = some a →
        (w.run (actions.take n)).1.Discreet (w.ledger .empty (actions.take n)) a) ↔
    ∀ n a, actions[n]? = some a →
      ¬ (w.run (actions.take n)).1.Overtakes (w.ledger .empty (actions.take n)) a :=
  (World.accounted_start root debugType).run_iff actions

/-! ## A replay that overtakes -/

/-- A connection on which an editor has introduced itself and said nothing else. -/
def introducedConnection : PendingConnection :=
  ⟨⟨"c"⟩, { Traffic.none with introduction := some ⟨"node", none, none, none, none, .empty⟩ }, 1⟩

/-- While the adapter of a target starts, the target is released and asked for again; then the
adapter is ready. -/
def relapse : List Action :=
  [.addTarget ⟨"t"⟩ "t.js" .node none,
    .acquire ⟨"first"⟩ ⟨0⟩, .answer ⟨"first"⟩ (.ok ()),
    .complete ⟨"match"⟩ introducedConnection ⟨some ⟨"t"⟩, .empty⟩,
    .replay ⟨"replay"⟩ ⟨0⟩, .answer ⟨"replay"⟩ (.ok ()), .answer ⟨"replay"⟩ (.ok ()),
    .release ⟨"t"⟩,
    .acquire ⟨"second"⟩ ⟨0⟩, .answer ⟨"second"⟩ (.ok ()),
    .answer ⟨"replay"⟩ (.ok ())]

/-- **A replay can overtake.**  The second record is initialized while its connection is still
expected, and its gate is open. -/
theorem relapse_unfaithful :
    let w := World.start ⟨"root"⟩ "node"
    (∃ h r, (w.run relapse).1.registry.session? ⟨"t"⟩ = some (h, r) ∧ r.state = .initialized ∧
      r.connection.settlement = .pending ∧ r.gate.settlement = .resolved ()) ∧
    ¬ (w.run relapse).1.Faithful (w.ledger .empty relapse) := by
  intro w
  have hlook : ((w.run relapse).1.registry.session? ⟨"t"⟩).map (fun e =>
      (e.2.state, e.2.connection.settlement, e.2.gate.settlement)) =
        some (.initialized, .pending, .resolved ()) := by
    decide +kernel
  obtain ⟨⟨h, r⟩, hs, hlook⟩ := Option.map_eq_some_iff.mp hlook
  obtain ⟨hstate, hsettled⟩ := Prod.mk.inj hlook
  obtain ⟨hconnection, hgate⟩ := Prod.mk.inj hsettled
  refine ⟨⟨h, r, hs, hstate, hconnection, hgate⟩, fun hfaithful => ?_⟩
  have hpending := (hfaithful.pending _ h r hs).mpr hconnection
  rw [show r.state = .initialized from hstate] at hpending
  cases hpending

end Session
end DebugTree
