import DebugTree.Proofs.Session.Lasting

/-!
# The stretches of a call

A call waits for the editor, for an adapter, or for one of the two promises of a record: its
connection or its gate.  What it does between two waits is listed here, once for each way to begin
a call (`acquire_of_free`, `complete_cases`, `connection_cases`), once for going on by itself
(`World.Resumed`), and once for being answered (`World.Answered`).
-/

namespace DebugTree

namespace Deferred

variable {α : Type} {d : Deferred α}

theorem outcome?_ne_none_of_isSettled (h : d.isSettled = true) : d.outcome? ≠ none := by
  unfold outcome?
  cases hs : d.settlement with
  | pending => exact absurd hs (isSettled_iff.mp h)
  | resolved value => simp
  | rejected reason => simp

theorem outcome?_eq_ok_iff {value : α} :
    d.outcome? = some (.ok value) ↔ d.settlement = .resolved value := by
  unfold outcome?
  cases d.settlement with
  | pending => cases d.dropped <;> simp
  | resolved value => simp
  | rejected reason => simp

/-- A refusal counts if nothing has become of the value before. -/
theorem outcome?_reject (hopen : d.outcome? = none) (reason : String) :
    (d.reject reason).2.outcome? = some (.error reason) := by
  have hnot : ¬ d.isSettled = true := fun hsettled => outcome?_ne_none_of_isSettled hsettled hopen
  rw [reject, settle, if_neg hnot]
  rfl

end Deferred

namespace Session

open Protocol

/-! ## Promises -/

/-- What a record promises. -/
inductive Part where
  | connection
  | gate
  deriving DecidableEq

/-- Whether a promise of a record was kept, or why it was not. -/
def Record.outcome? (r : Record) : Part → Option (Except String Unit)
  | .connection => r.connection.outcome?.map (·.map fun _ => ())
  | .gate => r.gate.outcome?

/-- The promise that a call waits for. -/
def Call.awaits? : Call → Option (RecordHandle × Part)
  | .awaitingAncestor _ _ _ h | .expecting _ h | .listening _ h => some (h, .connection)
  | .gated _ h => some (h, .gate)
  | .requesting _ _ _ | .replaying _ _ _ => none

/-- The records that a call goes by. -/
def Call.records : Call → List RecordHandle
  | .awaitingAncestor _ own _ h => [own, h]
  | .requesting _ own _ | .expecting _ own => [own]
  | .listening _ h | .gated _ h => [h]
  | .replaying _ _ _ => []

theorem Call.mem_records_of_awaits? {call : Call} {h : RecordHandle} {part : Part}
    (hawaits : call.awaits? = some (h, part)) : h ∈ call.records := by
  cases call <;> cases hawaits <;> simp [records]

namespace Record

variable {r r' : Record} {part : Part}

theorem outcome?_released (hopen : r.outcome? part = none) :
    r.released.outcome? part = some (.error releasedReason) := by
  cases part with
  | connection =>
    have hrejected := Deferred.outcome?_reject (Option.map_eq_none_iff.mp hopen) releasedReason
    rw [outcome?, released, hrejected]
    rfl
  | gate => exact Deferred.outcome?_reject hopen releasedReason

/-- What became of a released record stays. -/
theorem Later.outcome?_eq (hlater : r.released.Later r') :
    r'.outcome? part = r.released.outcome? part := by
  cases part with
  | connection => rw [outcome?, outcome?, hlater.connection (r.connection.isSettled_settle (by simp))]
  | gate => rw [outcome?, outcome?, hlater.gate (r.gate.isSettled_settle (by simp))]

theorem outcome?_ne_none (hc : r.connection.isSettled = true) (hg : r.gate.isSettled = true) :
    r.outcome? part ≠ none := by
  cases part with
  | connection =>
    rw [outcome?, Ne, Option.map_eq_none_iff]
    exact Deferred.outcome?_ne_none_of_isSettled hc
  | gate => exact Deferred.outcome?_ne_none_of_isSettled hg

end Record

namespace Registry

variable {g g' : Registry} {h : RecordHandle} {r : Record} {k : ConnectionId} {part : Part}

/-- What became of a promise of a record. -/
def outcome? (g : Registry) (h : RecordHandle) (part : Part) : Option (Except String Unit) :=
  (g.record? h).bind (·.outcome? part)

/-- The promise of a record is open. -/
def IsOpen (g : Registry) (h : RecordHandle) (part : Part) : Prop :=
  ∃ r, g.record? h = some r ∧ r.outcome? part = none

/-- A record has got its connection. -/
def IsConnected (g : Registry) (h : RecordHandle) (k : ConnectionId) : Prop :=
  ∃ r, g.record? h = some r ∧ r.connection.settlement = .resolved k

theorem outcome?_of_record? (hr : g.record? h = some r) (part : Part) :
    g.outcome? h part = r.outcome? part := by
  rw [outcome?, hr, Option.bind_some]

theorem IsOpen.outcome?_eq (hopen : g.IsOpen h part) : g.outcome? h part = none := by
  obtain ⟨r, hr, hopen⟩ := hopen
  rw [outcome?_of_record? hr, hopen]

/-- An open promise belongs to a registered record. -/
theorem Upright.isRegistered_of_isOpen (hu : g.Upright) (hopen : g.IsOpen h part) :
    g.IsRegistered h := by
  obtain ⟨r, hr, hopen⟩ := hopen
  by_contra hgone
  obtain ⟨hc, hg⟩ := hu.closed h r hr hgone
  exact Record.outcome?_ne_none hc hg hopen

theorem bind_outcome?_eq_ok_iff :
    (g.record? h).bind (·.connection.outcome?) = some (.ok k) ↔ g.IsConnected h k := by
  rw [Option.bind_eq_some_iff]
  exact exists_congr fun r => and_congr_right fun _ => Deferred.outcome?_eq_ok_iff

theorem outcome?_connection (g : Registry) (h : RecordHandle) : g.outcome? h .connection =
    ((g.record? h).bind (·.connection.outcome?)).map (·.map fun _ => ()) := by
  rw [outcome?]
  cases g.record? h <;> rfl

theorem IsConnected.outcome?_eq (hk : g.IsConnected h k) :
    g.outcome? h .connection = some (.ok ()) := by
  rw [outcome?_connection, bind_outcome?_eq_ok_iff.mpr hk]
  rfl

end Registry

namespace World

variable {w w' : World} {c : CallId} {call : Call} {a : Action} {h : RecordHandle} {r : Record}
  {part : Part}

/-! ## How a call goes on -/

/-- What a call can do when it goes on by itself. -/
inductive Resumed (w : World) (c : CallId) (call : Call) : World × List Event → Prop
  /-- The promise is open, or the call does not wait for one. -/
  | rests (hopen : ∀ h part, call.awaits? = some (h, part) → w.registry.outcome? h part = none) :
      Resumed w c call (w, [])
  /-- An ancestor has got its connection. -/
  | routed {target ancestor : TargetHandle} {own h : RecordHandle}
      {route : ConnectionId} (hcall : call = .awaitingAncestor target own ancestor h)
      (hroute : w.registry.IsConnected h route) :
      Resumed w c call (w.request c target own route)
  /-- The record has got its connection. -/
  | connected {h : RecordHandle} {k : ConnectionId}
      (hcall : (∃ target, call = .expecting target h) ∨ ∃ id, call = .listening id h)
      (hk : w.registry.IsConnected h k) : Resumed w c call (w.finish c (.ok (.connected k)))
  /-- The gate is open. -/
  | completed {id : TargetId} {h : RecordHandle} (hcall : call = .gated id h)
      (hgate : w.registry.outcome? h .gate = some (.ok ())) :
      Resumed w c call (w.finish c (.ok .completed))
  /-- The promise was not kept. -/
  | refused {h : RecordHandle} {part : Part} {reason : String} (id : TargetId)
      (hcall : ∀ target own ancestor h, call ≠ .awaitingAncestor target own ancestor h)
      (hawaits : call.awaits? = some (h, part))
      (hreason : w.registry.outcome? h part = some (.error reason)) :
      Resumed w c call (w.finish c (.error (.sessionRejected id reason)))
  /-- An ancestor's promise was not kept: the record of the target's name goes. -/
  | stranded {target ancestor : TargetHandle} {own h : RecordHandle}
      {reason : String} (hcall : call = .awaitingAncestor target own ancestor h)
      (hreason : w.registry.outcome? h .connection = some (.error reason)) :
      Resumed w c call (w.giveUp c target (.sessionRejected (w.tree.idOf ancestor) reason))

/-- **How a call goes on.** -/
theorem resumed (hcall : w.calls.get? c = some call) : w.Resumed c call (w.resume c) := by
  have hconnection := w.registry.outcome?_connection
  cases call with
  | awaitingAncestor target own ancestor h =>
    simp only [resume, hcall]
    split
    · next route hroute => exact .routed rfl (Registry.bind_outcome?_eq_ok_iff.mp hroute)
    · next reason hreason =>
      exact .stranded rfl (by rw [hconnection, hreason]; rfl)
    · next hopen => exact .rests fun h part hh => by cases hh; rw [hconnection, hopen]; rfl
  | expecting target h =>
    simp only [resume, hcall]
    split
    · next k hk => exact .connected (Or.inl ⟨target, rfl⟩) (Registry.bind_outcome?_eq_ok_iff.mp hk)
    · next reason hreason =>
      exact .refused _ (fun _ _ _ _ hh => by cases hh) rfl (by rw [hconnection, hreason]; rfl)
    · next hopen => exact .rests fun h part hh => by cases hh; rw [hconnection, hopen]; rfl
  | listening id h =>
    simp only [resume, hcall]
    split
    · next k hk => exact .connected (Or.inr ⟨id, rfl⟩) (Registry.bind_outcome?_eq_ok_iff.mp hk)
    · next reason hreason =>
      exact .refused id (fun _ _ _ _ hh => by cases hh) rfl (by rw [hconnection, hreason]; rfl)
    · next hopen => exact .rests fun h part hh => by cases hh; rw [hconnection, hopen]; rfl
  | gated id h =>
    simp only [resume, hcall]
    split
    · next hgate => exact .completed rfl hgate
    · next reason hreason => exact .refused id (fun _ _ _ _ hh => by cases hh) rfl hreason
    · next hopen => exact .rests fun h part hh => by cases hh; exact hopen
  | requesting target own route =>
    simp only [resume, hcall]
    exact .rests fun h part hh => by cases hh
  | replaying target what rest =>
    simp only [resume, hcall]
    exact .rests fun h part hh => by cases hh

theorem resume_of_none (hcall : w.calls.get? c = none) : w.resume c = (w, []) := by
  simp only [resume, hcall]

/-! ## How a call is answered -/

/-- What an answer can do to a call. -/
inductive Answered (w : World) (c : CallId) (call : Call) (reply : Except Fault Unit) :
    World × List Event → Prop
  /-- The call does not wait for an answer. -/
  | rests (hcall : ∀ target own route, call ≠ .requesting target own route) :
      Answered w c call reply (w, [])
  /-- The editor has taken the request. -/
  | taken {target : TargetHandle} {own : RecordHandle} {route : ConnectionId}
      (hcall : call = .requesting target own route) (hreply : reply = .ok ()) :
      Answered w c call reply (w.suspend c (.expecting target own), [])
  /-- The editor has refused the request. -/
  | refused {target : TargetHandle} {own : RecordHandle} {route : ConnectionId} {f : Fault}
      (hcall : call = .requesting target own route) (hreply : reply = .error f) :
      Answered w c call reply (w.giveUp c target f)
  /-- The adapter has done as it was asked. -/
  | told {target : TargetHandle} {what : AdapterCall} {rest : List AdapterCall}
      (hcall : call = .replaying target what rest) : Answered w c call reply (w.ask c target rest)
  /-- The adapter has failed. -/
  | failed {target : TargetHandle} {what : AdapterCall} {rest : List AdapterCall} {f : Fault}
      (hcall : call = .replaying target what rest) :
      Answered w c call reply
        (({ w with registry := w.registry.failed (w.tree.idOf target) f.message } : World).finish c
          (.error f))

/-- **How a call is answered.** -/
theorem answered (hcall : w.calls.get? c = some call) (reply : Except Fault Unit) :
    w.Answered c call reply (w.answer c reply) := by
  cases call with
  | requesting target own route =>
    cases reply with
    | ok => simp only [answer, hcall]; exact .taken rfl rfl
    | error f => simp only [answer, hcall]; exact .refused rfl rfl
  | replaying target what rest =>
    cases reply with
    | ok => rw [answer_replaying_ok hcall]; exact .told rfl
    | error f => rw [answer_replaying_error hcall]; exact .failed rfl
  | _ => cases reply <;> simp only [answer, hcall] <;> exact .rests fun _ _ _ hh => by cases hh

theorem answer_of_none (hcall : w.calls.get? c = none) (reply : Except Fault Unit) :
    w.answer c reply = (w, []) := by
  cases reply <;> simp only [answer, hcall]

/-! ## How a call begins -/

/-- The world with a new record for a target, under a name that has none. -/
def enroll (w : World) (target : TargetHandle) : World :=
  let name := ((w.tree.target? target).map (·.name)).getD ""
  { w with registry := w.registry.enrolled target (w.tree.idOf target) name }

theorem exists_of_nearest? {target ancestor : TargetHandle}
    (hn : w.nearest? target = some (ancestor, h)) :
    ∃ r, w.registry.session? (w.tree.idOf ancestor) = some (h, r) := by
  obtain ⟨x, -, hx⟩ := List.exists_of_findSome?_eq_some hn
  obtain ⟨⟨h', r⟩, hs, heq⟩ := Option.map_eq_some_iff.mp hx
  obtain ⟨rfl, rfl⟩ := Prod.mk.inj heq
  exact ⟨r, hs⟩

theorem acquire_of_taken {target : TargetHandle}
    (htaken : w.registry.sessions.get? (w.tree.idOf target) ≠ none) :
    w.acquire c target = w.finish c (.error (.duplicateTarget (w.tree.idOf target))) := by
  have hcontains : w.registry.sessions.contains (w.tree.idOf target) = true :=
    Option.isSome_iff_ne_none.mpr htaken
  simp only [acquire, Registry.register, hcontains, if_true]

theorem acquire_of_free {target : TargetHandle}
    (hfree : w.registry.sessions.get? (w.tree.idOf target) = none) :
    w.acquire c target = match (w.enroll target).nearest? target with
      | some (a, h) =>
        ((w.enroll target).suspend c (.awaitingAncestor target w.registry.next a h), [])
      | none => (w.enroll target).request c target w.registry.next w.root := by
  have hcontains : w.registry.sessions.contains (w.tree.idOf target) = false := by
    rw [Index.contains, hfree]
    rfl
  simp only [acquire, Registry.register, hcontains, Bool.false_eq_true, if_false]
  rfl

/-- The record is there whichever way the call goes on. -/
theorem registry_acquire_of_free {target : TargetHandle}
    (hfree : w.registry.sessions.get? (w.tree.idOf target) = none) :
    (w.acquire c target).1.registry = (w.enroll target).registry := by
  rw [acquire_of_free hfree]
  split <;> rfl

theorem connection_cases (w : World) (c : CallId) (id : TargetId) :
    (∃ h r, w.registry.session? id = some (h, r) ∧
      w.connection c id = (w.suspend c (.listening id h), [])) ∨
    ∃ f, w.connection c id = w.finish c (.error f) := by
  rw [connection]
  split
  · exact Or.inr ⟨_, rfl⟩
  · next h r hs => exact Or.inl ⟨h, r, hs, rfl⟩

/-- A connection that is brought is taken by a record that waits for it, or it is refused and
nothing happens to any record. -/
theorem complete_cases (w : World) (c : CallId) (p : PendingConnection) (args : Launch) :
    (∃ id h r, args.target = some id ∧ p.traffic.introduction.isSome = true ∧
      w.registry.session? id = some (h, r) ∧ r.state = .pendingAcquire ∧
      w.complete c p args =
        (({ w with registry := w.registry.revise h (r.matched p.id p.traffic) } : World).suspend c
          (.gated id h), [])) ∨
    ∃ f, w.complete c p args = w.finish c (.error f) := by
  rw [complete]
  split
  · exact Or.inr ⟨_, rfl⟩
  · next id hid =>
    split
    · exact Or.inr ⟨_, rfl⟩
    · next hintroduced =>
      split
      · exact Or.inr ⟨_, rfl⟩
      · next h g hmatch =>
        obtain ⟨r, hs, hstate, rfl⟩ := Registry.match?_eq_ok hmatch
        refine Or.inl ⟨id, h, r, hid, ?_, hs, hstate, rfl⟩
        exact Option.isSome_iff_ne_none.mpr (by simpa using hintroduced)

/-- Whoever tells an adapter something goes by no record. -/
theorem records_ask {todo : List AdapterCall} {target : TargetHandle}
    (hcall : (w.ask c target todo).1.calls.get? c = some call) : call.records = [] := by
  cases todo with
  | nil => cases (get?_finish _ _ _).symm.trans hcall
  | cons what rest =>
    obtain rfl := Option.some.inj ((Index.get?_insert_self _ _ _).symm.trans hcall)
    rfl

theorem records_replay {target : TargetHandle}
    (hcall : (w.replay c target).1.calls.get? c = some call) : call.records = [] := by
  rw [replay] at hcall
  dsimp only at hcall
  split at hcall
  · cases (get?_finish _ _ _).symm.trans hcall
  · exact records_ask hcall

end World
end Session
end DebugTree
