import DebugTree.Proofs.Session.Waiting

/-!
# From a call for a session to its request and its connection

A call to `acquire` that finds its target's name free registers a record and is an *acquisition*
from then on.  It may have to wait for the connection of the nearest ancestor; then its request goes
out over that connection, and it waits for the editor to take it and for its own record to be
matched.  `Proceeds` lists what a step can do to it, and `Cause` why anything is seen of a step at
all, so who asks where a request came from finds an acquisition and not a step.
-/

namespace DebugTree
namespace Session

open Protocol

/-- The target of a call to `acquire`, and the record that it has registered. -/
def Call.acquires? : Call → Option (TargetHandle × RecordHandle)
  | .awaitingAncestor target own _ _ | .requesting target own _ | .expecting target own =>
    some (target, own)
  | .listening _ _ | .gated _ _ | .replaying _ _ _ => none

theorem Call.acquires?_of_records {call : Call} (hnone : call.records = []) :
    call.acquires? = none := by
  cases call <;> first | rfl | cases hnone

/-- The request for the session of a target. -/
def startDebugging (debugType name : String) (id : TargetId) : StartDebugging :=
  ⟨.attach, ⟨debugType, name, id, .empty⟩⟩

namespace Registry

variable {g : Registry} {id : TargetId} {h : RecordHandle}

theorem session?_enrolled (hu : g.Upright) (target : TargetHandle) (name : String) {a : TargetId}
    (ha : a ≠ id) : (g.enrolled target id name).session? a = g.session? a := by
  have hsessions : (g.enrolled target id name).sessions.get? a = g.sessions.get? a :=
    (Index.get?_insert _ _ _ _).trans (if_neg (Ne.symm ha))
  rw [session?, session?, hsessions]
  cases hid : g.sessions.get? a with
  | none => rfl
  | some h =>
    obtain ⟨r, hr, -⟩ := hu.named a h hid
    have hne : g.next ≠ h := by
      rintro rfl
      cases hr.symm.trans hu.record?_next
    have hrecord : (g.enrolled target id name).record? h = g.record? h :=
      (Index.get?_insert _ _ _ _).trans (if_neg hne)
    rw [Option.bind_some, Option.bind_some, hrecord]

/-- A new record keeps its own target, and nobody else that was not kept before. -/
theorem registered_enrolled (hu : g.Upright) (hfree : g.sessions.get? id = none)
    (target : TargetHandle) (name : String) :
    (g.enrolled target id name).registered = g.registered ++ [.fresh target id name] := by
  have hvalues : (g.enrolled target id name).sessions.values = g.sessions.values ++ [g.next] := by
    rw [Index.values, enrolled, Index.entries_insert_of_get?_eq_none hfree, List.map_append]
    rfl
  have hold : ∀ h ∈ g.sessions.values, (g.enrolled target id name).record? h = g.record? h := by
    intro h hh
    obtain ⟨⟨id', h'⟩, hmem, rfl⟩ := List.mem_map.mp hh
    obtain ⟨r, hr, -⟩ := hu.named id' h' ((Index.get?_eq_some_iff hu.distinct).mpr hmem)
    refine (Index.get?_insert _ _ _ _).trans (if_neg ?_)
    rintro rfl
    cases hr.symm.trans hu.record?_next
  have hnew : (g.enrolled target id name).record? g.next = some (.fresh target id name) :=
    Index.get?_insert_self _ _ _
  rw [registered, hvalues, List.filterMap_append, List.filterMap_congr hold]
  simp only [List.filterMap_cons, hnew, List.filterMap_nil]
  rfl

end Registry

namespace World

variable {w : World} {c : CallId} {call : Call} {a : Action} {target : TargetHandle}
  {own h : RecordHandle} {k : ConnectionId}

/-! ## The nearest ancestor -/

/-- Nobody but the target itself is kept by its record. -/
theorem mem_kept_enroll (hu : w.Upright)
    (hfree : w.registry.sessions.get? (w.tree.idOf target) = none) {p : TargetHandle}
    (hne : p ≠ target) : p ∈ (w.enroll target).kept ↔ p ∈ w.kept := by
  have hregistered := Registry.registered_enrolled hu.registry hfree target
    (((w.tree.target? target).map (·.name)).getD "")
  have hmap : (w.enroll target).registry.registered.map (·.target) =
      w.registry.registered.map (·.target) ++ [target] := by
    rw [enroll, hregistered, List.map_append]
    rfl
  rw [kept, kept, hmap]
  simp [enroll, hne]

/-- A target is not among its own ancestors, so its own record does not change who is nearest. -/
theorem nearest?_enroll (hu : w.Upright)
    (hfree : w.registry.sessions.get? (w.tree.idOf target) = none) :
    (w.enroll target).nearest? target = w.nearest? target := by
  have hancestors : w.tree.ancestors (w.enroll target).kept target =
      w.tree.ancestors w.kept target := by
    refine TargetTree.ancestors_congr fun p hp => ?_
    have hne : p ≠ target := by
      rintro rfl
      exact Nat.lt_irrefl _ hp
    have hkept : (w.enroll target).kept.contains p = w.kept.contains p := by
      rw [Bool.eq_iff_iff, List.contains_iff_mem, List.contains_iff_mem]
      exact mem_kept_enroll hu hfree hne
    rw [TargetTree.isAlive, TargetTree.isAlive, hkept]
  rw [nearest?, nearest?, show (w.enroll target).tree = w.tree from rfl, hancestors,
    ← List.head?_filterMap, ← List.head?_filterMap]
  refine congrArg List.head? (List.filterMap_congr fun p hp => ?_)
  rw [enroll, Registry.session?_enrolled hu.registry _ _ (hu.tree.idOf_ne_of_mem_ancestors hp)]

/-! ## The steps of an acquisition -/

/-- What a step that does not put an end to a call to `acquire` does to it. -/
inductive Proceeds (w : World) (c : CallId) (call : Call) (target : TargetHandle)
    (own : RecordHandle) : World × List Event → Prop
  /-- Nothing. -/
  | stays {w' : World} {seen : List Event} (hcalls : w'.calls.get? c = some call)
      (hseen : ∀ e ∈ seen, e.call ≠ c) : Proceeds w c call target own (w', seen)
  /-- An ancestor has got its connection, and the request goes out over it. -/
  | routed {ancestor : TargetHandle} {h : RecordHandle} {route : ConnectionId}
      (hcall : call = .awaitingAncestor target own ancestor h)
      (hroute : w.registry.IsConnected h route) :
      Proceeds w c call target own (w.request c target own route)
  /-- The editor has taken the request. -/
  | taken {route : ConnectionId} (hcall : call = .requesting target own route) :
      Proceeds w c call target own (w.suspend c (.expecting target own), [])
  /-- The record has got its connection. -/
  | connected {k : ConnectionId} (hcall : call = .expecting target own)
      (hk : w.registry.IsConnected own k) :
      Proceeds w c call target own (w.finish c (.ok (.connected k)))
  /-- The call ends badly. -/
  | fails {w' : World} (f : Fault) (hcalls : w'.calls.get? c = none) :
      Proceeds w c call target own (w', [.finished c (.error f)])

/-- **How an acquisition goes on.** -/
theorem proceeds_act (hcall : w.calls.get? c = some call)
    (hacquires : call.acquires? = some (target, own)) (hstays : a.displaced? ≠ some c) :
    w.Proceeds c call target own (w.act a) := by
  by_cases ha : a.call? = some c
  · rcases Action.eq_resume_or_answer ha hstays with rfl | ⟨reply, rfl⟩
    · have hresumed := resumed hcall
      rw [act]
      generalize w.resume c = x at hresumed ⊢
      cases hresumed with
      | rests => exact .stays hcall fun _ he => absurd he List.not_mem_nil
      | routed hh hroute =>
        subst hh
        cases hacquires
        exact .routed rfl hroute
      | connected hh hk =>
        rcases hh with ⟨target, rfl⟩ | ⟨id, rfl⟩
        · cases hacquires
          exact .connected rfl hk
        · cases hacquires
      | completed hh => subst hh; cases hacquires
      | refused => exact .fails _ (Index.get?_erase_self _ _)
      | stranded => exact .fails _ (Index.get?_erase_self _ _)
    · have hanswered := answered hcall reply
      rw [act]
      generalize w.answer c reply = x at hanswered ⊢
      cases hanswered with
      | rests => exact .stays hcall fun _ he => absurd he List.not_mem_nil
      | taken hh =>
        subst hh
        cases hacquires
        exact .taken rfl
      | refused => exact .fails _ (Index.get?_erase_self _ _)
      | told hh => subst hh; cases hacquires
      | failed => exact .fails _ (Index.get?_erase_self _ _)
  · refine .stays ((get?_calls_act ha).trans hcall) fun e he hec => ha ?_
    rw [call?_of_mem_act he, hec]

/-- A call that has gone on as an acquisition was one before. -/
theorem exists_acquires?_of_resume (hcall : (w.resume c).1.calls.get? c = some call)
    {x : TargetHandle × RecordHandle} (hacquires : call.acquires? = some x) :
    ∃ call', w.calls.get? c = some call' ∧ call'.acquires? = some x := by
  cases hcall' : w.calls.get? c with
  | none =>
    rw [resume_of_none hcall', hcall'] at hcall
    cases hcall
  | some call' =>
    refine ⟨call', rfl, ?_⟩
    have hresumed := resumed hcall'
    generalize w.resume c = x at hresumed hcall
    cases hresumed with
    | rests => rwa [Option.some.inj (hcall'.symm.trans hcall)]
    | routed hh =>
      rw [eq_of_get?_suspend hcall] at hacquires
      rw [hh]
      exact hacquires
    | connected | completed | refused | stranded => exact absurd hcall get?_calls_finish_ne

/-- A call that has been answered as an acquisition was one before. -/
theorem exists_acquires?_of_answer {reply : Except Fault Unit}
    (hcall : (w.answer c reply).1.calls.get? c = some call)
    {x : TargetHandle × RecordHandle} (hacquires : call.acquires? = some x) :
    ∃ call', w.calls.get? c = some call' ∧ call'.acquires? = some x := by
  cases hcall' : w.calls.get? c with
  | none =>
    rw [answer_of_none hcall', hcall'] at hcall
    cases hcall
  | some call' =>
    refine ⟨call', rfl, ?_⟩
    have hanswered := answered hcall' reply
    generalize w.answer c reply = x at hanswered hcall
    cases hanswered with
    | rests => rwa [Option.some.inj (hcall'.symm.trans hcall)]
    | taken hh =>
      rw [eq_of_get?_suspend hcall] at hacquires
      rw [hh]
      exact hacquires
    | told =>
      rw [Call.acquires?_of_records (records_ask hcall)] at hacquires
      cases hacquires
    | refused | failed => exact absurd hcall get?_calls_finish_ne

/-- An acquisition that goes on was under way before. -/
theorem exists_acquires?_of_act (hcall : (w.act a).1.calls.get? c = some call)
    {x : TargetHandle × RecordHandle} (hacquires : call.acquires? = some x)
    (hstays : a.displaced? ≠ some c) :
    ∃ call', w.calls.get? c = some call' ∧ call'.acquires? = some x := by
  by_cases ha : a.call? = some c
  · rcases Action.eq_resume_or_answer ha hstays with rfl | ⟨reply, rfl⟩
    · exact exists_acquires?_of_resume hcall hacquires
    · exact exists_acquires?_of_answer hcall hacquires
  · exact ⟨call, (get?_calls_act ha).symm.trans hcall, hacquires⟩

/-- An acquisition waits for its nearest ancestor first, or goes over the root connection at
once. -/
theorem acquire_cases (hu : w.Upright)
    (hfree : w.registry.sessions.get? (w.tree.idOf target) = none) (c : CallId) :
    (∃ ancestor h, w.nearest? target = some (ancestor, h) ∧ w.acquire c target =
      ((w.enroll target).suspend c (.awaitingAncestor target w.registry.next ancestor h), [])) ∨
    (w.nearest? target = none ∧
      w.acquire c target = (w.enroll target).request c target w.registry.next w.root) := by
  rw [acquire_of_free hfree, nearest?_enroll hu hfree]
  cases hn : w.nearest? target with
  | none => exact Or.inr ⟨rfl, rfl⟩
  | some x => exact Or.inl ⟨x.1, x.2, rfl, rfl⟩

/-- The acquisition that a call to `acquire` begins goes by a new record. -/
theorem acquires?_of_acquire (hu : w.Upright) {target' : TargetHandle}
    (hcall : (w.acquire c target').1.calls.get? c = some call) :
    w.registry.sessions.get? (w.tree.idOf target') = none ∧
      call.acquires? = some (target', w.registry.next) := by
  by_cases hfree : w.registry.sessions.get? (w.tree.idOf target') = none
  · refine ⟨hfree, ?_⟩
    rcases acquire_cases hu hfree c with ⟨ancestor, h, -, heq⟩ | ⟨-, heq⟩
    · rw [heq] at hcall
      rw [eq_of_get?_suspend hcall]
      rfl
    · rw [heq] at hcall
      rw [eq_of_get?_suspend hcall]
      rfl
  · rw [acquire_of_taken hfree] at hcall
    exact absurd hcall get?_calls_finish_ne

/-- Only `acquire` begins an acquisition, and its record is new. -/
theorem begins_of_acquires? (hu : w.Upright) (hcall : (w.act a).1.calls.get? c = some call)
    (hacquires : call.acquires? = some (target, own)) (ha : a.displaced? = some c) :
    a = .acquire c target ∧ w.registry.sessions.get? (w.tree.idOf target) = none ∧
      own = w.registry.next := by
  cases a with
  | acquire c' target' =>
    cases ha
    obtain ⟨hfree, hown⟩ := acquires?_of_acquire hu hcall
    rw [hacquires, Option.some.injEq, Prod.mk.injEq] at hown
    obtain ⟨rfl, rfl⟩ := hown
    exact ⟨rfl, hfree, rfl⟩
  | connection c' id =>
    cases ha
    rw [act] at hcall
    rcases w.connection_cases c id with ⟨record, r, -, heq⟩ | ⟨f, heq⟩
    · rw [heq] at hcall
      rw [eq_of_get?_suspend hcall] at hacquires
      cases hacquires
    · rw [heq] at hcall
      exact absurd hcall get?_calls_finish_ne
  | complete c' p args =>
    cases ha
    rw [act] at hcall
    rcases w.complete_cases c p args with ⟨id, record, r, -, -, -, -, heq⟩ | ⟨f, heq⟩
    · rw [heq] at hcall
      rw [eq_of_get?_suspend hcall] at hacquires
      cases hacquires
    · rw [heq] at hcall
      exact absurd hcall get?_calls_finish_ne
  | replay c' target' =>
    cases ha
    rw [Call.acquires?_of_records (records_replay hcall)] at hacquires
    cases hacquires
  | abort c' =>
    cases ha
    cases (Index.get?_erase_self w.calls c).symm.trans hcall
  | _ => cases ha

/-! ## What is seen of a step -/

/-- The request that goes out for a target. -/
def demand (w : World) (target : TargetHandle) : StartDebugging :=
  startDebugging w.debugType (((w.tree.target? target).map (·.name)).getD "") (w.tree.idOf target)

theorem demand_of_label? {id : TargetId} {name : String}
    (hl : w.tree.label? target = some (id, name)) :
    w.demand target = startDebugging w.debugType name id := by
  obtain ⟨x, hx, heq⟩ := Option.map_eq_some_iff.mp hl
  obtain ⟨rfl, rfl⟩ := Prod.mk.inj heq
  rw [demand, hx, TargetTree.idOf_of_target? hx]
  rfl

/-- Why an event is seen. -/
inductive Cause (w : World) (a : Action) : Event → Prop
  /-- An acquisition without ancestors begins. -/
  | begins {c : CallId} {target : TargetHandle} (ha : a = .acquire c target)
      (hfree : w.registry.sessions.get? (w.tree.idOf target) = none)
      (hnearest : w.nearest? target = none) : Cause w a (.requested c w.root (w.demand target))
  /-- An acquisition has got the connection of an ancestor. -/
  | routed {c : CallId} {target ancestor : TargetHandle} {own h : RecordHandle}
      {route : ConnectionId} (ha : a = .resume c)
      (hcall : w.calls.get? c = some (.awaitingAncestor target own ancestor h))
      (hroute : w.registry.IsConnected h route) :
      Cause w a (.requested c route (w.demand target))
  /-- A record has got its connection. -/
  | connected {c : CallId} {h : RecordHandle} {k : ConnectionId} (ha : a = .resume c)
      (hcall : (∃ target, w.calls.get? c = some (.expecting target h)) ∨
        ∃ id, w.calls.get? c = some (.listening id h))
      (hk : w.registry.IsConnected h k) : Cause w a (.finished c (.ok (.connected k)))
  | completed (c : CallId) : Cause w a (.finished c (.ok .completed))
  | replayed (c : CallId) (done : Bool) : Cause w a (.finished c (.ok (.replayed done)))
  | fails (c : CallId) (f : Fault) : Cause w a (.finished c (.error f))
  | asks (c : CallId) (what : AdapterCall) : Cause w a (.asked c what)

theorem cause_of_mem_ask {w' : World} {todo : List AdapterCall} {e : Event}
    (he : e ∈ (w'.ask c target todo).2) : w.Cause a e := by
  cases todo with
  | nil => rw [List.mem_singleton.mp he]; exact .replayed c _
  | cons what rest => rw [List.mem_singleton.mp he]; exact .asks c what

theorem cause_of_mem_acquire (hu : w.Upright) {e : Event}
    (he : e ∈ (w.acquire c target).2) : w.Cause (.acquire c target) e := by
  by_cases hfree : w.registry.sessions.get? (w.tree.idOf target) = none
  · rcases acquire_cases hu hfree c with ⟨ancestor, h, -, heq⟩ | ⟨hnearest, heq⟩
    · rw [heq] at he
      cases he
    · rw [heq] at he
      rw [List.mem_singleton.mp he]
      exact .begins rfl hfree hnearest
  · rw [acquire_of_taken hfree] at he
    rw [List.mem_singleton.mp he]
    exact .fails c _

theorem cause_of_mem_resume {e : Event} (he : e ∈ (w.resume c).2) : w.Cause (.resume c) e := by
  cases hcall : w.calls.get? c with
  | none =>
    rw [resume_of_none hcall] at he
    cases he
  | some call =>
    have hresumed := resumed hcall
    generalize w.resume c = x at hresumed he
    cases hresumed with
    | rests => cases he
    | routed hh hroute =>
      rw [List.mem_singleton.mp he]
      exact .routed rfl (hh ▸ hcall) hroute
    | connected hh hk =>
      rw [List.mem_singleton.mp he]
      refine .connected rfl (hh.imp ?_ ?_) hk
      · rintro ⟨target, rfl⟩
        exact ⟨target, hcall⟩
      · rintro ⟨id, rfl⟩
        exact ⟨id, hcall⟩
    | completed => rw [List.mem_singleton.mp he]; exact .completed c
    | refused => rw [List.mem_singleton.mp he]; exact .fails c _
    | stranded => rw [List.mem_singleton.mp he]; exact .fails c _

theorem cause_of_mem_answer {reply : Except Fault Unit} {e : Event}
    (he : e ∈ (w.answer c reply).2) : w.Cause (.answer c reply) e := by
  cases hcall : w.calls.get? c with
  | none =>
    rw [answer_of_none hcall] at he
    cases he
  | some call =>
    have hanswered := answered hcall reply
    generalize w.answer c reply = x at hanswered he
    cases hanswered with
    | rests => cases he
    | taken => cases he
    | refused => rw [List.mem_singleton.mp he]; exact .fails c _
    | told => exact cause_of_mem_ask he
    | failed => rw [List.mem_singleton.mp he]; exact .fails c _

/-- **Nothing is seen without a cause.** -/
theorem cause_of_mem_act (hu : w.Upright) {e : Event} (he : e ∈ (w.act a).2) : w.Cause a e := by
  cases a with
  | acquire c target => exact cause_of_mem_acquire hu he
  | resume c => exact cause_of_mem_resume he
  | answer c reply => exact cause_of_mem_answer he
  | connection c id =>
    rw [act] at he
    rcases w.connection_cases c id with ⟨record, r, -, heq⟩ | ⟨f, heq⟩
    · rw [heq] at he
      cases he
    · rw [heq] at he
      rw [List.mem_singleton.mp he]
      exact .fails c f
  | complete c p args =>
    rw [act] at he
    rcases w.complete_cases c p args with ⟨id, record, r, -, -, -, -, heq⟩ | ⟨f, heq⟩
    · rw [heq] at he
      cases he
    · rw [heq] at he
      rw [List.mem_singleton.mp he]
      exact .fails c f
  | replay c target =>
    rw [act, replay] at he
    dsimp only at he
    split at he
    · rw [List.mem_singleton.mp he]
      exact .replayed c false
    · exact cause_of_mem_ask he
  | addTarget id name kind parent => cases call?_of_mem_act he
  | removeTarget id => cases call?_of_mem_act he
  | forget id => cases call?_of_mem_act he
  | hold target => cases call?_of_mem_act he
  | letGo target => cases call?_of_mem_act he
  | abort c => cases he
  | release id => cases he
  | releaseSubtree target => cases he

end World
end Session
end DebugTree
