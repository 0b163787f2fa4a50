import DebugTree.Proofs.Session.Acquisition

/-!
# Whose request it is

Every request for a nested session goes out for a call to `acquire` that has registered a record for
the target with which the request is tagged, some steps before (`request_registered_iff`).  Whether
that record is *still* registered when the request goes out is another matter.  The call looks
before it begins to wait for an ancestor and not afterwards, so a release of the target's name in
between goes unnoticed: the request goes out all the same, for a record that is gone.

That is the only way.  The record of the call is registered when its request goes out exactly if no
step in between has released its name.
-/

namespace DebugTree
namespace Session

open Protocol

namespace World

variable {w : World} {actions : List Action} {m n : Nat} {c : CallId} {call : Call} {a : Action}
  {target : TargetHandle} {own h : RecordHandle} {id : TargetId}

/-! ## Where an acquisition comes from -/

/-- A step begins a call to `acquire` under whose target's name nothing is registered. -/
structure AcquiresAt (w : World) (actions : List Action) (m : Nat) (c : CallId)
    (target : TargetHandle) : Prop where
  action : actions[m]? = some (.acquire c target)
  free : (w.before actions m).registry.sessions.get? ((w.before actions m).tree.idOf target) = none

/-- The record that the acquisition of a step registers. -/
def recordAt (w : World) (actions : List Action) (m : Nat) : RecordHandle :=
  (w.before actions m).registry.next

theorem Undisturbed.succ (hstays : Undisturbed actions c m n)
    (hn : ∀ a, actions[n]? = some a → a.displaced? ≠ some c) : Undisturbed actions c m (n + 1) := by
  intro k a hk hkn ha
  rcases Nat.lt_succ_iff_lt_or_eq.mp hkn with hkn | rfl
  · exact hstays k a hk hkn ha
  · exact hn a ha

/-- Every acquisition that is under way was begun by a step, and nothing has broken it off since. -/
theorem Upright.exists_acquiresAt (hu : w.Upright) (hcalls : w.calls = .empty)
    (hcall : (w.before actions n).calls.get? c = some call)
    (hacquires : call.acquires? = some (target, own)) :
    ∃ m, m < n ∧ w.AcquiresAt actions m c target ∧ own = w.recordAt actions m ∧
      Undisturbed actions c (m + 1) n := by
  induction n generalizing call with
  | zero =>
    rw [before_zero, hcalls] at hcall
    cases hcall
  | succ n ih =>
    cases hn : actions[n]? with
    | none =>
      rw [before_succ_of_none hn] at hcall
      obtain ⟨m, hmn, hbegins, hown, hstays⟩ := ih hcall hacquires
      refine ⟨m, Nat.lt_succ_of_lt hmn, hbegins, hown, hstays.succ fun a ha => ?_⟩
      rw [hn] at ha
      cases ha
    | some a =>
      rw [before_succ hn] at hcall
      by_cases ha : a.displaced? = some c
      · obtain ⟨rfl, hfree, hown⟩ :=
          begins_of_acquires? (hu.before actions n) hcall hacquires ha
        refine ⟨n, Nat.lt_succ_self n, ⟨hn, hfree⟩, hown, fun k a hk hkn => ?_⟩
        exact absurd hkn (Nat.not_lt_of_le hk)
      · obtain ⟨call', hcall', hacquires'⟩ := exists_acquires?_of_act hcall hacquires ha
        obtain ⟨m, hmn, hbegins, hown, hstays⟩ := ih hcall' hacquires'
        refine ⟨m, Nat.lt_succ_of_lt hmn, hbegins, hown, hstays.succ fun a' ha' => ?_⟩
        rw [hn] at ha'
        cases ha'
        exact ha

/-! ## What becomes of its record -/

/-- The names that an action releases. -/
def releasedIds (w : World) : Action → List TargetId
  | .release id => [id]
  | .releaseSubtree target => w.subtreeIds target
  | .resume c =>
    match w.calls.get? c with
    | some (.awaitingAncestor target _ _ h) =>
      match w.registry.outcome? h .connection with
      | some (.error _) => [w.tree.idOf target]
      | _ => []
    | _ => []
  | .answer c (.error _) =>
    match w.calls.get? c with
    | some (.requesting target _ _) => [w.tree.idOf target]
    | _ => []
  | _ => []

theorem sessions_ask (w : World) (c : CallId) (target : TargetHandle) (todo : List AdapterCall) :
    (w.ask c target todo).1.registry.sessions = w.registry.sessions := by
  cases todo with
  | nil =>
    change (w.registry.ready (w.tree.idOf target)).2.sessions = w.registry.sessions
    rw [Registry.ready]
    split <;> rfl
  | cons what rest => rfl

theorem sessions_failed (g : Registry) (id : TargetId) (reason : String) :
    (g.failed id reason).sessions = g.sessions := by
  rw [Registry.failed]
  split <;> rfl

theorem sessions_replay (w : World) (c : CallId) (target : TargetHandle) :
    (w.replay c target).1.registry.sessions = w.registry.sessions := by
  have htake : (w.registry.takeTraffic (w.tree.idOf target)).2.sessions = w.registry.sessions := by
    rw [Registry.takeTraffic]
    split <;> rfl
  rw [replay]
  dsimp only
  split
  · exact htake
  · exact (sessions_ask _ _ _ _).trans htake

theorem registry_addTarget (w : World) (id : TargetId) (name : String) (kind : TargetKind)
    (parent : Option TargetId) :
    (w.act (.addTarget id name kind parent)).1.registry = w.registry := by
  rw [act]
  split
  · next w' hadd =>
    rw [addTarget] at hadd
    cases htree : w.tree.add id name kind parent with
    | error f => rw [htree] at hadd; cases hadd
    | ok x => rw [htree] at hadd; cases hadd; rfl
  · rfl

theorem sessions_connection (w : World) (c : CallId) (id : TargetId) :
    (w.connection c id).1.registry.sessions = w.registry.sessions := by
  rcases w.connection_cases c id with ⟨record, r, -, heq⟩ | ⟨f, heq⟩ <;> rw [heq] <;> rfl

theorem sessions_complete (w : World) (c : CallId) (p : PendingConnection) (args : Launch) :
    (w.complete c p args).1.registry.sessions = w.registry.sessions := by
  rcases w.complete_cases c p args with ⟨id, record, r, -, -, -, -, heq⟩ | ⟨f, heq⟩ <;>
    rw [heq] <;> rfl

/-- On the way from one world to another these names lose their records; the others keep them. -/
def Releases (w w' : World) (ids : List TargetId) : Prop :=
  ∀ id h, w.registry.sessions.get? id = some h →
    w'.registry.sessions.get? id = if id ∈ ids then none else some h

theorem releases_nil {w' : World} (hsame : w'.registry.sessions = w.registry.sessions) :
    w.Releases w' [] := by
  intro id h hid
  rw [if_neg List.not_mem_nil, hsame, hid]

theorem releases_giveUp (w : World) (c : CallId) (target : TargetHandle) (f : Fault) :
    w.Releases (w.giveUp c target f).1 [w.tree.idOf target] := by
  intro id h hid
  refine (Registry.sessions_release _ _ _).trans ?_
  rw [hid]
  simp only [List.mem_singleton, eq_comm]


theorem releases_acquire (w : World) (c : CallId) (target : TargetHandle) :
    w.Releases (w.acquire c target).1 [] := by
  by_cases hfree : w.registry.sessions.get? (w.tree.idOf target) = none
  · intro id h hid
    rw [registry_acquire_of_free hfree, enroll, Registry.sessions_enrolled, if_neg, hid,
      if_neg List.not_mem_nil]
    rintro rfl
    rw [hfree] at hid
    cases hid
  · rw [acquire_of_taken hfree]
    exact releases_nil rfl

theorem releases_resume (w : World) (c : CallId) :
    w.Releases (w.resume c).1 (w.releasedIds (.resume c)) := by
  cases hcall : w.calls.get? c with
  | none =>
    rw [resume_of_none hcall, releasedIds, hcall]
    exact releases_nil rfl
  | some call =>
    have hresumed := resumed hcall
    generalize w.resume c = x at hresumed ⊢
    rw [releasedIds, hcall]
    cases hresumed with
    | rests hopen =>
      cases call with
      | awaitingAncestor target own ancestor h =>
        simp only [hopen h .connection rfl]
        exact releases_nil rfl
      | _ => exact releases_nil rfl
    | routed hh hroute =>
      subst hh
      simp only [hroute.outcome?_eq]
      exact releases_nil rfl
    | connected hh => rcases hh with ⟨target, rfl⟩ | ⟨id, rfl⟩ <;> exact releases_nil rfl
    | completed hh =>
      subst hh
      exact releases_nil rfl
    | refused id hh =>
      cases call with
      | awaitingAncestor target own ancestor h => exact absurd rfl (hh target own ancestor h)
      | _ => exact releases_nil rfl
    | stranded hh hreason =>
      subst hh
      simp only [hreason]
      exact releases_giveUp w c _ _

theorem releases_answer (w : World) (c : CallId) (reply : Except Fault Unit) :
    w.Releases (w.answer c reply).1 (w.releasedIds (.answer c reply)) := by
  cases hcall : w.calls.get? c with
  | none =>
    rw [answer_of_none hcall]
    cases reply <;> simp only [releasedIds, hcall] <;> exact releases_nil rfl
  | some call =>
    have hanswered := answered hcall reply
    generalize w.answer c reply = x at hanswered ⊢
    cases hanswered with
    | rests hh =>
      cases call with
      | requesting target own route => exact absurd rfl (hh target own route)
      | _ => cases reply <;> simp only [releasedIds, hcall] <;> exact releases_nil rfl
    | taken hh hreply =>
      subst hh hreply
      exact releases_nil rfl
    | refused hh hreply =>
      subst hh hreply
      simp only [releasedIds, hcall]
      exact releases_giveUp w c _ _
    | told hh =>
      subst hh
      cases reply <;> simp only [releasedIds, hcall] <;>
        exact releases_nil (sessions_ask _ _ _ _)
    | failed hh =>
      subst hh
      cases reply <;> simp only [releasedIds, hcall] <;>
        exact releases_nil (sessions_failed _ _ _)

/-- **A name keeps its record until it is released.** -/
theorem releases_act (w : World) (a : Action) : w.Releases (w.act a).1 (w.releasedIds a) := by
  cases a with
  | addTarget id name kind parent =>
    exact releases_nil (congrArg Registry.sessions (registry_addTarget w id name kind parent))
  | removeTarget id => exact releases_nil rfl
  | forget id => exact releases_nil rfl
  | hold target => exact releases_nil rfl
  | letGo target => exact releases_nil rfl
  | abort c => exact releases_nil rfl
  | acquire c target => exact releases_acquire w c target
  | connection c id => exact releases_nil (sessions_connection w c id)
  | complete c p args => exact releases_nil (sessions_complete w c p args)
  | replay c target => exact releases_nil (sessions_replay w c target)
  | resume c => exact releases_resume w c
  | answer c reply => exact releases_answer w c reply
  | release id' =>
    intro id h hid
    refine (Registry.sessions_release _ _ _).trans ?_
    rw [releasedIds, hid]
    simp only [List.mem_singleton, eq_comm]
  | releaseSubtree target =>
    intro id h hid
    refine (Registry.sessions_releaseAll _ _ _).trans ?_
    rw [releasedIds, hid]

/-- The step that begins an acquisition leaves its record registered. -/
theorem AcquiresAt.session?_succ (hbegins : w.AcquiresAt actions m c target) {name : String}
    (hlabel : (w.before actions m).tree.label? target = some (id, name)) :
    (w.before actions (m + 1)).registry.session? id =
      some (w.recordAt actions m, .fresh target id name) := by
  obtain ⟨x, hx, heq⟩ := Option.map_eq_some_iff.mp hlabel
  obtain ⟨rfl, rfl⟩ := Prod.mk.inj heq
  have hregistry : (w.before actions (m + 1)).registry =
      (w.before actions m).registry.enrolled target x.id x.name := by
    rw [before_succ hbegins.action, act, registry_acquire_of_free hbegins.free, enroll, hx,
      TargetTree.idOf_of_target? hx]
    rfl
  rw [hregistry, Registry.session?_eq_some_iff, Registry.sessions_enrolled, if_pos rfl,
    Registry.record?_enrolled, recordAt, if_pos rfl]
  exact ⟨rfl, rfl⟩

/-- A record that has left the registry does not come back. -/
theorem Upright.get?_sessions_before (hu : w.Upright) {l : Nat} {r : Record} (hlm : l ≤ m)
    (hmn : m ≤ n) (hr : (w.before actions l).registry.record? h = some r) (hid : r.id = id)
    (hstill : (w.before actions n).registry.sessions.get? id = some h) :
    (w.before actions m).registry.sessions.get? id = some h := by
  obtain ⟨r', hr', hlater⟩ := (hu.later_before hlm).registry.record h r hr
  have hreg := (hu.later_before hmn).registry.gone h r' hr' ⟨id, hstill⟩
  rw [← hid, ← hlater.id]
  exact ((hu.before actions m).registry.isRegistered_iff hr').mp hreg

/-- **The record of an acquisition stays registered until its name is released.** -/
theorem AcquiresAt.registered_iff (hbegins : w.AcquiresAt actions m c target) (hu : w.Upright)
    {name : String} (hlabel : (w.before actions m).tree.label? target = some (id, name))
    (hmn : m < n) :
    (w.before actions n).registry.sessions.get? id = some (w.recordAt actions m) ↔
      ∀ k a, m < k → k < n → actions[k]? = some a → id ∉ (w.before actions k).releasedIds a := by
  obtain ⟨hstart, hrecord⟩ := Registry.session?_eq_some_iff.mp (hbegins.session?_succ hlabel)
  constructor
  · intro hstill k a hmk hkn hk hmem
    have hk' : (w.before actions k).registry.sessions.get? id = some (w.recordAt actions m) :=
      hu.get?_sessions_before hmk (Nat.le_of_lt hkn) hrecord rfl hstill
    have hk'' : (w.before actions (k + 1)).registry.sessions.get? id =
        some (w.recordAt actions m) :=
      hu.get?_sessions_before (Nat.le_succ_of_le hmk) hkn hrecord rfl hstill
    rw [before_succ hk, releases_act _ a _ _ hk', if_pos hmem] at hk''
    cases hk''
  · intro hnever
    induction hmn with
    | refl => exact hstart
    | @step n hmn ih =>
      have hstill := ih fun k a hmk hkn => hnever k a hmk (Nat.lt_succ_of_lt hkn)
      cases hn : actions[n]? with
      | none => rwa [before_succ_of_none hn]
      | some a =>
        rw [before_succ hn, releases_act _ a _ _ hstill, if_neg]
        exact hnever n a hmn (Nat.lt_succ_self n) hn

/-- A request goes out for an acquisition of this step or of an earlier one, under the name that the
target had then; and the step releases nothing. -/
theorem Upright.exists_acquiresAt_of_requested (hu : w.Upright) (hcalls : w.calls = .empty)
    (hn : actions[n]? = some a) {route : ConnectionId} {args : StartDebugging}
    (he : .requested c route args ∈ ((w.before actions n).act a).2) :
    ∃ m target, m ≤ n ∧ w.AcquiresAt actions m c target ∧ Undisturbed actions c (m + 1) n ∧
      args = (w.before actions n).demand target ∧ (w.before actions n).releasedIds a = [] := by
  have hcause := cause_of_mem_act (hu.before actions n) he
  cases hcause with
  | begins ha hfree =>
    subst ha
    refine ⟨n, _, Nat.le_refl n, ⟨hn, hfree⟩, fun k a hk hkn => ?_, rfl, rfl⟩
    exact absurd hkn (Nat.not_lt_of_le (Nat.le_of_succ_le hk))
  | routed ha hcall hroute =>
    obtain ⟨m, hmn, hbegins, -, hstays⟩ := hu.exists_acquiresAt hcalls hcall rfl
    refine ⟨m, _, Nat.le_of_lt hmn, hbegins, hstays, rfl, ?_⟩
    simp only [ha, releasedIds, hcall, hroute.outcome?_eq]

end World

/-- **Whose request it is.**  Every request for a nested session goes out for a call to `acquire`
that was begun by an earlier step, or by this one, and has not been broken off since.  The request
is tagged with the name that the target had then, and the step registered a record under that name.
The record is still registered when the request has gone out exactly if no step in between has
released the name. -/
theorem request_registered_iff (root : ConnectionId) (debugType : String)
    (actions : List Action) :
    let w := World.start root debugType
    ∀ n c route args, .requested c route args ∈ w.seenAt actions n →
      ∃ m target, m ≤ n ∧ w.AcquiresAt actions m c target ∧
        World.Undisturbed actions c (m + 1) n ∧
        ∀ id name, (w.before actions m).tree.label? target = some (id, name) →
          args = startDebugging debugType name id ∧
          (w.before actions (m + 1)).registry.session? id =
            some (w.recordAt actions m, .fresh target id name) ∧
          ((w.before actions (n + 1)).registry.sessions.get? id = some (w.recordAt actions m) ↔
            ∀ k a, m < k → k < n → actions[k]? = some a →
              id ∉ (w.before actions k).releasedIds a) := by
  intro w n c route args he
  have hu := World.upright_start root debugType
  obtain ⟨a, hn, he⟩ := World.exists_of_mem_seenAt he
  obtain ⟨m, target, hmn, hbegins, hstays, hargs, hkeeps⟩ :=
    hu.exists_acquiresAt_of_requested rfl hn he
  refine ⟨m, target, hmn, hbegins, hstays, fun id name hlabel =>
    ⟨?_, hbegins.session?_succ hlabel, ?_⟩⟩
  · rw [hargs, World.demand_of_label? ((hu.later_before hmn).label _ _ hlabel),
      World.debugType_before]
    rfl
  · rw [hbegins.registered_iff hu hlabel (Nat.lt_succ_of_le hmn)]
    refine ⟨fun hnever k a' hmk hkn => hnever k a' hmk (Nat.lt_succ_of_lt hkn),
      fun hnever k a' hmk hkn hk => ?_⟩
    rcases Nat.lt_succ_iff_lt_or_eq.mp hkn with hkn | rfl
    · exact hnever k a' hmk hkn hk
    · rw [hn] at hk
      cases hk
      rw [hkeeps]
      exact List.not_mem_nil

/-- A connection on which the editor has introduced itself and said nothing else. -/
def introducedBy (k : ConnectionId) : PendingConnection :=
  ⟨k, { Traffic.none with introduction := some ⟨"node", none, none, none, none, .empty⟩ }, 1⟩

/-- A target is asked for, then its child, which waits for it; the child is released; and then the
connection comes for which the child has waited. -/
def belated : List Action :=
  [.addTarget ⟨"p"⟩ "p.js" .node none, .addTarget ⟨"c"⟩ "c.js" .childProcess (some ⟨"p"⟩),
    .acquire ⟨"parent"⟩ ⟨0⟩, .answer ⟨"parent"⟩ (.ok ()),
    .acquire ⟨"child"⟩ ⟨1⟩, .release ⟨"c"⟩,
    .complete ⟨"match"⟩ (introducedBy ⟨"k"⟩) ⟨some ⟨"p"⟩, .empty⟩, .resume ⟨"child"⟩]

/-- **A released target is requested all the same.**  The record that the call has registered for
the child is gone, nothing is registered under its name, and the request goes out over the
connection of the parent. -/
theorem belated_requested :
    let w := World.start ⟨"root"⟩ "node"
    w.AcquiresAt belated 4 ⟨"child"⟩ ⟨1⟩ ∧
    w.seenAt belated 7 = [.requested ⟨"child"⟩ ⟨"k"⟩ (startDebugging "node" "c.js" ⟨"c"⟩)] ∧
    (w.before belated 7).registry.session? ⟨"c"⟩ = none ∧
    ¬ (w.before belated 8).registry.IsRegistered (w.recordAt belated 4) := by
  intro w
  have hfree : (w.before belated 4).registry.sessions.get? ((w.before belated 4).tree.idOf ⟨1⟩) =
      none := by cbv
  have hseen : w.seenAt belated 7 =
      [.requested ⟨"child"⟩ ⟨"k"⟩ (startDebugging "node" "c.js" ⟨"c"⟩)] := by cbv
  have hgone : (w.before belated 7).registry.session? ⟨"c"⟩ = none := by cbv
  have hleft : (w.before belated 8).registry.sessions.entries = [(⟨"p"⟩, ⟨0⟩)] := by cbv
  have hown : w.recordAt belated 4 = ⟨1⟩ := by cbv
  refine ⟨⟨rfl, hfree⟩, hseen, hgone, ?_⟩
  rintro ⟨id, hid⟩
  have hmem := Index.mem_entries_of_get? hid
  rw [hleft, hown] at hmem
  cases List.mem_singleton.mp hmem

/-- The request was the child's, whose name was released while it waited. -/
theorem request_registered_iff_belated :
    .requested ⟨"child"⟩ ⟨"k"⟩ (startDebugging "node" "c.js" ⟨"c"⟩) ∈
      (World.start ⟨"root"⟩ "node").seenAt belated 7 ∧
    ∃ m target, m ≤ 7 ∧ (World.start ⟨"root"⟩ "node").AcquiresAt belated m ⟨"child"⟩ target ∧
      ∀ id name, ((World.start ⟨"root"⟩ "node").before belated m).tree.label? target =
          some (id, name) →
        (((World.start ⟨"root"⟩ "node").before belated (7 + 1)).registry.sessions.get? id =
            some ((World.start ⟨"root"⟩ "node").recordAt belated m) ↔
          ∀ k a, m < k → k < 7 → belated[k]? = some a →
            id ∉ ((World.start ⟨"root"⟩ "node").before belated k).releasedIds a) := by
  have hseen : (World.start ⟨"root"⟩ "node").seenAt belated 7 =
      [.requested ⟨"child"⟩ ⟨"k"⟩ (startDebugging "node" "c.js" ⟨"c"⟩)] := by cbv
  have hrequested : .requested ⟨"child"⟩ ⟨"k"⟩ (startDebugging "node" "c.js" ⟨"c"⟩) ∈
      (World.start ⟨"root"⟩ "node").seenAt belated 7 := by
    rw [hseen]
    exact List.mem_singleton_self _
  obtain ⟨m, target, hm, hbegins, -, hiff⟩ :=
    request_registered_iff ⟨"root"⟩ "node" belated 7 _ _ _ hrequested
  exact ⟨hrequested, m, target, hm, hbegins, fun id name hlabel => (hiff id name hlabel).2.2⟩

end Session
end DebugTree
