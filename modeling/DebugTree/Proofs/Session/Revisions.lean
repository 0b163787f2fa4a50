import DebugTree.Proofs.Session.Faithful
import DebugTree.Proofs.Session.Lasting

/-!
# How a registered record changes

While a record is registered there are four things that can happen to it: its connection comes, a
call takes its traffic, and a replay that goes by its name ends, well or badly (`World.Revised`).
Its gate and the word "initialized" are written by replays only.  So as long as no replay settles
the record (`World.Settles`), both stay what they are.
-/

namespace DebugTree
namespace Session

open Protocol

namespace Registry

variable {g g' : Registry} {id : TargetId} {h : RecordHandle} {r r' : Record}

/-- An operation that goes by name changes the record of that name, or leaves a record as it was. -/
theorem record?_touch {f : Record → Record} (hr : g.record? h = some r)
    (hnone : g.session? id = none → g' = g)
    (hsome : ∀ h r, g.session? id = some (h, r) → g' = g.revise h (f r)) :
    g'.record? h = some r ∨ g.session? id = some (h, r) ∧ g'.record? h = some (f r) := by
  cases hs : g.session? id with
  | none => exact Or.inl (by rw [hnone hs, hr])
  | some e =>
    obtain ⟨h₁, r₁⟩ := e
    rw [hsome h₁ r₁ hs, record?_revise]
    split
    · next hh =>
      subst hh
      obtain rfl : r₁ = r := Option.some.inj ((session?_eq_some_iff.mp hs).2.symm.trans hr)
      exact Or.inr ⟨rfl, rfl⟩
    · exact Or.inl hr

theorem record?_revise_of_none (hr : g.record? h = none) {h' : RecordHandle}
    (hr' : g.record? h' = some r) (r' : Record) : (g.revise h' r').record? h = none := by
  rw [record?_revise, if_neg, hr]
  rintro rfl
  cases hr.symm.trans hr'

/-- An operation that goes by name adds no record. -/
theorem record?_touch_of_none {f : Record → Record} (hr : g.record? h = none)
    (hnone : g.session? id = none → g' = g)
    (hsome : ∀ h r, g.session? id = some (h, r) → g' = g.revise h (f r)) :
    g'.record? h = none := by
  cases hs : g.session? id with
  | none => rwa [hnone hs]
  | some e =>
    rw [hsome e.1 e.2 hs]
    exact record?_revise_of_none hr (session?_eq_some_iff.mp hs).2 _

/-- A release adds no record. -/
theorem record?_releaseAll_of_none (ids : List TargetId) (hr : g.record? h = none) :
    (g.releaseAll ids).2.record? h = none := by
  refine releaseAll_induction (P := fun g' => g'.record? h = none) (fun g' id hr => ?_) ids hr
  cases hid : g'.sessions.get? id with
  | none => rwa [release_of_none hid]
  | some h' =>
    rw [record?_release hid]
    split
    · next hh => rw [hh, hr, Option.map_none]
    · exact hr

end Registry

namespace World

variable {w : World} {a : Action} {c : CallId} {h : RecordHandle} {r r' : Record}

/-! ## One step -/

/-- What a step can do to a record that is registered before and after it. -/
inductive Revised (w : World) (a : Action) (h : RecordHandle) (r : Record) : Record → Prop
  | stays : Revised w a h r r
  /-- Its connection comes. -/
  | matched {k : ConnectionId} {t : Traffic} (hstate : r.state = .pendingAcquire) :
      Revised w a h r (r.matched k t)
  /-- A replay begins. -/
  | taken {c : CallId} {target : TargetHandle} (haction : a = .replay c target)
      (hsession : w.registry.session? (w.tree.idOf target) = some (h, r)) :
      Revised w a h r { r with traffic := none }
  /-- A replay ends. -/
  | ready {c : CallId} {target : TargetHandle} {call : AdapterCall}
      (haction : a = .answer c (.ok ())) (hcall : w.calls.get? c = some (.replaying target call []))
      (hsession : w.registry.session? (w.tree.idOf target) = some (h, r)) :
      Revised w a h r r.ready
  /-- A replay fails. -/
  | failed {c : CallId} {target : TargetHandle} {call : AdapterCall} {rest : List AdapterCall}
      {f : Fault} (haction : a = .answer c (.error f))
      (hcall : w.calls.get? c = some (.replaying target call rest))
      (hsession : w.registry.session? (w.tree.idOf target) = some (h, r)) :
      Revised w a h r (r.failed f.message)

/-- **How a registered record changes.** -/
theorem revised_act (hu : w.registry.Upright) (hr : w.registry.record? h = some r)
    (hstays : (w.act a).1.registry.IsRegistered h) :
    ∃ r', (w.act a).1.registry.record? h = some r' ∧ w.Revised a h r r' := by
  have hadvance := w.advance_act .empty a
  generalize (w.act a).1 = w' at hadvance hstays ⊢
  cases hadvance with
  | quiet hreg => exact ⟨r, by rw [hreg, hr], .stays⟩
  | registers hreg =>
    obtain ⟨-, rfl, hreg⟩ := Registry.register_eq_ok hreg
    refine ⟨r, ?_, .stays⟩
    rw [hreg]
    exact (Registry.record?_enrolled _ _ _ _ _).trans (by rw [if_neg (hu.next_ne hr), hr])
  | releases ids hreg =>
    rw [hreg] at hstays ⊢
    exact ⟨r, hu.record?_releaseAll ids hr hstays, .stays⟩
  | @«matches» id k t h' hmatch =>
    obtain ⟨r₁, hs, hstate, hreg⟩ := Registry.match?_eq_ok hmatch
    rw [hreg, Registry.record?_revise]
    split
    · next hh =>
      subst hh
      obtain rfl : r₁ = r := Option.some.inj
        ((Registry.session?_eq_some_iff.mp hs).2.symm.trans hr)
      exact ⟨_, rfl, .matched hstate⟩
    · exact ⟨r, hr, .stays⟩
  | @takes c target h' r₁ t hs ht hreg hcalls hl haction =>
    rw [hreg, Registry.record?_revise]
    split
    · next hh =>
      subst hh
      obtain rfl : r₁ = r := Option.some.inj
        ((Registry.session?_eq_some_iff.mp hs).2.symm.trans hr)
      exact ⟨_, rfl, .taken haction hs⟩
    · exact ⟨r, hr, .stays⟩
  | hears _ hreg => exact ⟨r, by rw [hreg, hr], .stays⟩
  | ends haction hcall hreg =>
    rw [hreg]
    rcases Registry.record?_touch hr (fun hs => congrArg Prod.snd (Registry.ready_of_none hs))
      (fun _ _ hs => congrArg Prod.snd (Registry.ready_of_session? hs)) with hsame | ⟨hs, hready⟩
    · exact ⟨r, hsame, .stays⟩
    · exact ⟨_, hready, .ready haction hcall hs⟩
  | fails hcall hreg hcalls hl haction =>
    rw [hreg]
    rcases Registry.record?_touch hr (fun hs => Registry.failed_of_none hs _)
      (fun _ _ hs => Registry.failed_of_session? hs _) with hsame | ⟨hs, hfailed⟩
    · exact ⟨r, hsame, .stays⟩
    · exact ⟨_, hfailed, .failed haction hcall hs⟩

/-- A record that a step adds waits for its connection, and its gate is open. -/
theorem fresh_of_act (hr : w.registry.record? h = none)
    (hr' : (w.act a).1.registry.record? h = some r') :
    ∃ target id name, r' = .fresh target id name := by
  have hadvance := w.advance_act .empty a
  generalize (w.act a).1 = w' at hadvance hr'
  have hrevise {g : Registry} (hnone : g.record? h = none) (heq : w'.registry = g) : False := by
    rw [heq, hnone] at hr'
    cases hr'
  cases hadvance with
  | quiet hreg => exact (hrevise hr hreg).elim
  | @registers target id name _ hreg =>
    obtain ⟨-, rfl, hreg⟩ := Registry.register_eq_ok hreg
    rw [hreg] at hr'
    replace hr' := (Registry.record?_enrolled _ _ _ _ _).symm.trans hr'
    split at hr'
    · exact ⟨target, id, name, (Option.some.inj hr').symm⟩
    · cases hr.symm.trans hr'
  | releases ids hreg => exact (hrevise (Registry.record?_releaseAll_of_none ids hr) hreg).elim
  | «matches» hmatch =>
    obtain ⟨r₁, hs, -, hreg⟩ := Registry.match?_eq_ok hmatch
    exact (hrevise (Registry.record?_revise_of_none hr
      (Registry.session?_eq_some_iff.mp hs).2 _) hreg).elim
  | takes hs _ hreg =>
    exact (hrevise (Registry.record?_revise_of_none hr
      (Registry.session?_eq_some_iff.mp hs).2 _) hreg).elim
  | hears _ hreg => exact (hrevise hr hreg).elim
  | ends _ _ hreg =>
    exact (hrevise (Registry.record?_touch_of_none hr
      (fun hs => congrArg Prod.snd (Registry.ready_of_none hs))
      fun _ _ hs => congrArg Prod.snd (Registry.ready_of_session? hs)) hreg).elim
  | fails _ hreg =>
    exact (hrevise (Registry.record?_touch_of_none hr (fun hs => Registry.failed_of_none hs _)
      fun _ _ hs => Registry.failed_of_session? hs _) hreg).elim

/-! ## Traffic -/

/-- Once a record is matched nobody brings it traffic. -/
theorem Revised.traffic_eq_none (hrevised : w.Revised a h r r') (hstate : r.state ≠ .pendingAcquire)
    (htraffic : r.traffic = none) : r'.traffic = none := by
  cases hrevised with
  | stays => exact htraffic
  | «matched» hpending => exact absurd hpending hstate
  | taken => rfl
  | ready => exact htraffic
  | failed => exact htraffic

/-- The traffic of a matched record stays until a replay for its name begins. -/
theorem Revised.traffic_eq (hrevised : w.Revised a h r r') (hstate : r.state ≠ .pendingAcquire)
    (hquiet : ∀ c target, a = .replay c target →
      w.registry.session? (w.tree.idOf target) ≠ some (h, r)) : r'.traffic = r.traffic := by
  cases hrevised with
  | stays => rfl
  | «matched» hpending => exact absurd hpending hstate
  | taken haction hsession => exact absurd hsession (hquiet _ _ haction)
  | ready => rfl
  | failed => rfl

/-! ## Who settles a record -/

/-- A replay ends on a record that is open to it: it does well on a record that is not initialized,
or badly on one whose gate is open.  Whose traffic the replay has told does not matter. -/
def Settles (w : World) (c : CallId) (h : RecordHandle) (a : Action) : Prop :=
  ∃ reply target call rest r, a = .answer c reply ∧
    w.calls.get? c = some (.replaying target call rest) ∧
    w.registry.session? (w.tree.idOf target) = some (h, r) ∧
    match reply with
    | .ok _ => rest = [] ∧ r.state ≠ .initialized
    | .error _ => r.gate.isSettled = false

/-- A record that nobody settles keeps its gate, and is initialized or not as before. -/
theorem Revised.eq_or_settles (hrevised : w.Revised a h r r')
    (hgate : r.state = .initialized → r.gate.isSettled = true) :
    (r'.gate = r.gate ∧ (r'.state = .initialized ↔ r.state = .initialized)) ∨
      ∃ c, w.Settles c h a := by
  cases hrevised with
  | stays => exact Or.inl ⟨rfl, Iff.rfl⟩
  | «matched» hpending =>
    refine Or.inl ⟨rfl, ?_⟩
    rw [hpending]
    simp [Record.matched]
  | taken => exact Or.inl ⟨rfl, Iff.rfl⟩
  | @ready c target call haction hcall hsession =>
    by_cases hstate : r.state = .initialized
    · rw [Record.ready_of_initialized hstate (hgate hstate)]
      exact Or.inl ⟨rfl, Iff.rfl⟩
    · exact Or.inr ⟨c, _, target, call, [], r, haction, hcall, hsession, rfl, hstate⟩
  | @failed c target call rest f haction hcall hsession =>
    by_cases hopen : r.gate.isSettled = false
    · exact Or.inr ⟨c, _, target, call, rest, r, haction, hcall, hsession, hopen⟩
    · rw [Record.failed_of_isSettled (by simpa using hopen)]
      exact Or.inl ⟨rfl, Iff.rfl⟩

/-- The last answer to a replay makes the record of its name ready. -/
theorem record?_act_ready {target : TargetHandle} {call : AdapterCall}
    (hcall : w.calls.get? c = some (.replaying target call []))
    (hsession : w.registry.session? (w.tree.idOf target) = some (h, r)) :
    (w.act (.answer c (.ok ()))).1.registry.record? h = some r.ready := by
  rw [act, record?_answer_ok hcall, if_pos rfl, Registry.ready_of_session? hsession,
    Registry.record?_revise, if_pos rfl]

/-- A refusal shuts the gate of the record of its name. -/
theorem record?_act_failed {target : TargetHandle} {call : AdapterCall} {rest : List AdapterCall}
    (hcall : w.calls.get? c = some (.replaying target call rest))
    (hsession : w.registry.session? (w.tree.idOf target) = some (h, r)) (f : Fault) :
    (w.act (.answer c (.error f))).1.registry.record? h = some (r.failed f.message) := by
  rw [act, record?_answer_error hcall, Registry.failed_of_session? hsession,
    Registry.record?_revise, if_pos rfl]

/-- What becomes of a record that is settled. -/
theorem Settles.cases (hsettles : w.Settles c h a) : ∃ r, w.registry.record? h = some r ∧
    ((r.state ≠ .initialized ∧ (w.act a).1.registry.record? h = some r.ready) ∨
      ∃ f : Fault, r.gate.isSettled = false ∧
        (w.act a).1.registry.record? h = some (r.failed f.message)) := by
  obtain ⟨reply, target, call, rest, r, rfl, hcall, hsession, hopen⟩ := hsettles
  refine ⟨r, (Registry.session?_eq_some_iff.mp hsession).2, ?_⟩
  cases reply with
  | ok =>
    obtain ⟨rfl, hstate⟩ := hopen
    exact Or.inl ⟨hstate, record?_act_ready hcall hsession⟩
  | error f => exact Or.inr ⟨f, hopen, record?_act_failed hcall hsession f⟩

end World
end Session
end DebugTree
