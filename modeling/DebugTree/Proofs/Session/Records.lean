import DebugTree.Proofs.Deferred
import DebugTree.Proofs.Index
import DebugTree.Session.Registry

/-!
# What the operations do to records

Every operation of the registry touches one record at most, the one that it finds under a name, or
adds one.  So each of them is known once it is known which record it finds and what it makes of
it; the rest of the registry stays as it is (`record?_revise`).

Attempts to settle what is settled are without effect.  Hence an operation that comes too late can
do harm only to a record that is still open.
-/

namespace DebugTree

namespace Session

namespace Record

variable {r : Record}

theorem ready_of_initialized (h : r.state = .initialized) (hgate : r.gate.isSettled = true) :
    r.ready = r := by
  rw [ready, ← h, Deferred.resolve, Deferred.settle_of_isSettled hgate]

theorem failed_of_isSettled (hgate : r.gate.isSettled = true) (reason : String) :
    r.failed reason = r := by
  rw [failed, Deferred.reject, Deferred.settle_of_isSettled hgate]

theorem isSettled_gate_ready (r : Record) : r.ready.gate.isSettled = true :=
  r.gate.isSettled_settle (by simp)

theorem isSettled_gate_failed (r : Record) (reason : String) :
    (r.failed reason).gate.isSettled = true :=
  r.gate.isSettled_settle (by simp)

end Record

namespace Registry

variable {g g' : Registry} {id : TargetId} {h h' : RecordHandle} {r r' : Record}

/-! ## One record -/

/-- The registry with another record behind a handle. -/
def revise (g : Registry) (h : RecordHandle) (r : Record) : Registry :=
  { g with records := g.records.insert h r }

theorem record?_revise (g : Registry) (h h' : RecordHandle) (r : Record) :
    (g.revise h r).record? h' = if h = h' then some r else g.record? h' :=
  Index.get?_insert _ _ _ _

theorem revise_self (hr : g.record? h = some r) : g.revise h r = g := by
  rw [revise, Index.insert_self hr]

/-- A record that is replaced by itself stays, and so do all others. -/
theorem record?_revise_of_eq (hr : g.record? h = some r) (hsame : h = h' → r' = r) :
    (g.revise h r').record? h' = g.record? h' := by
  rw [record?_revise]
  split
  · next hh => rw [hsame hh, ← hh, hr]
  · rfl

theorem size_records_revise (hr : g.record? h = some r) (r' : Record) :
    (g.revise h r').records.size = g.records.size :=
  Index.size_insert_of_contains (by rw [Index.contains, show g.records.get? h = some r from hr]; rfl)
    r'

/-- A record that is registered under some name. -/
def IsRegistered (g : Registry) (h : RecordHandle) : Prop :=
  ∃ id, g.sessions.get? id = some h

theorem session?_eq_some_iff :
    g.session? id = some (h, r) ↔ g.sessions.get? id = some h ∧ g.record? h = some r := by
  constructor
  · intro hs
    obtain ⟨h₁, hh₁, hs⟩ := Option.bind_eq_some_iff.mp hs
    obtain ⟨r₁, hr₁, heq⟩ := Option.map_eq_some_iff.mp hs
    obtain ⟨rfl, rfl⟩ := Prod.mk.inj heq
    exact ⟨hh₁, hr₁⟩
  · rintro ⟨hh, hr⟩
    rw [session?, hh, Option.bind_some, hr, Option.map_some]

theorem isRegistered_of_session? (hs : g.session? id = some (h, r)) : g.IsRegistered h :=
  ⟨id, (session?_eq_some_iff.mp hs).1⟩

/-! ## Operations -/

theorem register_eq_ok {target : TargetHandle} {name : String}
    (hreg : g.register target id name = .ok (h, g')) :
    g.sessions.get? id = none ∧ h = ⟨g.records.size⟩ ∧
      g' = ⟨g.records.insert h (.fresh target id name), g.sessions.insert id h⟩ := by
  unfold register at hreg
  split at hreg
  · cases hreg
  · next hfree =>
    obtain ⟨rfl, rfl⟩ := Prod.mk.inj (Except.ok.inj hreg)
    exact ⟨by simpa [Index.contains] using hfree, rfl, rfl⟩

theorem match?_eq_ok {connection : ConnectionId} {t : Traffic}
    (hmatch : g.match? id connection t = .ok (h, g')) :
    ∃ r, g.session? id = some (h, r) ∧ r.state = .pendingAcquire ∧
      g' = g.revise h (r.matched connection t) := by
  unfold match? at hmatch
  split at hmatch
  · cases hmatch
  · next h₁ r hs =>
    split at hmatch
    · next hstate =>
      obtain ⟨rfl, rfl⟩ := Prod.mk.inj (Except.ok.inj hmatch)
      exact ⟨r, hs, hstate, rfl⟩
    · cases hmatch

theorem takeTraffic_of_session? (hs : g.session? id = some (h, r)) :
    g.takeTraffic id = (r.traffic, g.revise h { r with traffic := none }) := by
  rw [takeTraffic, hs]
  rfl

theorem takeTraffic_of_none (hs : g.session? id = none) : g.takeTraffic id = (none, g) := by
  rw [takeTraffic, hs]

theorem ready_of_session? (hs : g.session? id = some (h, r)) :
    g.ready id = (true, g.revise h r.ready) := by
  rw [ready, hs]
  rfl

theorem ready_of_none (hs : g.session? id = none) : g.ready id = (false, g) := by
  rw [ready, hs]

theorem failed_of_session? (hs : g.session? id = some (h, r)) (reason : String) :
    g.failed id reason = g.revise h (r.failed reason) := by
  rw [failed, hs]
  rfl

theorem failed_of_none (hs : g.session? id = none) (reason : String) : g.failed id reason = g := by
  rw [failed, hs]

/-- An operation that goes by name does not touch a record that it would not change. -/
theorem record?_of_touch {f : Record → Record} (hnone : g.session? id = none → g' = g)
    (hsome : ∀ h r, g.session? id = some (h, r) → g' = g.revise h (f r))
    (hsame : ∀ r, g.session? id = some (h, r) → f r = r) : g'.record? h = g.record? h := by
  cases hs : g.session? id with
  | none => rw [hnone hs]
  | some e =>
    obtain ⟨h₁, r⟩ := e
    rw [hsome h₁ r hs]
    refine record?_revise_of_eq (session?_eq_some_iff.mp hs).2 fun hh => hsame r ?_
    rw [hs, hh]

theorem record?_ready_of_eq (hsame : ∀ r, g.session? id = some (h, r) → r.ready = r) :
    (g.ready id).2.record? h = g.record? h :=
  record?_of_touch (fun hs => by rw [ready_of_none hs]) (fun _ _ hs => by rw [ready_of_session? hs])
    hsame

theorem record?_failed_of_eq {reason : String}
    (hsame : ∀ r, g.session? id = some (h, r) → r.failed reason = r) :
    (g.failed id reason).record? h = g.record? h :=
  record?_of_touch (fun hs => failed_of_none hs reason) (fun _ _ hs => failed_of_session? hs reason)
    hsame

/-- What the release of one name keeps, the release of many names keeps. -/
theorem releaseAll_induction {P : Registry → Prop} (hstep : ∀ g id, P g → P (g.release id).2)
    (ids : List TargetId) (hg : P g) : P (g.releaseAll ids).2 := by
  induction ids generalizing g with
  | nil => exact hg
  | cons id ids ih => exact ih (hstep g id hg)

end Registry
end Session
end DebugTree
