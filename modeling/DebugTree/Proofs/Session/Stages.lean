import DebugTree.Proofs.Session.Ledger

/-!
# Three stages of a record

As long as nobody interferes, a record goes through three stages (`Stage`): its connection is
expected; its traffic waits to be told; its traffic is being told, or has been told.  The stage can
be read off the record, and it can be read off the ledger, and the two must agree
(`Registry.Accounted`).

For this every record that is being told must have *one* call that tells it, and what adapters have
answered and what that call has left must make up the traffic.  The traffic of a record is taken
once because taking it leaves none, and none is brought a second time.

The operations of the registry keep all that, with one exception: to declare a record ready is right
only if its adapter has heard everything (`Registry.Accounted.ready`).
-/

namespace DebugTree
namespace Session

open Protocol

/-- How far a record has come, given what was brought for it, what adapters have answered, and
whether it is registered. -/
inductive Stage (brought : Option (ConnectionId × Traffic)) (answered : List AdapterCall)
    (r : Record) (registered : Prop) : Prop
  | expected (hbrought : brought = none) (hanswered : answered = [])
      (htraffic : r.traffic = none) (hstate : r.state = .pendingAcquire)
      (hconnection : registered → r.connection.settlement = .pending)
  | waiting (connection : ConnectionId) (t : Traffic) (hbrought : brought = some (connection, t))
      (hanswered : answered = []) (htraffic : r.traffic = some t) (hstate : r.state = .matched)
      (hconnection : r.connection.settlement = .resolved connection)
  | telling (connection : ConnectionId) (t : Traffic) (hbrought : brought = some (connection, t))
      (htraffic : r.traffic = none)
      (hstate : r.state = .matched ∨
        r.state = .initialized ∧ answered = t.replay ∧ r.gate.isSettled = true)
      (hconnection : r.connection.settlement = .resolved connection)

namespace Stage

variable {brought : Option (ConnectionId × Traffic)} {answered : List AdapterCall} {r : Record}
  {registered registered' : Prop}

theorem mono (h : Stage brought answered r registered) (hreg : registered' → registered) :
    Stage brought answered r registered' := by
  cases h with
  | expected hb ha ht hs hc => exact .expected hb ha ht hs fun h => hc (hreg h)
  | waiting connection t hb ha ht hs hc => exact .waiting connection t hb ha ht hs hc
  | telling connection t hb ht hs hc => exact .telling connection t hb ht hs hc

/-- A record that is released is not expected to do anything any more. -/
theorem released (h : Stage brought answered r registered) :
    Stage brought answered r.released False := by
  have hrejected : ∀ {connection : ConnectionId},
      r.connection.settlement = .resolved connection →
        r.released.connection.settlement = .resolved connection := by
    intro connection hc
    have hsettled : r.connection.isSettled = true := Deferred.isSettled_iff.mpr (by simp [hc])
    rw [Record.released, Deferred.reject, Deferred.settle_of_isSettled hsettled]
    exact hc
  cases h with
  | expected hb ha ht hs _ => exact .expected hb ha ht hs False.elim
  | waiting connection t hb ha ht hs hc => exact .waiting connection t hb ha ht hs (hrejected hc)
  | telling connection t hb ht hs hc =>
    have hgate : r.released.gate.isSettled = true := r.gate.isSettled_settle (by simp)
    exact .telling connection t hb ht (hs.imp_right fun h => ⟨h.1, h.2.1, hgate⟩) (hrejected hc)

theorem failed (h : Stage brought answered r registered) (reason : String) :
    Stage brought answered (r.failed reason) registered := by
  cases h with
  | expected hb ha ht hs hc => exact .expected hb ha ht hs hc
  | waiting connection t hb ha ht hs hc => exact .waiting connection t hb ha ht hs hc
  | telling connection t hb ht hs hc =>
    have hgate := r.isSettled_gate_failed reason
    exact .telling connection t hb ht (hs.imp_right fun h => ⟨h.1, h.2.1, hgate⟩) hc

/-- An adapter has answered, while there was something left to answer. -/
theorem hear {connection : ConnectionId} {t : Traffic} {call : AdapterCall}
    {rest : List AdapterCall} (h : Stage (some (connection, t)) answered r registered)
    (htraffic : r.traffic = none) (hrest : answered ++ call :: rest = t.replay) :
    Stage (some (connection, t)) (answered ++ [call]) r registered := by
  cases h with
  | expected hb => cases hb
  | waiting _ _ _ _ ht => rw [htraffic] at ht; cases ht
  | telling connection' t' hb ht hs hc =>
    obtain ⟨rfl, rfl⟩ := Prod.mk.inj (Option.some.inj hb)
    refine .telling connection t rfl ht (Or.inl (hs.resolve_right ?_)) hc
    rintro ⟨-, hall, -⟩
    rw [hall] at hrest
    exact absurd (List.append_right_eq_self.mp hrest) (List.cons_ne_nil _ _)

/-- The adapter has heard everything. -/
theorem ready {connection : ConnectionId} {t : Traffic}
    (h : Stage (some (connection, t)) t.replay r registered) :
    Stage (some (connection, t)) t.replay r.ready registered := by
  cases h with
  | expected hb => cases hb
  | waiting _ _ _ ha => exact absurd ha t.replay_ne_nil
  | telling connection' t' hb ht _ hc =>
    obtain ⟨rfl, rfl⟩ := Prod.mk.inj (Option.some.inj hb)
    exact .telling connection t rfl ht (Or.inr ⟨rfl, rfl, r.isSettled_gate_ready⟩) hc

theorem isSettled_gate (h : Stage brought answered r registered) (hs : r.state = .initialized) :
    r.gate.isSettled = true := by
  cases h with
  | expected _ _ _ hs' => rw [hs] at hs'; cases hs'
  | waiting _ _ _ _ _ hs' => rw [hs] at hs'; cases hs'
  | telling _ _ _ _ hs' =>
    rcases hs' with hs' | ⟨-, -, hgate⟩
    · rw [hs] at hs'; cases hs'
    · exact hgate

end Stage

/-! ## Registries with their past -/

/-- The registry and what is left to be told fit the ledger. -/
structure Registry.Accounted (g : Registry) (l : Ledger)
    (todo? : CallId → Option (List AdapterCall)) : Prop where
  /-- Handles are given out in order. -/
  numbered : ∀ h r, g.record? h = some r → h.number < g.records.size
  /-- A record is registered under its own name. -/
  named : ∀ id h, g.sessions.get? id = some h → ∃ r, g.record? h = some r ∧ r.id = id
  /-- Records to come have no past. -/
  blank : ∀ h, g.record? h = none → l.brought.get? h = none ∧ l.answeredFor h = []
  stage : ∀ h r, g.record? h = some r →
    Stage (l.brought.get? h) (l.answeredFor h) r (g.IsRegistered h)
  /-- What has been answered and what is left to be told make up the traffic of a record. -/
  replays : ∀ c todo, todo? c = some todo → ∃ h r connection t, l.taken.get? c = some h ∧
    g.record? h = some r ∧ r.traffic = none ∧ l.brought.get? h = some (connection, t) ∧
      l.answeredFor h ++ todo = t.replay
  /-- The traffic of a record is told once. -/
  alone : ∀ c todo c' todo' h, todo? c = some todo → todo? c' = some todo' →
    l.taken.get? c = some h → l.taken.get? c' = some h → c = c'

namespace Registry.Accounted

variable {g g' : Registry} {l : Ledger} {todo? todo?' : CallId → Option (List AdapterCall)}
  {id : TargetId} {h h' : RecordHandle} {r r' : Record} {c : CallId}

theorem empty : Registry.empty.Accounted .empty fun _ => none where
  numbered _ _ hr := by cases hr
  named _ _ hid := by cases hid
  blank _ _ := ⟨rfl, rfl⟩
  stage _ _ hr := by cases hr
  replays _ _ hc := by cases hc
  alone _ _ _ _ _ hc := by cases hc

/-- Calls may end at any time. -/
theorem noNews (ha : g.Accounted l todo?)
    (hcalls : ∀ c todo, todo?' c = some todo → todo? c = some todo) : g.Accounted l todo?' where
  numbered := ha.numbered
  named := ha.named
  blank := ha.blank
  stage := ha.stage
  replays c todo hc := ha.replays c todo (hcalls c todo hc)
  alone c todo c' todo' h hc hc' := ha.alone c todo c' todo' h (hcalls _ _ hc) (hcalls _ _ hc')

/-- A record may change, and a connection may be brought for it, as long as it keeps its name and
fits its past.  If its traffic is being told, that has to stay so. -/
theorem supply (ha : g.Accounted l todo?) (hr : g.record? h = some r) (r' : Record)
    (hid : r'.id = r.id)
    {brought : Index RecordHandle (ConnectionId × Traffic)}
    (hother : ∀ h', h ≠ h' → brought.get? h' = l.brought.get? h')
    (hkeep : ∀ b, l.brought.get? h = some b →
      brought.get? h = some b ∧ (r.traffic = none → r'.traffic = none))
    (hstage : Stage (brought.get? h) (l.answeredFor h) r' (g.IsRegistered h)) :
    (g.revise h r').Accounted { l with brought } todo? where
  numbered h' r₁ hr₁ := by
    have hsize : (g.revise h r').records.size = g.records.size := size_records_revise hr r'
    rw [record?_revise] at hr₁
    rw [hsize]
    split at hr₁
    · next hh => exact hh ▸ ha.numbered h r hr
    · exact ha.numbered h' r₁ hr₁
  named id h' hid' := by
    obtain ⟨r₁, hr₁, hid₁⟩ := ha.named id h' hid'
    rw [record?_revise]
    split
    · next hh =>
      rw [← hh, hr, Option.some.injEq] at hr₁
      exact ⟨r', rfl, by rw [hid, hr₁, hid₁]⟩
    · exact ⟨r₁, hr₁, hid₁⟩
  blank h' hnone := by
    rw [record?_revise] at hnone
    split at hnone
    · cases hnone
    · next hne => exact ⟨(hother h' hne).trans (ha.blank h' hnone).1, (ha.blank h' hnone).2⟩
  stage h' r₁ hr₁ := by
    rw [record?_revise] at hr₁
    split at hr₁
    · next hh =>
      obtain rfl := Option.some.inj hr₁
      exact hh ▸ hstage
    · next hne =>
      have hstage' := ha.stage h' r₁ hr₁
      rwa [← hother h' hne] at hstage'
  replays c todo hc := by
    obtain ⟨h', r₁, connection, t, htaken, hr₁, ht₁, hb, hrest⟩ := ha.replays c todo hc
    by_cases hh : h = h'
    · subst hh
      rw [hr, Option.some.injEq] at hr₁
      subst hr₁
      obtain ⟨hb', htraffic⟩ := hkeep _ hb
      exact ⟨h, r', connection, t, htaken, by rw [record?_revise, if_pos rfl], htraffic ht₁, hb',
        hrest⟩
    · exact ⟨h', r₁, connection, t, htaken, by rw [record?_revise, if_neg hh, hr₁], ht₁,
        (hother h' hh).trans hb, hrest⟩
  alone := ha.alone

/-- A record may change as long as it keeps its name and fits its past. -/
theorem revise (ha : g.Accounted l todo?) (hr : g.record? h = some r) (r' : Record)
    (hid : r'.id = r.id) (htraffic : r.traffic = none → r'.traffic = none)
    (hstage : Stage (l.brought.get? h) (l.answeredFor h) r' (g.IsRegistered h)) :
    (g.revise h r').Accounted l todo? :=
  ha.supply hr r' hid (fun _ _ => rfl) (fun _ hb => ⟨hb, htraffic⟩) hstage

theorem get?_next (ha : g.Accounted l todo?) : g.records.get? ⟨g.records.size⟩ = none := by
  by_contra hsome
  obtain ⟨r, hr⟩ := Option.ne_none_iff_exists'.mp hsome
  exact absurd (ha.numbered _ r hr) (Nat.lt_irrefl _)

theorem register (ha : g.Accounted l todo?) {target : TargetHandle} {name : String}
    (hreg : g.register target id name = .ok (h, g')) : g'.Accounted l todo? := by
  obtain ⟨-, rfl, rfl⟩ := register_eq_ok hreg
  have hrecord : ∀ h', Registry.record? ⟨g.records.insert ⟨g.records.size⟩
      (.fresh target id name), g.sessions.insert id ⟨g.records.size⟩⟩ h' =
        if ⟨g.records.size⟩ = h' then some (.fresh target id name) else g.record? h' :=
    fun h' => Index.get?_insert _ _ _ _
  have hold : ∀ h' r, g.record? h' = some r → ⟨g.records.size⟩ ≠ h' := by
    rintro h' r hr rfl
    rw [Registry.record?, ha.get?_next] at hr
    cases hr
  refine ⟨fun h' r hr => ?_, fun id' h' hid' => ?_, fun h' hnone => ?_, fun h' r hr => ?_,
    fun c todo hc => ?_, ha.alone⟩
  · rw [hrecord] at hr
    rw [Index.size_insert_of_get?_eq_none ha.get?_next]
    split at hr
    · next hh => rw [← hh]; exact Nat.lt_succ_self _
    · exact Nat.lt_succ_of_lt (ha.numbered h' r hr)
  · rw [hrecord]
    rcases Index.of_get?_insert_eq_some hid' with ⟨hid, rfl⟩ | hid'
    · exact ⟨_, if_pos rfl, hid⟩
    · obtain ⟨r, hr, hid⟩ := ha.named id' h' hid'
      exact ⟨r, by rw [if_neg (hold h' r hr), hr], hid⟩
  · rw [hrecord] at hnone
    split at hnone
    · cases hnone
    · exact ha.blank h' hnone
  · rw [hrecord] at hr
    split at hr
    · next hh =>
      obtain rfl := Option.some.inj hr
      obtain ⟨hbrought, hanswered⟩ := ha.blank _ ha.get?_next
      rw [← hh, hbrought, hanswered]
      exact .expected rfl rfl rfl rfl fun _ => rfl
    · next hne =>
      refine (ha.stage h' r hr).mono ?_
      rintro ⟨id', hid'⟩
      rcases Index.of_get?_insert_eq_some hid' with ⟨-, hh⟩ | hid'
      · exact absurd hh hne
      · exact ⟨id', hid'⟩
  · obtain ⟨h', r, connection, t, htaken, hr, hrest⟩ := ha.replays c todo hc
    exact ⟨h', r, connection, t, htaken, by rw [hrecord, if_neg (hold h' r hr), hr], hrest⟩

/-- A name is struck out, and its record stays behind. -/
theorem unlist (ha : g.Accounted l todo?) (id : TargetId) :
    ({ g with sessions := g.sessions.erase id } : Registry).Accounted l todo? := by
  have hlisted : ∀ id' h', (g.sessions.erase id).get? id' = some h' →
      g.sessions.get? id' = some h' := fun _ _ hid' => (Index.get?_erase_eq_some_iff.mp hid').2
  refine ⟨ha.numbered, fun id' h' hid' => ha.named id' h' (hlisted id' h' hid'), ha.blank,
    fun h' r hr => (ha.stage h' r hr).mono ?_, ha.replays, ha.alone⟩
  rintro ⟨id', hid'⟩
  exact ⟨id', hlisted id' h' hid'⟩

theorem release (ha : g.Accounted l todo?) (id : TargetId) : (g.release id).2.Accounted l todo? := by
  cases hid : g.sessions.get? id with
  | none => rw [Registry.release, hid]; exact ha
  | some h =>
    obtain ⟨r, hr, hname⟩ := ha.named id h hid
    -- The record had no other name.
    have hgone : ∀ id', (g.sessions.erase id).get? id' ≠ some h := by
      intro id' hid'
      obtain ⟨hne, hid'⟩ := Index.get?_erase_eq_some_iff.mp hid'
      obtain ⟨r₁, hr₁, hname₁⟩ := ha.named id' h hid'
      rw [hr, Option.some.injEq] at hr₁
      exact hne (by rw [← hname, hr₁, hname₁])
    have hrelease : (g.release id).2 =
        ({ g with sessions := g.sessions.erase id } : Registry).revise h r.released := by
      rw [Registry.release, hid]
      simp only [Registry.revise, Index.modify_of_get? (show g.records.get? h = some r from hr)]
    rw [hrelease]
    refine (ha.unlist id).revise hr _ rfl (fun ht => ht) ((ha.stage h r hr).released.mono ?_)
    rintro ⟨id', hid'⟩
    exact hgone id' hid'

theorem releaseAll (ha : g.Accounted l todo?) (ids : List TargetId) :
    (g.releaseAll ids).2.Accounted l todo? :=
  releaseAll_induction (P := fun g => g.Accounted l todo?) (fun _ id ha => ha.release id) ids ha

theorem failed (ha : g.Accounted l todo?) (id : TargetId) (reason : String) :
    (g.failed id reason).Accounted l todo? := by
  cases hs : g.session? id with
  | none => rwa [failed_of_none hs]
  | some e =>
    obtain ⟨h, r⟩ := e
    rw [failed_of_session? hs]
    have hr := (session?_eq_some_iff.mp hs).2
    exact ha.revise hr _ rfl (fun ht => ht) ((ha.stage h r hr).failed reason)

/-- The adapter of a record has heard everything, or is known to have. -/
theorem ready (ha : g.Accounted l todo?)
    (hready : ∀ h r, g.session? id = some (h, r) → r.state = .initialized ∨
      ∃ connection t, l.brought.get? h = some (connection, t) ∧ l.answeredFor h = t.replay) :
    (g.ready id).2.Accounted l todo? := by
  cases hs : g.session? id with
  | none => rwa [ready_of_none hs]
  | some e =>
    obtain ⟨h, r⟩ := e
    rw [ready_of_session? hs]
    have hr := (session?_eq_some_iff.mp hs).2
    have hstage := ha.stage h r hr
    rcases hready h r hs with hinit | ⟨connection, t, hbrought, hanswered⟩
    · rw [Record.ready_of_initialized hinit (hstage.isSettled_gate hinit), revise_self hr]
      exact ha
    · refine ha.revise hr _ rfl (fun ht => ht) ?_
      rw [hbrought, hanswered] at hstage ⊢
      exact hstage.ready

theorem bring (ha : g.Accounted l todo?) {connection : ConnectionId} {t : Traffic}
    (hmatch : g.match? id connection t = .ok (h, g')) :
    g'.Accounted { l with brought := l.brought.insert h (connection, t) } todo? := by
  obtain ⟨r, hs, hstate, rfl⟩ := match?_eq_ok hmatch
  have hr := (session?_eq_some_iff.mp hs).2
  cases ha.stage h r hr with
  | expected hb hanswered ht _ hc =>
    refine ha.supply hr (r.matched connection t) rfl (fun h' hne => ?_) (fun b hb' => ?_) ?_
    · rw [Index.get?_insert, if_neg hne]
    · rw [hb] at hb'; cases hb'
    · rw [Index.get?_insert_self]
      exact .waiting connection t rfl hanswered rfl rfl (Deferred.settlement_resolve_of_pending
        (hc (isRegistered_of_session? hs)) connection)
  | waiting _ _ _ _ _ hs' => rw [hstate] at hs'; cases hs'
  | telling _ _ _ _ hs' => rw [hstate] at hs'; simp at hs'

/-- A call takes the traffic of a record over. -/
theorem assign (ha : g.Accounted l todo?) (hr : g.record? h = some r) (ht : r.traffic = none)
    {connection : ConnectionId} {t : Traffic} (hb : l.brought.get? h = some (connection, t))
    (hanswered : l.answeredFor h = [])
    (hfree : ∀ c' todo, todo? c' = some todo → l.taken.get? c' ≠ some h)
    (hcalls : ∀ c', todo?' c' = if c = c' then some t.replay else todo? c') :
    g.Accounted { l with taken := l.taken.insert c h } todo?' where
  numbered := ha.numbered
  named := ha.named
  blank := ha.blank
  stage := ha.stage
  replays c' todo hc' := by
    rw [hcalls] at hc'
    rw [Index.get?_insert]
    split at hc'
    · next hcc =>
      obtain rfl := Option.some.inj hc'
      refine ⟨h, r, connection, t, if_pos hcc, hr, ht, hb, ?_⟩
      change l.answeredFor h ++ t.replay = t.replay
      rw [hanswered, List.nil_append]
    · next hne =>
      obtain ⟨h', r', connection', t', htaken, hrest⟩ := ha.replays c' todo hc'
      exact ⟨h', r', connection', t', (if_neg hne).trans htaken, hrest⟩
  alone c₁ todo₁ c₂ todo₂ h' hc₁ hc₂ ht₁ ht₂ := by
    rw [hcalls] at hc₁ hc₂
    rw [Index.get?_insert] at ht₁ ht₂
    split at hc₁ <;> split at hc₂
    · next h₁ h₂ => rw [← h₁, h₂]
    · next h₁ h₂ =>
      rw [if_pos h₁] at ht₁
      rw [if_neg h₂, ← ht₁] at ht₂
      exact absurd ht₂ (hfree _ _ hc₂)
    · next h₁ h₂ =>
      rw [if_pos h₂] at ht₂
      rw [if_neg h₁, ← ht₂] at ht₁
      exact absurd ht₁ (hfree _ _ hc₁)
    · next h₁ h₂ =>
      rw [if_neg h₁] at ht₁
      rw [if_neg h₂] at ht₂
      exact ha.alone c₁ todo₁ c₂ todo₂ h' hc₁ hc₂ ht₁ ht₂

theorem take (ha : g.Accounted l todo?) (hs : g.session? id = some (h, r)) {t : Traffic}
    (ht : r.traffic = some t)
    (hcalls : ∀ c', todo?' c' = if c = c' then some t.replay else todo? c') :
    (g.revise h { r with traffic := none }).Accounted
      { l with taken := l.taken.insert c h } todo?' := by
  have hr := (session?_eq_some_iff.mp hs).2
  cases ha.stage h r hr with
  | expected _ _ ht' => rw [ht] at ht'; cases ht'
  | waiting connection t' hb hanswered ht' hstate hc =>
    obtain rfl : t = t' := Option.some.inj (ht.symm.trans ht')
    have hrevise := ha.revise hr { r with traffic := none } rfl (fun _ => rfl)
      (.telling connection t hb rfl (Or.inl hstate) hc)
    refine hrevise.assign (by rw [record?_revise, if_pos rfl]) rfl hb hanswered
      (fun c' todo hc' htaken => ?_) hcalls
    obtain ⟨h', r', _, _, htaken', hr', ht₁, -⟩ := ha.replays c' todo hc'
    obtain rfl : h = h' := Option.some.inj (htaken.symm.trans htaken')
    rw [hr, Option.some.injEq] at hr'
    rw [← hr', ht] at ht₁
    cases ht₁
  | telling _ _ _ ht' => rw [ht] at ht'; cases ht'

/-- An adapter has answered. -/
theorem hear (ha : g.Accounted l todo?) {call : AdapterCall} {rest : List AdapterCall}
    (hc : todo? c = some (call :: rest))
    (hcalls : ∀ c' todo, todo?' c' = some todo →
      c = c' ∧ todo = rest ∨ c ≠ c' ∧ todo? c' = some todo) :
    g.Accounted (l.hear c call) todo?' := by
  obtain ⟨h, r, connection, t, htaken, hr, ht, hb, hrest⟩ := ha.replays c _ hc
  have hanswered := l.answeredFor_hear htaken call
  have htelling : ∀ c' todo, todo?' c' = some todo → ∃ before, todo? c' = some before := by
    intro c' todo hc'
    rcases hcalls c' todo hc' with ⟨rfl, -⟩ | ⟨-, hc'⟩
    · exact ⟨_, hc⟩
    · exact ⟨_, hc'⟩
  refine ⟨ha.numbered, ha.named, fun h' hnone => ?_, fun h' r' hr' => ?_, fun c' todo hc' => ?_,
    fun c₁ todo₁ c₂ todo₂ h' hc₁ hc₂ ht₁ ht₂ => ?_⟩
  · have hne : h ≠ h' := by
      rintro rfl
      rw [hr] at hnone
      cases hnone
    rw [Ledger.brought_hear, hanswered, if_neg hne]
    exact ha.blank h' hnone
  · rw [Ledger.brought_hear, hanswered]
    split
    · next hh =>
      subst hh
      obtain rfl : r = r' := Option.some.inj (hr.symm.trans hr')
      have hstage := ha.stage h r hr
      rw [hb] at hstage ⊢
      exact hstage.hear ht hrest
    · exact ha.stage h' r' hr'
  · rw [Ledger.taken_hear, Ledger.brought_hear]
    rcases hcalls c' todo hc' with ⟨rfl, rfl⟩ | ⟨hne, hc'⟩
    · refine ⟨h, r, connection, t, htaken, hr, ht, hb, ?_⟩
      rw [hanswered, if_pos rfl, List.append_assoc]
      exact hrest
    · obtain ⟨h', r', connection', t', ht', hr', htr', hb', hrest'⟩ := ha.replays c' todo hc'
      have hother : h ≠ h' := by
        rintro rfl
        exact hne (ha.alone c _ c' todo h hc hc' htaken ht')
      refine ⟨h', r', connection', t', ht', hr', htr', hb', ?_⟩
      rw [hanswered, if_neg hother]
      exact hrest'
  · obtain ⟨before₁, hc₁⟩ := htelling c₁ todo₁ hc₁
    obtain ⟨before₂, hc₂⟩ := htelling c₂ todo₂ hc₂
    rw [Ledger.taken_hear] at ht₁ ht₂
    exact ha.alone c₁ before₁ c₂ before₂ h' hc₁ hc₂ ht₁ ht₂

end Registry.Accounted
end Session
end DebugTree
