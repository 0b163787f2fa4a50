import DebugTree.Proofs.Session.Connections

/-!
# What a failing acquisition takes with it

A call to `acquire` that fails before it waits for its own connection has a record to put away, and
puts away what is registered under its target's name.  That is its own record as long as nobody else
has registered one.  While the call waits, however, its record may be released, and the name may be
registered again, for the same target or for one that was added later; then it is the record of the
other call that goes, and the other call is told that its session was released.

`failure_spec` says that this is the only way.  A failing acquisition leaves every record but its
own registered and as it was, exactly if it fails while it waits for its own connection, or if no
later acquisition of the name is registered (`Superseded`).  A call that finds its target's name
taken changes nothing at all.

The proof goes through what is registered: every registered record was registered by an acquisition
(`exists_acquiresAt_of_registered`), and one that is older than the call that fails would have kept
the name from being free.
-/

namespace DebugTree
namespace Session

open Protocol

namespace Registry

variable {g g' : Registry} {id : TargetId} {h own : RecordHandle} {r : Record}

/-- On the way from one registry to another every registered record but one stays registered, and
stays as it is. -/
def SparesOthers (g : Registry) (own : RecordHandle) (g' : Registry) : Prop :=
  ∀ id h r, h ≠ own → g.session? id = some (h, r) → g'.session? id = some (h, r)

theorem sparesOthers_refl (g : Registry) (own : RecordHandle) : g.SparesOthers own g :=
  fun _ _ _ _ hs => hs

/-- **Whom a release spares.**  The release of a name spares all records but one exactly if no other
one is registered under the name. -/
theorem Upright.sparesOthers_release_iff (hu : g.Upright) :
    g.SparesOthers own (g.release id).2 ↔ ∀ h, g.sessions.get? id = some h → h = own := by
  constructor
  · intro hspares h hid
    by_contra hne
    obtain ⟨r, hr, -⟩ := hu.named id h hid
    have hstill := hspares id h r hne (session?_eq_some_iff.mpr ⟨hid, hr⟩)
    have hsessions := (session?_eq_some_iff.mp hstill).1
    rw [sessions_release, if_pos rfl] at hsessions
    cases hsessions
  · intro hown id' h r hne hs
    obtain ⟨hid', hr⟩ := session?_eq_some_iff.mp hs
    have hother : id ≠ id' := by
      rintro rfl
      exact hne (hown h hid')
    obtain ⟨r', hr', hname⟩ := hu.named id' h hid'
    obtain rfl : r' = r := Option.some.inj (hr'.symm.trans hr)
    rw [session?_eq_some_iff, sessions_release, if_neg hother]
    exact ⟨hid', hu.record?_release_of_id_ne hr (by rw [hname]; exact Ne.symm hother)⟩

end Registry

namespace World

variable {w w' : World} {actions : List Action} {m n : Nat} {c : CallId} {call : Call} {a : Action}
  {target : TargetHandle} {own h : RecordHandle} {id : TargetId} {name : String} {f : Fault}

/-! ## Who registers -/

/-- On the way from one world to another no name gets a record. -/
def RegistersNone (w w' : World) : Prop :=
  ∀ id h, w'.registry.sessions.get? id = some h → w.registry.sessions.get? id = some h

theorem registersNone_of_eq (hsame : w'.registry.sessions = w.registry.sessions) :
    w.RegistersNone w' := by
  intro id h hid
  rwa [hsame] at hid

theorem registersNone_releaseAll (ids : List TargetId)
    (hreg : w'.registry = (w.registry.releaseAll ids).2) : w.RegistersNone w' := by
  intro id h hid
  rw [hreg, Registry.sessions_releaseAll] at hid
  split at hid
  · cases hid
  · exact hid

theorem registersNone_giveUp (w : World) (c : CallId) (target : TargetHandle) (f : Fault) :
    w.RegistersNone (w.giveUp c target f).1 :=
  registersNone_releaseAll [w.tree.idOf target] rfl

theorem registersNone_resume (w : World) (c : CallId) : w.RegistersNone (w.resume c).1 := by
  cases hcall : w.calls.get? c with
  | none =>
    rw [resume_of_none hcall]
    exact registersNone_of_eq rfl
  | some call =>
    have hresumed := resumed hcall
    generalize w.resume c = x at hresumed ⊢
    cases hresumed with
    | stranded => exact registersNone_giveUp w c _ _
    | rests | routed | connected | completed | refused => exact registersNone_of_eq rfl

theorem registersNone_answer (w : World) (c : CallId) (reply : Except Fault Unit) :
    w.RegistersNone (w.answer c reply).1 := by
  cases hcall : w.calls.get? c with
  | none =>
    rw [answer_of_none hcall]
    exact registersNone_of_eq rfl
  | some call =>
    have hanswered := answered hcall reply
    generalize w.answer c reply = x at hanswered ⊢
    cases hanswered with
    | refused => exact registersNone_giveUp w c _ _
    | told => exact registersNone_of_eq (sessions_ask _ _ _ _)
    | failed => exact registersNone_of_eq (sessions_failed _ _ _)
    | rests | taken => exact registersNone_of_eq rfl

/-- **A name gets a record from an acquisition only.** -/
theorem get?_sessions_act (hid : (w.act a).1.registry.sessions.get? id = some h) :
    w.registry.sessions.get? id = some h ∨ ∃ c target, a = .acquire c target ∧
      w.tree.idOf target = id ∧ w.registry.sessions.get? id = none ∧ h = w.registry.next := by
  cases a with
  | acquire c target =>
    by_cases hfree : w.registry.sessions.get? (w.tree.idOf target) = none
    · rw [act, registry_acquire_of_free hfree, enroll, Registry.sessions_enrolled] at hid
      split at hid
      · next hname =>
        exact Or.inr ⟨c, target, rfl, hname, hname ▸ hfree, (Option.some.inj hid).symm⟩
      · exact Or.inl hid
    · rw [act, acquire_of_taken hfree] at hid
      exact Or.inl hid
  | addTarget id' name kind parent =>
    rw [registry_addTarget] at hid
    exact Or.inl hid
  | connection c id' => exact Or.inl (registersNone_of_eq (sessions_connection w c id') id h hid)
  | complete c p args => exact Or.inl (registersNone_of_eq (sessions_complete w c p args) id h hid)
  | replay c target => exact Or.inl (registersNone_of_eq (sessions_replay w c target) id h hid)
  | resume c => exact Or.inl (registersNone_resume w c id h hid)
  | answer c reply => exact Or.inl (registersNone_answer w c reply id h hid)
  | release id' => exact Or.inl (registersNone_releaseAll [id'] rfl id h hid)
  | releaseSubtree target =>
    exact Or.inl (registersNone_releaseAll (w.subtreeIds target) rfl id h hid)
  | removeTarget id' => exact Or.inl hid
  | forget id' => exact Or.inl hid
  | hold target => exact Or.inl hid
  | letGo target => exact Or.inl hid
  | abort c => exact Or.inl hid

/-- Every record that is registered was registered by an acquisition, under the name that the target
had then. -/
theorem exists_acquiresAt_of_registered (hempty : w.registry = .empty)
    (hid : (w.before actions n).registry.sessions.get? id = some h) :
    ∃ m c target, m < n ∧ w.AcquiresAt actions m c target ∧
      (w.before actions m).tree.idOf target = id ∧ h = w.recordAt actions m := by
  induction n with
  | zero =>
    rw [before_zero, hempty] at hid
    cases hid
  | succ n ih =>
    have hearlier : (w.before actions n).registry.sessions.get? id = some h →
        ∃ m c target, m < n + 1 ∧ w.AcquiresAt actions m c target ∧
          (w.before actions m).tree.idOf target = id ∧ h = w.recordAt actions m := by
      intro hold
      obtain ⟨m, c, target, hmn, hrest⟩ := ih hold
      exact ⟨m, c, target, Nat.lt_succ_of_lt hmn, hrest⟩
    cases hn : actions[n]? with
    | none =>
      rw [before_succ_of_none hn] at hid
      exact hearlier hid
    | some a =>
      rw [before_succ hn] at hid
      rcases get?_sessions_act hid with hold | ⟨c, target, rfl, rfl, hfree, rfl⟩
      · exact hearlier hold
      · exact ⟨n, c, target, Nat.lt_succ_self n, ⟨hn, hfree⟩, rfl, rfl⟩

/-! ## Later acquisitions -/

/-- What is registered under a name before one step was registered by an acquisition that began
after another step. -/
def Superseded (w : World) (actions : List Action) (m n : Nat) (id : TargetId) : Prop :=
  ∃ m' c target, m < m' ∧ m' < n ∧ w.AcquiresAt actions m' c target ∧
    (w.before actions m').tree.idOf target = id ∧
    (w.before actions n).registry.sessions.get? id = some (w.recordAt actions m')

/-- **Who else can be registered.**  What is registered under the name of an acquisition is its own
record or that of a later one, as the name was free when it began. -/
theorem AcquiresAt.superseded_iff (hbegins : w.AcquiresAt actions m c target) (hu : w.Upright)
    (hempty : w.registry = .empty) (hid : (w.before actions m).tree.idOf target = id)
    (hmn : m < n) :
    w.Superseded actions m n id ↔
      ∃ h, (w.before actions n).registry.sessions.get? id = some h ∧ h ≠ w.recordAt actions m := by
  constructor
  · rintro ⟨m', c', target', hlt, -, hbegins', -, hreg⟩
    refine ⟨_, hreg, fun heq => ?_⟩
    exact Nat.ne_of_gt hlt (hbegins'.eq_of_recordAt_eq hu hbegins heq)
  · rintro ⟨h, hreg, hne⟩
    obtain ⟨m', c', target', hlt, hbegins', hid', rfl⟩ :=
      exists_acquiresAt_of_registered hempty hreg
    refine ⟨m', c', target', ?_, hlt, hbegins', hid', hreg⟩
    rcases Nat.lt_trichotomy m m' with hmm | rfl | hmm
    · exact hmm
    · exact absurd rfl hne
    · -- an earlier record that is still registered was registered all the time
      obtain ⟨r, hr⟩ := hbegins'.exists_record
      obtain ⟨r', hr', hname⟩ := (hu.before actions n).registry.named id _ hreg
      obtain ⟨r'', hr'', hlater⟩ := (hu.later_before hlt).registry.record _ r hr
      obtain rfl : r'' = r' := Option.some.inj (hr''.symm.trans hr')
      have hthen := hu.get?_sessions_before hmm (Nat.le_of_lt hmn) hr
        (hlater.id.symm.trans hname) hreg
      rw [← hid, hbegins.free] at hthen
      cases hthen

/-! ## How an acquisition fails -/

/-- An acquisition that fails releases its target's name, unless it waits for its own connection. -/
theorem registry_of_failed (hcall : w.calls.get? c = some call)
    (hacquires : call.acquires? = some (target, own)) (hstays : a.displaced? ≠ some c)
    (he : .finished c (.error f) ∈ (w.act a).2) :
    (call = .expecting target own ∧ (w.act a).1.registry = w.registry) ∨
    (call ≠ .expecting target own ∧
      (w.act a).1.registry = (w.registry.release (w.tree.idOf target)).2) := by
  have ha : a.call? = some c := call?_of_mem_act he
  rcases Action.eq_resume_or_answer ha hstays with rfl | ⟨reply, rfl⟩
  · have hresumed := resumed hcall
    rw [act] at he ⊢
    generalize w.resume c = x at hresumed he ⊢
    cases hresumed with
    | rests => cases he
    | routed => cases List.mem_singleton.mp he
    | connected => cases List.mem_singleton.mp he
    | completed => cases List.mem_singleton.mp he
    | refused id hnot hawaits =>
      left
      refine ⟨?_, rfl⟩
      cases call with
      | expecting => cases hacquires; rfl
      | awaitingAncestor target own ancestor h => exact absurd rfl (hnot target own ancestor h)
      | requesting => cases hawaits
      | listening | gated | replaying => cases hacquires
    | stranded hh =>
      subst hh
      cases hacquires
      refine Or.inr ⟨fun heq => ?_, rfl⟩
      cases heq
  · have hanswered := answered hcall reply
    rw [act] at he ⊢
    generalize w.answer c reply = x at hanswered he ⊢
    cases hanswered with
    | rests => cases he
    | taken => cases he
    | refused hh =>
      subst hh
      cases hacquires
      refine Or.inr ⟨fun heq => ?_, rfl⟩
      cases heq
    | told hh => subst hh; cases hacquires
    | failed hh => subst hh; cases hacquires

/-- A call that ends, and is not broken off, was under way. -/
theorem get?_calls_ne_none_of_failed (hstays : a.displaced? ≠ some c)
    (he : .finished c (.error f) ∈ (w.act a).2) : w.calls.get? c ≠ none := by
  intro hnone
  have ha : a.call? = some c := call?_of_mem_act he
  rcases Action.eq_resume_or_answer ha hstays with rfl | ⟨reply, rfl⟩
  · rw [act, resume_of_none hnone] at he
    cases he
  · rw [act, answer_of_none hnone] at he
    cases he

theorem AcquiresAt.exists_call_of_failed (hbegins : w.AcquiresAt actions m c target)
    (hu : w.Upright) (hlabel : (w.before actions m).tree.label? target = some (id, name))
    (hmn : m < n) (hstays : Undisturbed actions c (m + 1) (n + 1)) (hn : actions[n]? = some a)
    (he : .finished c (.error f) ∈ ((w.before actions n).act a).2) :
    ∃ call, (w.before actions n).calls.get? c = some call ∧
      call.acquires? = some (target, w.recordAt actions m) := by
  cases hbegins.stage_of_lt hu hlabel hmn
      fun k a hk hkn => hstays k a hk (Nat.lt_succ_of_lt hkn) with
  | awaits _ hcall => exact ⟨_, hcall, rfl⟩
  | sent _ hcall hkind =>
    refine ⟨_, hcall, ?_⟩
    rcases hkind with ⟨route, rfl⟩ | rfl <;> rfl
  | ended hcall =>
    exact absurd hcall (get?_calls_ne_none_of_failed (hstays n a hmn (Nat.lt_succ_self n) hn) he)

/-- **Whom a failing acquisition spares.** -/
theorem AcquiresAt.sparesOthers_iff (hbegins : w.AcquiresAt actions m c target) (hu : w.Upright)
    (hempty : w.registry = .empty)
    (hlabel : (w.before actions m).tree.label? target = some (id, name)) (hmn : m < n)
    (hstays : Undisturbed actions c (m + 1) (n + 1))
    (he : .finished c (.error f) ∈ w.seenAt actions n) :
    (w.before actions n).registry.SparesOthers (w.recordAt actions m)
        (w.before actions (n + 1)).registry ↔
      (w.before actions n).calls.get? c = some (.expecting target (w.recordAt actions m)) ∨
        ¬ w.Superseded actions m n id := by
  obtain ⟨a, hn, he⟩ := exists_of_mem_seenAt he
  obtain ⟨call, hcall, hacquires⟩ := hbegins.exists_call_of_failed hu hlabel hmn hstays hn he
  have hidOf : ∀ k, m ≤ k → (w.before actions k).tree.idOf target = id := fun k hmk =>
    TargetTree.idOf_of_label? ((hu.later_before hmk).label _ _ hlabel)
  rw [before_succ hn, hcall, Option.some_inj]
  rcases registry_of_failed hcall hacquires (hstays n a hmn (Nat.lt_succ_self n) hn) he with
    ⟨hexpects, hregistry⟩ | ⟨hother, hregistry⟩
  · rw [hregistry]
    exact iff_of_true (Registry.sparesOthers_refl _ _) (Or.inl hexpects)
  · rw [or_iff_right hother, hregistry, hidOf n (Nat.le_of_lt hmn),
      (hu.before actions n).registry.sparesOthers_release_iff,
      hbegins.superseded_iff hu hempty (hidOf m (Nat.le_refl m)) hmn]
    push Not
    rfl

/-- A call to `acquire` that ends at once changes no record. -/
theorem registry_of_failed_at_once (hu : w.Upright) (hn : actions[n]? = some (.acquire c target))
    (he : .finished c (.error f) ∈ w.seenAt actions n) :
    (w.before actions (n + 1)).registry = (w.before actions n).registry := by
  by_cases hfree : (w.before actions n).registry.sessions.get?
      ((w.before actions n).tree.idOf target) = none
  · rw [seenAt_of_getElem? hn, act] at he
    rcases acquire_cases (hu.before actions n) hfree c with ⟨ancestor, h, -, heq⟩ | ⟨-, heq⟩
    · rw [heq] at he
      cases he
    · rw [heq] at he
      cases List.mem_singleton.mp he
  · exact (seenAt_of_taken hn hfree).2.1

end World

/-- **What a failing call takes with it.**  A call to `acquire` that finds its target's name taken
changes no record.  One that has registered a record and fails later on leaves every other record
registered and as it was, exactly if it fails while it waits for its own connection, or if what is
registered under its target's name by then is not the record of a later acquisition. -/
theorem failure_spec (root : ConnectionId) (debugType : String) (actions : List Action) :
    let w := World.start root debugType
    (∀ n c target f, actions[n]? = some (.acquire c target) →
      .finished c (.error f) ∈ w.seenAt actions n →
        (w.before actions (n + 1)).registry = (w.before actions n).registry) ∧
    ∀ m n c target id name f, w.AcquiresAt actions m c target →
      (w.before actions m).tree.label? target = some (id, name) → m < n →
      World.Undisturbed actions c (m + 1) (n + 1) →
      .finished c (.error f) ∈ w.seenAt actions n →
        ((w.before actions n).registry.SparesOthers (w.recordAt actions m)
            (w.before actions (n + 1)).registry ↔
          (w.before actions n).calls.get? c = some (.expecting target (w.recordAt actions m)) ∨
            ¬ w.Superseded actions m n id) := by
  intro w
  have hu := World.upright_start root debugType
  refine ⟨fun n c target f hn he => World.registry_of_failed_at_once hu hn he, ?_⟩
  intro m n c target id name f hbegins hlabel hmn hstays he
  exact hbegins.sparesOthers_iff hu rfl hlabel hmn hstays he

/-- Two targets are asked for; the first one is asked for once more, and then the editor refuses its
request. -/
def declined : List Action :=
  [.addTarget ⟨"p"⟩ "p.js" .node none, .addTarget ⟨"q"⟩ "q.js" .node none,
    .acquire ⟨"first"⟩ ⟨0⟩, .acquire ⟨"other"⟩ ⟨1⟩, .acquire ⟨"again"⟩ ⟨0⟩,
    .answer ⟨"first"⟩ (.error (.other "refused"))]

/-- The second call for a target changes nothing, and the first one spares the record of the other
target when it fails. -/
theorem failure_spec_declined :
    let w := World.start ⟨"root"⟩ "node"
    (w.before declined 5).registry = (w.before declined 4).registry ∧
    (w.before declined 5).registry.SparesOthers (w.recordAt declined 2)
      (w.before declined 6).registry ∧
    (w.before declined 5).registry.sessions.entries = [(⟨"p"⟩, ⟨0⟩), (⟨"q"⟩, ⟨1⟩)] ∧
    (w.before declined 6).registry.sessions.entries = [(⟨"q"⟩, ⟨1⟩)] := by
  intro w
  have htaken : w.seenAt declined 4 =
      [.finished ⟨"again"⟩ (.error (.duplicateTarget ⟨"p"⟩))] := by cbv
  have hrefused : w.seenAt declined 5 = [.finished ⟨"first"⟩ (.error (.other "refused"))] := by cbv
  have hfree : (w.before declined 2).registry.sessions.get? ((w.before declined 2).tree.idOf ⟨0⟩) =
      none := by cbv
  have hlabel : (w.before declined 2).tree.label? ⟨0⟩ = some (⟨"p"⟩, "p.js") := by cbv
  have hother : (w.before declined 3).tree.idOf ⟨1⟩ = ⟨"q"⟩ := by cbv
  have hregistered : (w.before declined 4).registry.sessions.get?
      ((w.before declined 4).tree.idOf ⟨0⟩) = some ⟨0⟩ := by cbv
  have hstays : World.Undisturbed declined ⟨"first"⟩ (2 + 1) (5 + 1) := by
    intro k a hk hk' ha
    interval_cases k <;> cases ha <;> decide
  have hspec := failure_spec ⟨"root"⟩ "node" declined
  refine ⟨hspec.1 4 _ _ _ rfl (by rw [htaken]; exact List.mem_singleton_self _), ?_, by cbv, by cbv⟩
  refine (hspec.2 2 5 _ _ _ _ _ ⟨rfl, hfree⟩ hlabel (by decide) hstays
    (by rw [hrefused]; exact List.mem_singleton_self _)).mpr (Or.inr ?_)
  -- the only other call for the target found its name taken
  rintro ⟨m, c, target, hm, hm', hbegins, hid, -⟩
  interval_cases m
  · cases hbegins.action
    rw [hother] at hid
    exact absurd hid (by decide)
  · have hfree' := hbegins.free
    cases hbegins.action
    rw [hregistered] at hfree'
    cases hfree'

/-- A child waits for its parent; it is released, removed and added again without a parent, and
asked for again.  Then the parent is released, and the first call goes on. -/
def stale : List Action :=
  [.addTarget ⟨"p"⟩ "p.js" .node none, .addTarget ⟨"c"⟩ "c.js" .childProcess (some ⟨"p"⟩),
    .acquire ⟨"parent"⟩ ⟨0⟩, .acquire ⟨"first"⟩ ⟨1⟩, .release ⟨"c"⟩, .removeTarget ⟨"c"⟩,
    .addTarget ⟨"c"⟩ "c.js" .childProcess none, .acquire ⟨"second"⟩ ⟨2⟩, .release ⟨"p"⟩,
    .resume ⟨"first"⟩]

/-- **A stale call releases a later session.**  The first call fails because of the parent, and the
record that goes is that of the second call, whose connection was still to come. -/
theorem stale_failure_releases_later :
    let w := World.start ⟨"root"⟩ "node"
    w.AcquiresAt stale 3 ⟨"first"⟩ ⟨1⟩ ∧ w.AcquiresAt stale 7 ⟨"second"⟩ ⟨2⟩ ∧
    w.recordAt stale 3 ≠ w.recordAt stale 7 ∧
    w.seenAt stale 9 =
      [.finished ⟨"first"⟩ (.error (.sessionRejected ⟨"p"⟩ Record.releasedReason))] ∧
    (w.before stale 9).registry.sessions.get? ⟨"c"⟩ = some (w.recordAt stale 7) ∧
    (w.before stale 9).registry.outcome? (w.recordAt stale 7) .connection = none ∧
    (w.before stale 10).registry.session? ⟨"c"⟩ = none ∧
    (w.before stale 10).registry.outcome? (w.recordAt stale 7) .connection =
      some (.error Record.releasedReason) := by
  intro w
  have hfirst : (w.before stale 3).registry.sessions.get? ((w.before stale 3).tree.idOf ⟨1⟩) =
      none := by cbv
  have hsecond : (w.before stale 7).registry.sessions.get? ((w.before stale 7).tree.idOf ⟨2⟩) =
      none := by cbv
  have hown : w.recordAt stale 3 = ⟨1⟩ := by cbv
  have hlater : w.recordAt stale 7 = ⟨2⟩ := by cbv
  rw [hown, hlater]
  exact ⟨⟨rfl, hfirst⟩, ⟨rfl, hsecond⟩, by decide, by cbv, by cbv, by cbv, by cbv, by cbv⟩

end Session
end DebugTree
