import DebugTree.Proofs.Skipper.Lines

/-!
# A toggle on its tour

A toggle visits the session where it was asked for and then its siblings, one after the other.  At
every stop it waits for its turn, carries the decision out, and waits for the answer to its
ranges.  While nothing else is under way, a world on the way is known exactly: the stops behind
have taken the decision over once, the stops ahead are as they were, nobody stands in a line but
the toggle at its present stop, and sessions of other roots have not noticed anything.

`Progress` says this, with a list of the stops *done* and one of those *to do*.  A step of the
toggle moves one stop from one list to the other, or from waiting to having sent; everything else
that may happen meanwhile, ticks of scheduled pushes included, keeps it.  How many steps are left
can be read off the list of stops to do.
-/

namespace DebugTree
namespace Skipper

open Protocol

/-! ## Quiet worlds -/

/-- Nothing is under way: no operation, no scheduled push, no question for builtin modules. -/
structure World.IsIdle (w : World) : Prop where
  jobs : w.jobs.entries = []
  debouncer : ∀ k s, w.sessions.get? k = some s → s.debouncer.calls = []
  sending : ∀ k s, w.sessions.get? k = some s → s.sending = none
  discovery : ∀ k s, w.sessions.get? k = some s → s.discovery = .closed

/-- The action happens by itself, once operations have begun. -/
def Action.IsStep : Action → Prop
  | .proceed _ _ | .tick _ _ _ | .inquire _ | .answer _ _ => True
  | _ => False

/-- The action takes this job a step further. -/
def Action.isProceedOf (j : JobId) : Action → Bool
  | .proceed j' _ => j' = j
  | _ => false

/-- The session whose runtime or state an event is about. -/
def Event.session? : Event → Option Listener
  | .rangesSent k _ | .rangesAnswered k _ _ | .patternsSent k _ | .patternsAnswered k _
  | .builtinsAsked k | .builtinsAnswered k | .told k _ => some k
  | .finished _ _ => none

/-- Who is told about a change by an event. -/
def Event.told? : Event → Option (Listener × SkipToggled)
  | .told k e => some (k, e)
  | _ => none

theorem Event.filterMap_told?_append {seen more : List Event} (h : ∀ x ∈ more, x.told? = none) :
    (seen ++ more).filterMap Event.told? = seen.filterMap Event.told? := by
  rw [List.filterMap_append, List.filterMap_eq_nil_iff.mpr h, List.append_nil]

/-- Everybody who lives is kept alive by somebody. -/
theorem Reachable.isKept {w : World} (h : Reachable w) {e : Listener × Skipper}
    (he : e ∈ w.sessions.entries) : w.isKept e.1 e.2 = true := by
  cases h with
  | start => exact absurd he (List.not_mem_nil)
  | act _ _ => exact (List.mem_filter.mp he).2

namespace World

variable {w : World}

theorem IsIdle.get?_jobs (h : w.IsIdle) (j : JobId) : w.jobs.get? j = none := by
  rw [Index.get?, h.jobs, Index.find?_nil]

theorem IsIdle.isOwned (h : w.IsIdle) (hw : Reachable w) {k : Listener} {s : Skipper}
    (hs : w.sessions.get? k = some s) : s.isOwned = true := by
  have hkept := hw.isKept (Index.mem_entries_of_get? hs)
  simpa [isKept, h.sending k s hs, Index.values, h.jobs] using hkept

theorem IsIdle.line_eq_nil (h : w.IsIdle) (hw : Reachable w) {k : Listener} {s : Skipper}
    (hs : w.sessions.get? k = some s) : s.line = [] := by
  rw [List.eq_nil_iff_forall_not_mem]
  intro j hj
  obtain ⟨job, hjob, -⟩ := (hw.inLine.lined.mem_iff k s hs j).mp hj
  rw [h.get?_jobs] at hjob
  exact absurd hjob (by simp)

/-- As long as every session has its owner, nobody leaves. -/
theorem reap_of_isOwned (h : ∀ e ∈ w.sessions.entries, e.2.isOwned = true) : w.reap = w := by
  have hkept : ∀ e ∈ w.sessions.entries, w.isKept e.1 e.2 = true := by
    intro e he
    rw [isKept, h e he, Bool.true_or, Bool.true_or]
  have hgone : (w.sessions.entries.filter fun e => !w.isKept e.1 e.2) = [] := by
    rw [List.filter_eq_nil_iff]
    intro e he
    rw [hkept e he]
    exact Bool.false_ne_true
  rw [reap, hgone, List.filter_eq_self.mpr hkept, List.foldl_nil]

/-- A scheduled push touches the debouncer and what is being sent, and nothing else; where nothing
is scheduled, nothing happens. -/
theorem tick_cases {k : Listener} {s : Skipper} (hs : w.sessions.get? k = some s) (now : Instant)
    (latency : Nat) :
    (∃ d sending,
        (w.tick k now latency).1 = w.update k fun _ => { s with debouncer := d, sending }) ∧
      (∀ x ∈ (w.tick k now latency).2, x.session? = some k ∧ x.told? = none) ∧
      (s.debouncer.calls = [] → (w.tick k now latency).1 = w.update k (fun _ => s) ∧
        (w.tick k now latency).2 = []) := by
  unfold tick
  simp only [hs]
  split
  · next w' d hstep =>
    refine ⟨⟨_, _, rfl⟩, ?_, ?_⟩
    · intro x hx
      rw [List.mem_singleton.mp hx]
      exact ⟨rfl, rfl⟩
    · intro hcalls
      simp [Debouncer.step?, Debouncer.arm, hcalls] at hstep
  · next w' d hstep =>
    refine ⟨⟨_, _, rfl⟩, ?_, ?_⟩
    · intro x hx
      rw [List.mem_singleton.mp hx]
      exact ⟨rfl, rfl⟩
    · intro hcalls
      simp [Debouncer.step?, Debouncer.arm, hcalls] at hstep
  · next d hstep =>
    refine ⟨⟨_, s.sending, rfl⟩, fun x hx => absurd hx (List.not_mem_nil), ?_⟩
    intro hcalls
    simp [Debouncer.step?, Debouncer.arm, hcalls] at hstep
  · refine ⟨⟨_, s.sending, rfl⟩, fun x hx => absurd hx (List.not_mem_nil), ?_⟩
    intro hcalls
    have harm : s.debouncer.arm now = s.debouncer := by
      rw [Debouncer.arm, hcalls, List.map_nil, ← hcalls]
    rw [harm]
    exact ⟨rfl, rfl⟩

end World

/-! ## The tour -/

/-- A toggle of a URL that a request to a session resolved to, in a world. -/
structure Tour where
  start : World
  job : JobId
  origin : Listener
  session : Skipper
  url : String
  source : Option Source

namespace Tour

variable (T : Tour)

/-- The state of the file where the toggle was asked for. -/
def was : Bool := T.session.policy.isSkipped T.url

/-- What siblings are told. -/
def event : SkipToggled := ⟨T.session.root, T.session.target, T.url, !T.was⟩

/-- What the toggle ends with. -/
def outcome : Outcome := .toggled (.toggled T.url !T.was)

/-- The sessions that the toggle visits. -/
def stops : List Listener := T.origin :: T.start.peers T.session.root T.session.target

/-- The decision as it comes to a session. -/
def change (k : Listener) (t : Skipper) : SkipChange :=
  .decide T.url (if k = T.origin then T.source else t.graph.sourceByUrl? T.url) !T.was

/-- What the toggle does after a stop. -/
def sequel (k : Listener) (rest : List Listener) : Sequel :=
  if k = T.origin then .announce T.url T.was else .deliver T.event rest T.outcome

/-- The toggle is asked for in a quiet world, and concerns a URL that globs can speak about. -/
structure Valid : Prop where
  reachable : Reachable T.start
  idle : T.start.IsIdle
  distinct : ∀ k t k' t', T.start.sessions.get? k = some t → T.start.sessions.get? k' = some t' →
    t.target = t'.target → k = k'
  session_eq : T.start.sessions.get? T.origin = some T.session
  plain : IsPlainUrl T.url
  sensitive : ∀ k t, T.start.sessions.get? k = some t → t.root = T.session.root →
    t.policy.pathCase.isInsensitive = false
  external : ∀ k t, T.start.sessions.get? k = some t → t.root = T.session.root →
    t.policy.isNodeInternal T.url = false

/-- How a session has changed since the toggle was asked for. -/
structure Visit (applied : List Listener) (here : Option Listener) (k : Listener)
    (t t' : Skipper) : Prop where
  graph : t'.graph = t.graph
  isOwned : t'.isOwned = true
  discovery : t'.discovery = .closed
  policy : t'.policy = if k ∈ applied then (T.change k t).revise t.graph t.policy else t.policy
  line : t'.line = if here = some k then [T.job] else []
  away : t.root ≠ T.session.root → t' = t

/-- All sessions have changed as the toggle has left them. -/
def Visited (applied : List Listener) (here : Option Listener) (w : World) : Prop :=
  ∀ k t, T.start.sessions.get? k = some t →
    ∃ t', w.sessions.get? k = some t' ∧ T.Visit applied here k t t'

/-- What the toggle waits for at the first of the stops to do, or that it is home. -/
inductive JobAt : List Listener → Bool → Index JobId Job → Prop
  | turn (k : Listener) (t : Skipper) (rest keeps : List Listener)
      (ht : T.start.sessions.get? k = some t) :
      JobAt (k :: rest) false
        (.single T.job ⟨keeps, .turn k (T.change k t) (T.sequel k rest)⟩)
  | sent (k : Listener) (rest keeps : List Listener) (batch : RangeBatch) (renews : Bool) :
      JobAt (k :: rest) true
        (.single T.job ⟨keeps, .ranges k batch renews (T.sequel k rest)⟩)
  | home : JobAt [] false .empty

/-- The stops where the decision has been carried out. -/
def applied (done todo : List Listener) (sent : Bool) : List Listener :=
  if sent then done ++ todo.take 1 else done

/-- The world and what has been seen when some stops are done and some are to do. -/
structure Progress (done todo : List Listener) (sent : Bool) (w : World) (seen : List Event) :
    Prop where
  stops : done ++ todo = T.stops
  evolves : Evolves T.start w
  job : T.JobAt todo sent w.jobs
  sessions : T.Visited (applied done todo sent) todo.head? w
  told : seen.filterMap Event.told? =
    ((done ++ todo.take 1).drop 1).map fun k => (k, T.event)
  finished : ∀ o, Event.finished T.job o ∈ seen ↔ todo = [] ∧ o = T.outcome
  near : ∀ x ∈ seen, ∀ k, x.session? = some k →
    ∃ t, T.start.sessions.get? k = some t ∧ t.root = T.session.root

/-- How many steps of the toggle are left. -/
def stepsLeft (todo : List Listener) (sent : Bool) : Nat :=
  2 * todo.length - if sent then 1 else 0

/-! ## Where the toggle is -/

theorem JobAt.of_turn {T : Tour} {k : Listener} {rest : List Listener} {jobs : Index JobId Job}
    (h : T.JobAt (k :: rest) false jobs) : ∃ t keeps, T.start.sessions.get? k = some t ∧
      jobs = .single T.job ⟨keeps, .turn k (T.change k t) (T.sequel k rest)⟩ := by
  cases h with
  | turn k t rest keeps ht => exact ⟨t, keeps, ht, rfl⟩

theorem JobAt.of_sent {T : Tour} {k : Listener} {rest : List Listener} {jobs : Index JobId Job}
    (h : T.JobAt (k :: rest) true jobs) : ∃ keeps batch renews,
      jobs = .single T.job ⟨keeps, .ranges k batch renews (T.sequel k rest)⟩ := by
  cases h with
  | sent k rest keeps batch renews => exact ⟨keeps, batch, renews, rfl⟩

theorem JobAt.of_home {T : Tour} {sent : Bool} {jobs : Index JobId Job}
    (h : T.JobAt [] sent jobs) : jobs = .empty := by
  cases h
  rfl

/-- No other job is under way. -/
theorem JobAt.get?_of_ne {T : Tour} {todo : List Listener} {sent : Bool} {jobs : Index JobId Job}
    {j : JobId} (h : T.JobAt todo sent jobs) (hj : T.job ≠ j) : jobs.get? j = none := by
  cases h with
  | home => rfl
  | _ => rw [Index.get?_single, if_neg hj]

variable {T} {done todo rest : List Listener} {sent : Bool} {w : World} {seen : List Event}
  {k : Listener}

/-! ## Stops -/

theorem Valid.exists_of_mem_stops (hT : T.Valid) (hk : k ∈ T.stops) :
    ∃ t, T.start.sessions.get? k = some t ∧ t.root = T.session.root := by
  rcases List.mem_cons.mp hk with rfl | hk
  · exact ⟨T.session, hT.session_eq, rfl⟩
  · obtain ⟨t, ht, hroot, -⟩ := hT.reachable.seated.mem_peers_iff.mp hk
    exact ⟨t, ht, hroot⟩

theorem Valid.mem_stops_iff (hT : T.Valid) {t : Skipper}
    (ht : T.start.sessions.get? k = some t) : k ∈ T.stops ↔ t.root = T.session.root := by
  constructor
  · intro hk
    obtain ⟨t', ht', hroot⟩ := hT.exists_of_mem_stops hk
    rw [ht] at ht'
    rwa [Option.some.inj ht']
  · intro hroot
    by_cases hk : k = T.origin
    · exact hk ▸ List.mem_cons_self
    · refine List.mem_cons_of_mem _ ?_
      refine hT.reachable.seated.mem_peers_iff.mpr ⟨t, ht, hroot, fun h => ?_⟩
      exact hk (hT.distinct k t T.origin T.session ht hT.session_eq h)

theorem Valid.nodup_stops (hT : T.Valid) : T.stops.Nodup := by
  refine List.nodup_cons.mpr ⟨fun hmem => ?_, hT.reachable.seated.nodup_peers _ _⟩
  obtain ⟨t, ht, -, hne⟩ := hT.reachable.seated.mem_peers_iff.mp hmem
  rw [hT.session_eq] at ht
  exact hne (congrArg target (Option.some.inj ht)).symm

theorem Valid.nodup_of_eq (hT : T.Valid) (h : done ++ todo = T.stops) : (done ++ todo).Nodup :=
  h ▸ hT.nodup_stops

/-! ## Changes of single sessions -/

theorem Visit.congr {applied applied' : List Listener} {here here' : Option Listener}
    {t t' : Skipper} (h : T.Visit applied here k t t') (ha : k ∈ applied ↔ k ∈ applied')
    (hh : here = some k ↔ here' = some k) : T.Visit applied' here' k t t' where
  graph := h.graph
  isOwned := h.isOwned
  discovery := h.discovery
  policy := by simp only [h.policy, ha]
  line := by simp only [h.line, hh]
  away := h.away

theorem Visited.update {applied applied' : List Listener} {here here' : Option Listener}
    (h : T.Visited applied here w) {f : Skipper → Skipper}
    (hk : ∀ t t', T.start.sessions.get? k = some t → w.sessions.get? k = some t' →
      T.Visit applied here k t t' → T.Visit applied' here' k t (f t'))
    (hother : ∀ k', k ≠ k' → (k' ∈ applied ↔ k' ∈ applied') ∧ (here = some k' ↔ here' = some k')) :
    T.Visited applied' here' (w.update k f) := by
  intro k' t ht
  obtain ⟨t', ht', hvisit⟩ := h k' t ht
  rw [World.update, Index.get?_modify]
  split
  · next heq =>
    subst heq
    rw [ht']
    exact ⟨f t', rfl, hk t t' ht ht' hvisit⟩
  · next hne => exact ⟨t', ht', hvisit.congr (hother k' hne).1 (hother k' hne).2⟩

theorem Visited.exists_of_get? {applied : List Listener} {here : Option Listener}
    (h : T.Visited applied here w) (he : Evolves T.start w) {t' : Skipper}
    (ht' : w.sessions.get? k = some t') :
    ∃ t, T.start.sessions.get? k = some t ∧ T.Visit applied here k t t' := by
  obtain ⟨t, ht, -⟩ := he.exists_moves ht'
  obtain ⟨t'', ht'', hvisit⟩ := h k t ht
  rw [ht'] at ht''
  exact ⟨t, ht, Option.some.inj ht'' ▸ hvisit⟩

/-- Nobody leaves during a tour. -/
theorem Visited.reap_eq {applied : List Listener} {here : Option Listener}
    (h : T.Visited applied here w) (he : Evolves T.start w) (hT : T.Valid) : w.reap = w := by
  refine World.reap_of_isOwned fun e hmem => ?_
  have hnd : w.sessions.keys.Nodup := (hT.reachable.seated.evolve he).nodup
  obtain ⟨t, -, hvisit⟩ := h.exists_of_get? he ((Index.get?_eq_some_iff hnd).mpr hmem)
  exact hvisit.isOwned

/-! ## From one stop to the next -/

/-- The toggle has done some stops and is about to go on. -/
structure Between (done todo : List Listener) (w : World) (seen : List Event) : Prop where
  stops : done ++ todo = T.stops
  evolves : Evolves T.start w
  insert_job : ∀ job, w.jobs.insert T.job job = .single T.job job
  erase_job : w.jobs.erase T.job = .empty
  sessions : T.Visited done none w
  told : seen.filterMap Event.told? = (done.drop 1).map fun k => (k, T.event)
  finished : ∀ o, Event.finished T.job o ∉ seen
  near : ∀ x ∈ seen, ∀ k, x.session? = some k →
    ∃ t, T.start.sessions.get? k = some t ∧ t.root = T.session.root

/-- The decision is brought to the next stop. -/
theorem Between.bring (h : T.Between done (k :: rest) w seen) (hT : T.Valid) {t : Skipper}
    (ht : T.start.sessions.get? k = some t) (keeps : List Listener) :
    T.Progress done (k :: rest) false
      (w.bring T.job keeps k (T.change k t) (T.sequel k rest))
      (seen ++ if done = [] then [] else [.told k T.event]) := by
  have hnew : ∀ x ∈ (if done = [] then [] else [Event.told k T.event]), x = .told k T.event := by
    intro x hx
    split at hx
    · exact absurd hx (List.not_mem_nil)
    · exact List.mem_singleton.mp hx
  refine ⟨h.stops, h.evolves.trans (World.evolves_bring _ _ _ _ _), ?_, ?_, ?_, ?_, ?_⟩
  · rw [World.bring, World.suspend, World.update, h.insert_job]
    exact .turn k t rest keeps ht
  · refine h.sessions.update (fun t t' ht _ hvisit => ?_) fun k' hne => ⟨Iff.rfl, by simp [hne]⟩
    have hroot := (hT.mem_stops_iff ht).mp (h.stops ▸ by simp)
    refine ⟨hvisit.graph, hvisit.isOwned, hvisit.discovery, hvisit.policy, ?_,
      fun haway => absurd hroot haway⟩
    rw [join, hvisit.line]
    simp
  · rw [List.filterMap_append, h.told]
    cases done with
    | nil => simp
    | cons first done => simp [Event.told?]
  · intro o
    refine iff_of_false (fun hmem => ?_) (by simp)
    rcases List.mem_append.mp hmem with hmem | hmem
    · exact h.finished o hmem
    · exact absurd (hnew _ hmem) (by simp)
  · intro x hx k' hk'
    rcases List.mem_append.mp hx with hx | hx
    · exact h.near x hx k' hk'
    · rw [hnew x hx] at hk'
      rw [← Option.some.inj hk']
      exact hT.exists_of_mem_stops (h.stops ▸ by simp)

/-- The siblings that are still to be told are told one after the other. -/
theorem Between.tell (h : T.Between done todo w seen) (hT : T.Valid) (hdone : done ≠ [])
    (keeps : List Listener) :
    T.Progress done todo false (w.tell T.job keeps T.event T.outcome todo).1
      (seen ++ (w.tell T.job keeps T.event T.outcome todo).2) := by
  cases todo with
  | nil =>
    refine ⟨h.stops, h.evolves.jobs _, ?_, h.sessions, ?_, ?_, ?_⟩
    · rw [World.tell, World.finish, h.erase_job]
      exact .home
    · rw [World.tell, World.finish, List.filterMap_append, h.told]
      simp [Event.told?]
    · intro o
      rw [World.tell, World.finish, List.mem_append, List.mem_singleton]
      simp [h.finished o]
    · intro x hx k hk
      rw [World.tell, World.finish, List.mem_append, List.mem_singleton] at hx
      rcases hx with hx | rfl
      · exact h.near x hx k hk
      · exact absurd hk (by simp [Event.session?])
  | cons k rest =>
    obtain ⟨t, ht, -⟩ := hT.exists_of_mem_stops (k := k) (h.stops ▸ by simp)
    obtain ⟨t', ht', hvisit⟩ := h.sessions k t ht
    have hnd := hT.nodup_of_eq h.stops
    have horigin : k ≠ T.origin := by
      obtain ⟨first, more, rfl⟩ := List.exists_cons_of_ne_nil hdone
      have hfirst : first = T.origin := (List.cons.inj h.stops).1
      rintro rfl
      simp [hfirst] at hnd
    have hbring := h.bring hT ht keeps
    rw [if_neg hdone] at hbring
    rw [World.tell, ht']
    simp only [change, sequel, if_neg horigin] at hbring
    simp only [hvisit.graph]
    exact hbring

/-- An event about a session of the root, and none that tells or ends anything. -/
theorem Between.see (h : T.Between done todo w seen) (more : List Event)
    (hmore : ∀ x ∈ more, x.told? = none ∧ (∀ o, x ≠ .finished T.job o) ∧
      ∀ k, x.session? = some k → k ∈ T.stops) (hT : T.Valid) :
    T.Between done todo w (seen ++ more) where
  stops := h.stops
  evolves := h.evolves
  insert_job := h.insert_job
  erase_job := h.erase_job
  sessions := h.sessions
  told := by rw [Event.filterMap_told?_append fun x hx => (hmore x hx).1, h.told]
  finished := by
    intro o hmem
    rcases List.mem_append.mp hmem with hmem | hmem
    · exact h.finished o hmem
    · exact (hmore _ hmem).2.1 o rfl
  near := by
    intro x hx k hk
    rcases List.mem_append.mp hx with hx | hx
    · exact h.near x hx k hk
    · exact hT.exists_of_mem_stops ((hmore x hx).2.2 k hk)

/-- The ranges of a stop have been answered. -/
theorem Progress.leave (h : T.Progress done (k :: rest) true w seen) (hT : T.Valid)
    (renews : Bool) :
    T.Between (done ++ [k]) rest
      (w.update k fun s => (if renews then s.schedule else s).leave) seen := by
  obtain ⟨keeps, batch, renews', hjobs⟩ := h.job.of_sent
  refine ⟨?_, ?_, ?_, ?_, ?_, h.told, ?_, h.near⟩
  · rw [← h.stops, List.append_assoc, List.singleton_append]
  · exact h.evolves.trans (World.evolves_leave w k renews)
  · intro job
    rw [World.update, hjobs, Index.insert_single]
  · rw [World.update, hjobs, Index.erase_single]
  · refine h.sessions.update (fun t t' ht _ hvisit => ?_) fun k' hne => ⟨Iff.rfl, by simp [hne]⟩
    have hroot := (hT.mem_stops_iff ht).mp (h.stops ▸ by simp)
    have hline : t'.line = [T.job] := by rw [hvisit.line, List.head?_cons, if_pos rfl]
    have hleave : ((if renews then t'.schedule else t').leave).line = [] := by
      cases renews <;> exact congrArg List.tail hline
    refine ⟨?_, ?_, ?_, ?_, hleave, fun haway => absurd hroot haway⟩
    · cases renews <;> exact hvisit.graph
    · cases renews <;> exact hvisit.isOwned
    · cases renews <;> exact hvisit.discovery
    · cases renews <;> exact hvisit.policy
  · exact fun o hmem => absurd ((h.finished o).mp hmem).1 (List.cons_ne_nil _ _)

/-- At the origin and elsewhere, the toggle goes on by telling the stops that are left. -/
theorem Between.goOn_eq (h : T.Between (done ++ [k]) rest w seen) (hT : T.Valid)
    (keeps : List Listener) : ∃ keeps', w.goOn T.job keeps k (T.sequel k rest) =
      w.tell T.job keeps' T.event T.outcome rest := by
  by_cases hk : k = T.origin
  · subst hk
    have hnd := hT.nodup_of_eq h.stops
    have hdone : done = [] := by
      cases done with
      | nil => rfl
      | cons first done =>
        have hfirst : first = T.origin := (List.cons.inj h.stops).1
        simp [hfirst] at hnd
    subst hdone
    have hrest : rest = T.start.peers T.session.root T.session.target :=
      (List.cons.inj h.stops).2
    obtain ⟨t', ht', hvisit⟩ := h.sessions T.origin T.session hT.session_eq
    obtain ⟨t, ht, hmoves⟩ := h.evolves.exists_moves ht'
    rw [hT.session_eq] at ht
    have hseat := hmoves.seat_eq T.origin
    rw [← Option.some.inj ht, seat, seat, Seat.mk.injEq] at hseat
    have hskipped : t'.policy.isSkipped T.url = !T.was := by
      rw [hvisit.policy, if_pos (by simp), change]
      exact SkipChange.isSkipped_revise_decide _ (hT.reachable.lawful hT.session_eq)
        (hT.sensitive _ _ hT.session_eq rfl) hT.plain (hT.external _ _ hT.session_eq rfl) _ _
    have haudience : w.bus.audience w.isAlive T.event = rest := by
      rw [(hT.reachable.seated.evolve h.evolves).audience_eq, h.evolves.peers_eq, hrest]
      rfl
    have hevent : (⟨t'.root, t'.target, T.url, !T.was⟩ : SkipToggled) = T.event := by
      rw [hseat.2.1, hseat.2.2.1, event]
    have hne : (!T.was) ≠ T.was := by cases T.was <;> decide
    rw [sequel, if_pos rfl, World.goOn, ht']
    simp only [hskipped, if_neg hne, hevent, World.publish, haudience]
    exact ⟨_, rfl⟩
  · rw [sequel, if_neg hk, World.goOn]
    exact ⟨keeps, rfl⟩

/-! ## Steps -/

/-- **A step of the toggle** at a stop where it has sent its ranges takes it to the next one. -/
theorem Progress.arrive (h : T.Progress done (k :: rest) true w seen) (hT : T.Valid)
    (refused : List ScriptId) :
    T.Progress (done ++ [k]) rest false (w.proceed T.job refused).1
      (seen ++ (w.proceed T.job refused).2) := by
  obtain ⟨keeps, batch, renews, hjobs⟩ := h.job.of_sent
  have hget : w.jobs.get? T.job = some ⟨keeps, .ranges k batch renews (T.sequel k rest)⟩ := by
    rw [hjobs, Index.get?_single, if_pos rfl]
  have hbetween := h.leave hT renews
  obtain ⟨keeps', hgoOn⟩ := hbetween.goOn_eq hT keeps
  have hdone : done ++ [k] ≠ [] := by simp
  rw [World.proceed_ranges hget]
  simp only [hgoOn]
  by_cases hempty : batch.entries.isEmpty = true
  · rw [if_pos hempty]
    exact hbetween.tell hT hdone keeps'
  · rw [if_neg hempty]
    have hsee := hbetween.see [.rangesAnswered k batch refused] ?_ hT
    · have htell := hsee.tell hT hdone keeps'
      rwa [List.append_assoc, List.singleton_append] at htell
    · intro x hx
      rw [List.mem_singleton.mp hx]
      refine ⟨rfl, fun o => by simp, fun k' hk' => ?_⟩
      rw [← Option.some.inj hk', ← h.stops]
      simp

/-- At a stop where the toggle waits for its turn, it has its turn. -/
theorem Progress.send (h : T.Progress done (k :: rest) false w seen) (hT : T.Valid)
    (refused : List ScriptId) :
    T.Progress done (k :: rest) true (w.proceed T.job refused).1
      (seen ++ (w.proceed T.job refused).2) := by
  obtain ⟨t, keeps, ht, hjobs⟩ := h.job.of_turn
  obtain ⟨t', ht', hvisit⟩ := h.sessions k t ht
  have hget : w.jobs.get? T.job =
      some ⟨keeps, .turn k (T.change k t) (T.sequel k rest)⟩ := by
    rw [hjobs, Index.get?_single, if_pos rfl]
  have hturn : t'.isTurnOf T.job = true := by
    rw [isTurnOf, hvisit.line, List.head?_cons, if_pos rfl]
    simp
  have hk : k ∉ done := by
    intro hmem
    exact (List.nodup_append'.mp (hT.nodup_of_eq h.stops)).2.2 hmem List.mem_cons_self
  have hstop : k ∈ T.stops := h.stops ▸ by simp
  rw [World.proceed_turn hget ht' hturn]
  have hnew : ∀ x ∈ (if (t'.carryOut (T.change k t)).1.entries.isEmpty then []
      else [Event.rangesSent k (t'.carryOut (T.change k t)).1]),
      x.told? = none ∧ (∀ o, x ≠ .finished T.job o) ∧ x.session? = some k := by
    intro x hx
    split at hx
    · exact absurd hx (List.not_mem_nil)
    · rw [List.mem_singleton.mp hx]
      exact ⟨rfl, fun o => by simp, rfl⟩
  refine ⟨h.stops, ?_, ?_, ?_, ?_, ?_, ?_⟩
  · exact h.evolves.trans
      (.jobs (World.evolves_replace ht' (Moves.of_move (.carryOut t' _))) _)
  · simp only [World.suspend, World.update, hjobs, Index.insert_single]
    exact .sent k rest keeps _ _
  · refine h.sessions.update (fun t₁ t₁' ht₁ ht₁' hv => ?_) fun k' hne =>
      ⟨by simp [applied, Ne.symm hne], by simp [hne]⟩
    rw [ht] at ht₁
    rw [ht'] at ht₁'
    obtain rfl := Option.some.inj ht₁
    obtain rfl := Option.some.inj ht₁'
    refine ⟨hvisit.graph, hvisit.isOwned, hvisit.discovery, ?_, hvisit.line, fun haway =>
      absurd ((hT.mem_stops_iff ht).mp hstop) haway⟩
    have hpolicy : t'.policy = t.policy := by
      rw [hvisit.policy, if_neg (by simpa [applied] using hk)]
    rw [if_pos (by simp [applied]), ← hpolicy, ← hvisit.graph]
    rfl
  · rw [Event.filterMap_told?_append fun x hx => (hnew x hx).1, h.told]
  · intro o
    rw [List.mem_append, h.finished o]
    exact or_iff_left fun hmem => (hnew _ hmem).2.1 o rfl
  · intro x hx k' hk'
    rcases List.mem_append.mp hx with hx | hx
    · exact h.near x hx k' hk'
    · rw [(hnew x hx).2.2] at hk'
      rw [← Option.some.inj hk']
      exact hT.exists_of_mem_stops hstop

/-- A scheduled push takes a step. -/
theorem Progress.tick (h : T.Progress done todo sent w seen) (hT : T.Valid) (k : Listener)
    (now : Instant) (latency : Nat) :
    T.Progress done todo sent (w.tick k now latency).1 (seen ++ (w.tick k now latency).2) := by
  cases hget : w.sessions.get? k with
  | none =>
    rw [World.tick, hget]
    simpa using h
  | some t' =>
    obtain ⟨⟨d, sending, hworld⟩, hevents, hquiet⟩ := World.tick_cases hget now latency
    obtain ⟨t, ht, hvisit⟩ := h.sessions.exists_of_get? h.evolves hget
    refine ⟨h.stops, h.evolves.trans (World.evolves_tick k now latency), ?_, ?_, ?_, ?_, ?_⟩
    · rw [hworld]
      exact h.job
    · by_cases hroot : t.root = T.session.root
      · rw [hworld]
        refine h.sessions.update (fun t₁ t₁' ht₁ ht₁' hv => ?_) fun _ _ => ⟨Iff.rfl, Iff.rfl⟩
        rw [ht] at ht₁
        obtain rfl := Option.some.inj ht₁
        exact ⟨hvisit.graph, hvisit.isOwned, hvisit.discovery, hvisit.policy, hvisit.line,
          fun haway => absurd hroot haway⟩
      · have hidle : t'.debouncer.calls = [] := by
          rw [hvisit.away hroot]
          exact hT.idle.debouncer k t ht
        rw [(hquiet hidle).1]
        refine h.sessions.update (fun t₁ t₁' ht₁ ht₁' hv => ?_) fun _ _ => ⟨Iff.rfl, Iff.rfl⟩
        rw [hget] at ht₁'
        exact Option.some.inj ht₁' ▸ hv
    · rw [Event.filterMap_told?_append fun x hx => (hevents x hx).2, h.told]
    · intro o
      rw [List.mem_append, h.finished o]
      exact or_iff_left fun hmem => absurd (hevents _ hmem).1 (by simp [Event.session?])
    · intro x hx k' hk'
      rcases List.mem_append.mp hx with hx | hx
      · exact h.near x hx k' hk'
      · rw [(hevents x hx).1] at hk'
        obtain rfl := Option.some.inj hk'
        refine ⟨t, ht, ?_⟩
        by_contra haway
        rw [(hquiet (by rw [hvisit.away haway]; exact hT.idle.debouncer k t ht)).2] at hx
        exact absurd hx (List.not_mem_nil)

theorem Progress.inquire (h : T.Progress done todo sent w seen) (k : Listener) :
    w.inquire k = (w, []) := by
  unfold World.inquire
  split
  · next t' ht' =>
    obtain ⟨t, -, hvisit⟩ := h.sessions.exists_of_get? h.evolves ht'
    rw [hvisit.discovery]
    rfl
  · rfl

theorem Progress.answer (h : T.Progress done todo sent w seen) (k : Listener)
    (reply : Except Fault Json) : w.answer k reply = (w, []) := by
  unfold World.answer
  split
  · next t' ht' =>
    obtain ⟨t, -, hvisit⟩ := h.sessions.exists_of_get? h.evolves ht'
    rw [hvisit.discovery]
    rfl
  · rfl

/-- **Every step keeps the progress of the tour**, and a step of the toggle takes it further as
long as it is not home. -/
theorem Progress.take (h : T.Progress done todo sent w seen) (hT : T.Valid) {a : Action}
    (ha : a.IsStep) : ∃ done' todo' sent',
      T.Progress done' todo' sent' (w.take a).1 (seen ++ (w.take a).2) ∧
        stepsLeft todo' sent' ≤ stepsLeft todo sent - if a.isProceedOf T.job then 1 else 0 := by
  cases a with
  | proceed j refused =>
    by_cases hj : T.job = j
    · subst hj
      have hstep : (Action.proceed T.job refused).isProceedOf T.job = true := by
        simp [Action.isProceedOf]
      rw [hstep, if_pos rfl]
      cases todo with
      | nil =>
        have hhome : w.jobs.get? T.job = none := by rw [h.job.of_home, Index.get?_empty]
        refine ⟨done, [], sent, ?_, by simp [stepsLeft]⟩
        rw [World.take, World.proceed, hhome]
        simpa using h
      | cons k rest =>
        cases sent with
        | true =>
          refine ⟨done ++ [k], rest, false, h.arrive hT refused, ?_⟩
          simp only [stepsLeft, List.length_cons, if_true, Bool.false_eq_true, if_false]
          omega
        | false =>
          refine ⟨done, k :: rest, true, h.send hT refused, ?_⟩
          simp only [stepsLeft, if_true, Bool.false_eq_true, if_false]
          omega
    · have hnone := h.job.get?_of_ne hj
      refine ⟨done, todo, sent, ?_, by simp [Action.isProceedOf, Ne.symm hj]⟩
      rw [World.take, World.proceed, hnone]
      simpa using h
  | tick k now latency => exact ⟨done, todo, sent, h.tick hT k now latency, Nat.le_refl _⟩
  | inquire k =>
    refine ⟨done, todo, sent, ?_, Nat.le_refl _⟩
    rw [World.take, h.inquire k]
    simpa using h
  | answer k reply =>
    refine ⟨done, todo, sent, ?_, Nat.le_refl _⟩
    rw [World.take, h.answer k reply]
    simpa using h
  | _ => exact absurd ha (by simp [Action.IsStep])

theorem Progress.act (h : T.Progress done todo sent w seen) (hT : T.Valid) {a : Action}
    (ha : a.IsStep) : ∃ done' todo' sent',
      T.Progress done' todo' sent' (w.act a).1 (seen ++ (w.act a).2) ∧
        stepsLeft todo' sent' ≤ stepsLeft todo sent - if a.isProceedOf T.job then 1 else 0 := by
  obtain ⟨done', todo', sent', hprogress, hleft⟩ := h.take hT ha
  refine ⟨done', todo', sent', ?_, hleft⟩
  have hact : w.act a = ((w.take a).1.reap, (w.take a).2) := rfl
  rw [hact, hprogress.sessions.reap_eq hprogress.evolves hT]
  exact hprogress

/-- Any row of steps, among them some of the toggle. -/
theorem Progress.run (h : T.Progress done todo sent w seen) (hT : T.Valid)
    {steps : List Action} (hsteps : ∀ a ∈ steps, a.IsStep) : ∃ done' todo' sent',
      T.Progress done' todo' sent' (w.run steps).1 (seen ++ (w.run steps).2) ∧
        stepsLeft todo' sent' ≤ stepsLeft todo sent - steps.countP (·.isProceedOf T.job) := by
  induction steps generalizing done todo sent w seen with
  | nil => exact ⟨done, todo, sent, by simpa [World.run, runOf] using h, Nat.le_refl _⟩
  | cons a rest ih =>
    obtain ⟨done', todo', sent', hprogress, hleft⟩ := h.act hT (hsteps a List.mem_cons_self)
    obtain ⟨done'', todo'', sent'', hrun, hleft'⟩ :=
      ih hprogress fun b hb => hsteps b (List.mem_cons_of_mem a hb)
    refine ⟨done'', todo'', sent'', by simpa [World.run, runOf, List.append_assoc] using hrun, ?_⟩
    rw [List.countP_cons]
    omega

/-- The toggle sets out. -/
theorem Valid.progress_begin (hT : T.Valid) {request : ToggleRequest}
    (hrequest : T.session.resolve? request = some (T.url, T.source)) :
    T.Progress [] T.stops false (T.start.act (.begin T.job (.toggle T.origin request))).1
      (T.start.act (.begin T.job (.toggle T.origin request))).2 := by
  have hjobs : T.start.jobs = .empty := congrArg Index.mk hT.idle.jobs
  have hsessions : T.Visited [] none T.start := by
    intro k t ht
    exact ⟨t, ht, rfl, hT.idle.isOwned hT.reachable ht, hT.idle.discovery k t ht, rfl,
      hT.idle.line_eq_nil hT.reachable ht, fun _ => rfl⟩
  have hbetween : T.Between [] T.stops T.start [] :=
    ⟨rfl, .refl, fun job => by rw [hjobs, Index.insert_empty], by rw [hjobs, Index.erase_empty],
      hsessions, rfl, fun _ => List.not_mem_nil, fun _ h => absurd h List.not_mem_nil⟩
  have hbring := hbetween.bring hT hT.session_eq [T.origin]
  have htake : T.start.take (.begin T.job (.toggle T.origin request)) =
      (T.start.bring T.job [T.origin] T.origin (T.change T.origin T.session)
        (T.sequel T.origin (T.start.peers T.session.root T.session.target)), []) := by
    have hfree : T.start.jobs.contains T.job = false := by rw [hjobs]; rfl
    rw [World.take, hfree, if_neg Bool.false_ne_true, World.begin, hT.session_eq]
    simp only [hrequest, change, sequel, if_true, was]
  have hact : T.start.act (.begin T.job (.toggle T.origin request)) =
      ((T.start.take (.begin T.job (.toggle T.origin request))).1.reap,
        (T.start.take (.begin T.job (.toggle T.origin request))).2) := rfl
  rw [hact, htake, hbring.sessions.reap_eq hbring.evolves hT]
  exact hbring

end Tour
end Skipper
end DebugTree
