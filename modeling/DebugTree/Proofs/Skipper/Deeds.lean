import DebugTree.Proofs.Skipper.Issues

/-!
# What an action does

Moves say what can happen to a session at all, whoever does it.  Here it is said which action does
what: to a session and before the eyes of its runtime (`World.Deed`), and to the jobs
(`World.get?_jobs_take`).  What is proved about single sessions later on is a case analysis of these
two, and opens no action again.

A session that an action is not about is at most joined by a job, and its runtime sees nothing.  A
job that does not take the step is not touched.

## Moments of a run

Of two moments of a run that follow each other, the session at the later one has just opened, or it
was there at the earlier one and the action has done something to it (`World.session_before_succ`).
-/

namespace DebugTree

open Protocol

namespace Skipper

/-- The job that takes a step by an action. -/
def Action.job? : Action → Option JobId
  | .begin j _ => some j
  | .proceed j _ => some j
  | _ => none

/-- The session whose runtime sees an event. -/
def Event.runtime? : Event → Option Listener
  | .rangesSent k _ => some k
  | .rangesAnswered k _ _ => some k
  | .patternsSent k _ => some k
  | .patternsAnswered k _ => some k
  | .builtinsAsked k => some k
  | .builtinsAnswered k => some k
  | .told _ _ => none
  | .finished _ _ => none

/-- What the runtime of a session sees. -/
def seenBy (k : Listener) (seen : List Event) : List Event :=
  seen.filter fun e => e.runtime? = some k

variable {k k' : Listener} {seen : List Event}

theorem seenBy_append (k : Listener) (seen more : List Event) :
    seenBy k (seen ++ more) = seenBy k seen ++ seenBy k more :=
  List.filter_append _ _

theorem seenBy_cons_self {e : Event} (he : e.runtime? = some k) :
    seenBy k (e :: seen) = e :: seenBy k seen :=
  List.filter_cons_of_pos (by simp [he])

theorem seenBy_cons_of_ne {e : Event} (he : e.runtime? = some k) (hk : k ≠ k') :
    seenBy k' (e :: seen) = seenBy k' seen :=
  List.filter_cons_of_neg (by simp [he, hk])

/-- A batch without entries is not sent and not answered. -/
theorem seenBy_unless {e : Event} (he : e.runtime? = some k) (empty : Bool) :
    seenBy k' (if empty then [] else [e]) = if k = k' then if empty then [] else [e] else [] := by
  cases empty with
  | true => exact (ite_self _).symm
  | false =>
    by_cases hk : k = k'
    · subst hk
      rw [if_pos rfl]
      exact seenBy_cons_self he
    · rw [if_neg hk]
      exact seenBy_cons_of_ne he hk

namespace World

variable {w w' : World} {j : JobId} {s s' : Skipper} {a : Action}

/-! ## Joining -/

/-- Every session of one world is a session of another one, with jobs at the end of its line. -/
def Joins (w w' : World) : Prop :=
  ∀ k s', w'.sessions.get? k = some s' →
    ∃ s joined, w.sessions.get? k = some s ∧ s' = { s with line := s.line ++ joined }

theorem Joins.self (w : World) : w.Joins w :=
  fun _ s hs => ⟨s, [], hs, by rw [List.append_nil]⟩

theorem joins_bring (w : World) (j : JobId) (keeps : List Listener) (k : Listener)
    (c : SkipChange) (sequel : Sequel) : w.Joins (w.bring j keeps k c sequel) := by
  intro k' s' hs'
  rcases Index.get?_modify_eq_some_iff.mp hs' with ⟨rfl, s, hs, rfl⟩ | ⟨-, hs⟩
  · exact ⟨s, [j], hs, rfl⟩
  · exact Joins.self w k' s' hs

theorem joins_tell (w : World) (j : JobId) (keeps : List Listener) (e : SkipToggled)
    (outcome : Outcome) (audience : List Listener) :
    w.Joins (w.tell j keeps e outcome audience).1 := by
  induction audience with
  | nil => exact .self w
  | cons k rest ih =>
    rw [tell]
    split
    · exact joins_bring w j keeps k _ _
    · exact ih

theorem joins_goOn (w : World) (j : JobId) (keeps : List Listener) (k : Listener)
    (sequel : Sequel) : w.Joins (w.goOn j keeps k sequel).1 := by
  cases sequel with
  | finish => exact .self w
  | announce url was =>
    simp only [goOn]
    split
    · split
      · exact .self w
      · exact joins_tell w j _ _ _ _
    · exact .self w
  | deliver e rest outcome => exact joins_tell w j _ _ _ _

theorem joins_begin (w : World) (j : JobId) (operation : Operation) :
    w.Joins (w.begin j operation).1 := by
  cases operation with
  | load k source =>
    simp only [begin]
    split
    · exact joins_bring w j _ k _ _
    · exact .self w
  | toggle k request =>
    simp only [begin]
    split
    · split
      · exact joins_bring w j _ k _ _
      · exact .self w
    · exact .self w
  | ask k url =>
    simp only [begin]
    split <;> exact .self w
  | pushPatterns k =>
    simp only [begin]
    split <;> exact .self w
  | publish e => exact joins_tell w j _ _ _ _

/-! ## What runtimes see -/

theorem seenBy_tell (w : World) (j : JobId) (keeps : List Listener) (e : SkipToggled)
    (outcome : Outcome) (audience : List Listener) (k : Listener) :
    seenBy k (w.tell j keeps e outcome audience).2 = [] := by
  induction audience with
  | nil => rfl
  | cons k' rest ih =>
    rw [tell]
    split
    · rfl
    · exact ih

theorem seenBy_goOn (w : World) (j : JobId) (keeps : List Listener) (k' : Listener)
    (sequel : Sequel) (k : Listener) : seenBy k (w.goOn j keeps k' sequel).2 = [] := by
  cases sequel with
  | finish => rfl
  | announce url was =>
    simp only [goOn]
    split
    · split
      · rfl
      · exact seenBy_tell w j _ _ _ _ k
    · rfl
  | deliver e rest outcome => exact seenBy_tell w j _ _ _ _ k

theorem seenBy_begin (w : World) (j : JobId) {operation : Operation}
    (h : ∀ k, operation ≠ .pushPatterns k) (k : Listener) :
    seenBy k (w.begin j operation).2 = [] := by
  cases operation with
  | load k' source =>
    simp only [begin]
    split <;> rfl
  | toggle k' request =>
    simp only [begin]
    split
    · split <;> rfl
    · rfl
  | ask k' url =>
    simp only [begin]
    split <;> rfl
  | pushPatterns k' => exact absurd rfl (h k')
  | publish e => exact seenBy_tell w j _ _ _ _ k

/-! ## Deeds -/

/-- The action is somebody's turn at the session, or the end of one. -/
def Serves (w : World) (k : Listener) (a : Action) : Prop :=
  ∃ j refused, a = .proceed j refused ∧
    ((∃ c s, w.Plans j k c s) ∨ ∃ batch, w.Awaits j k batch)

/-- What an action does to a session, and what the runtime of the session sees of it. -/
inductive Deed (w : World) (k : Listener) (s : Skipper) : Action → Skipper → List Event → Prop
  /-- Jobs join the line, or nothing happens. -/
  | join {a : Action} (joined : List JobId) (h : ¬ w.Serves k a) :
    Deed w k s a { s with line := s.line ++ joined } []
  | close : Deed w k s (.closeSession k) { s with isOwned := false } []
  | regraph (g : SourceGraph) : Deed w k s (.replaceGraph k g) { s with graph := g } []
  /-- A job carries its change out. -/
  | turn {j : JobId} {refused : List ScriptId} {c : SkipChange} (h : w.Plans j k c s) :
    Deed w k s (.proceed j refused) (s.carryOut c).2
      (if (s.carryOut c).1.entries.isEmpty then [] else [.rangesSent k (s.carryOut c).1])
  /-- The ranges of a job have been answered; it leaves the line, and may join it again. -/
  | leave {j : JobId} {refused : List ScriptId} {keeps : List Listener} {batch : RangeBatch}
    {renews : Bool} {sequel : Sequel} (joined : List JobId)
    (h : w.jobs.get? j = some ⟨keeps, .ranges k batch renews sequel⟩) :
    Deed w k s (.proceed j refused)
      { (if renews then s.schedule else s) with line := s.line.tail ++ joined }
      (if batch.entries.isEmpty then [] else [.rangesAnswered k batch refused])
  /-- Patterns are sent at once. -/
  | order {j : JobId} :
    Deed w k s (.begin j (.pushPatterns k)) s [.patternsSent k s.policy.blackboxSources]
  | ordered {j : JobId} {refused : List ScriptId} {keeps : List Listener} {patterns : List String}
    (h : w.jobs.get? j = some ⟨keeps, .patterns k patterns⟩) :
    Deed w k s (.proceed j refused) s [.patternsAnswered k patterns]
  /-- A scheduled push begins. -/
  | push {now : Instant} {latency : Nat} {d : Debouncer Unit} {more : List (Debouncer.Event Unit)}
    (h : (s.debouncer.arm now).step? now (fun _ => latency) = some (.started () :: more, d)) :
    Deed w k s (.tick k now latency) { s.startPush.2 with debouncer := d }
      [.patternsSent k s.policy.blackboxSources]
  /-- The push that was begun is answered. -/
  | pushed {now : Instant} {latency : Nat} {d : Debouncer Unit}
    {more : List (Debouncer.Event Unit)}
    (h : (s.debouncer.arm now).step? now (fun _ => latency) = some (.ended () :: more, d)) :
    Deed w k s (.tick k now latency) { s.endPush.2 with debouncer := d }
      [.patternsAnswered k (s.sending.getD [])]
  /-- A scheduled push is given up. -/
  | drop {now : Instant} {latency : Nat} {d : Debouncer Unit}
    (h : (s.debouncer.arm now).step? now (fun _ => latency) = some ([], d)) :
    Deed w k s (.tick k now latency) { s with debouncer := d } []
  /-- Scheduled pushes are looked at. -/
  | arm {now : Instant} {latency : Nat} :
    Deed w k s (.tick k now latency) { s with debouncer := s.debouncer.arm now } []
  | inquire : Deed w k s (.inquire k) { s with discovery := .asked } [.builtinsAsked k]
  | learn (reply : Except Fault Json) :
    Deed w k s (.answer k reply) (s.learn reply) [.builtinsAnswered k]

/-- The action does this to every session. -/
def Does (w : World) (a : Action) (r : World × List Event) : Prop :=
  ∀ k s', r.1.sessions.get? k = some s' →
    ∃ s, w.sessions.get? k = some s ∧ w.Deed k s a s' (seenBy k r.2)

theorem Deed.self (s : Skipper) (h : ¬ w.Serves k a) : w.Deed k s a s [] := by
  have hjoin := Deed.join (s := s) [] h
  rwa [List.append_nil] at hjoin

theorem Joins.does (h : w.Joins w') (hserves : ∀ k, ¬ w.Serves k a)
    (hseen : ∀ k, seenBy k seen = []) : w.Does a (w', seen) := by
  intro k s' hs'
  obtain ⟨s, joined, hs, rfl⟩ := h k s' hs'
  refine ⟨s, hs, ?_⟩
  rw [hseen k]
  exact .join joined (hserves k)

/-- An action that is about one session. -/
theorem does_update {f : Skipper → Skipper}
    (hf : ∀ s, w.sessions.get? k = some s → w.Deed k s a (f s) (seenBy k seen))
    (hserves : ∀ k', k ≠ k' → ¬ w.Serves k' a) (hseen : ∀ k', k ≠ k' → seenBy k' seen = []) :
    w.Does a (w.update k f, seen) := by
  intro k' s' hs'
  rcases Index.get?_modify_eq_some_iff.mp hs' with ⟨rfl, s, hs, rfl⟩ | ⟨hk, hs⟩
  · exact ⟨s, hs, hf s hs⟩
  · refine ⟨s', hs, ?_⟩
    rw [hseen k' hk]
    exact .self s' (hserves k' hk)

theorem not_serves (ha : ∀ j refused, a ≠ .proceed j refused) (k : Listener) :
    ¬ w.Serves k a := by
  rintro ⟨j, refused, rfl, -⟩
  exact ha j refused rfl

theorem does_replace {t : Skipper} (hs : w.sessions.get? k = some s)
    (ht : w.Deed k s a t (seenBy k seen)) (hserves : ∀ k', ¬ w.Serves k' a)
    (hseen : ∀ k', k ≠ k' → seenBy k' seen = []) : w.Does a (w.update k fun _ => t, seen) :=
  does_update (fun _ hs' => Option.some.inj (hs.symm.trans hs') ▸ ht) (fun k' _ => hserves k') hseen

theorem does_begin (w : World) (j : JobId) (operation : Operation) :
    w.Does (.begin j operation) (w.begin j operation) := by
  have hserves : ∀ k, ¬ w.Serves k (.begin j operation) := not_serves (by simp)
  by_cases hpush : ∃ k, operation = .pushPatterns k
  · obtain ⟨k, rfl⟩ := hpush
    simp only [begin]
    split
    · next s hs =>
      intro k' s' hs'
      refine ⟨s', hs', ?_⟩
      by_cases hk : k = k'
      · subst hk
        rw [seenBy_cons_self rfl, Option.some.inj (hs.symm.trans hs')]
        exact .order
      · rw [seenBy_cons_of_ne rfl hk]
        exact .self s' (hserves k')
    · exact (Joins.self w).does hserves fun _ => rfl
  · exact (joins_begin w j operation).does hserves
      (seenBy_begin w j fun k hk => hpush ⟨k, hk⟩)

/-- Whoever is served by a step of a job is the session in whose line the job stands. -/
theorem exists_job_of_serves {refused : List ScriptId} (h : w.Serves k (.proceed j refused)) :
    ∃ job, w.jobs.get? j = some job ∧ job.wait.place? = some k := by
  obtain ⟨_, _, heq, ⟨c, s, ⟨keeps, sequel, hjob⟩, -, -⟩ | ⟨batch, keeps, renews, sequel, hjob⟩⟩ := h
  all_goals
    cases heq
    exact ⟨_, hjob, rfl⟩

theorem not_serves_of_ne {refused : List ScriptId} {job : Job} (hjob : w.jobs.get? j = some job)
    (hk : job.wait.place? ≠ some k) : ¬ w.Serves k (.proceed j refused) := by
  intro h
  obtain ⟨job', hjob', hplace⟩ := exists_job_of_serves h
  rw [hjob, Option.some.injEq] at hjob'
  exact hk (hjob' ▸ hplace)

/-- A job whose turn it is not stays where it is. -/
theorem proceed_of_not_plans {keeps : List Listener} {c : SkipChange} {sequel : Sequel}
    {refused : List ScriptId} (hjob : w.jobs.get? j = some ⟨keeps, .turn k c sequel⟩)
    (hnot : ¬ ∃ s, w.Plans j k c s) : w.proceed j refused = (w, []) := by
  cases hs : w.sessions.get? k with
  | none => simp only [proceed, hjob, hs]
  | some s => exact proceed_turn_of_not hjob hs fun hturn => hnot ⟨s, ⟨_, _, hjob⟩, hs, hturn⟩

theorem does_turn {keeps : List Listener} {c : SkipChange} {sequel : Sequel}
    (hjob : w.jobs.get? j = some ⟨keeps, .turn k c sequel⟩) (refused : List ScriptId) :
    w.Does (.proceed j refused) (w.proceed j refused) := by
  have hothers : ∀ k', k ≠ k' → ¬ w.Serves k' (.proceed j refused) :=
    fun k' hk => not_serves_of_ne hjob (mt Option.some.inj hk)
  by_cases hplans : ∃ s, w.Plans j k c s
  · obtain ⟨s, hplans⟩ := hplans
    have hrun : (Event.rangesSent k (s.carryOut c).1).runtime? = some k := rfl
    rw [proceed_turn hjob hplans.session hplans.turn]
    refine does_update (fun t ht => ?_) hothers fun k' hk => ?_
    · obtain rfl : s = t := Option.some.inj (hplans.session.symm.trans ht)
      rw [seenBy_unless hrun, if_pos rfl]
      exact .turn hplans
    · rw [seenBy_unless hrun, if_neg hk]
  · have hself : ¬ w.Serves k (.proceed j refused) := by
      rintro ⟨_, _, heq, ⟨c', s, hplans'⟩ | ⟨batch, keeps', renews, sequel', hjob'⟩⟩
      · cases heq
        obtain ⟨keeps', sequel', hjob'⟩ := hplans'.job
        rw [hjob] at hjob'
        cases hjob'
        exact hplans ⟨s, hplans'⟩
      · cases heq
        rw [hjob] at hjob'
        cases hjob'
    rw [proceed_of_not_plans hjob hplans]
    refine (Joins.self w).does (fun k' => ?_) fun _ => rfl
    by_cases hk : k = k'
    · exact hk ▸ hself
    · exact hothers k' hk

theorem seenBy_proceed_ranges {keeps : List Listener} {batch : RangeBatch} {renews : Bool}
    {sequel : Sequel} (hjob : w.jobs.get? j = some ⟨keeps, .ranges k batch renews sequel⟩)
    (refused : List ScriptId) (k' : Listener) :
    seenBy k' (w.proceed j refused).2 =
      if k = k' then if batch.entries.isEmpty then [] else [.rangesAnswered k batch refused]
      else [] := by
  have hrun : (Event.rangesAnswered k batch refused).runtime? = some k := rfl
  have hsplit : (w.proceed j refused).2 =
      (if batch.entries.isEmpty then [] else [.rangesAnswered k batch refused]) ++
        (World.goOn (w.update k fun s => (if renews then s.schedule else s).leave)
          j keeps k sequel).2 := by
    rw [proceed_ranges hjob]
    cases batch.entries.isEmpty <;> rfl
  rw [hsplit, seenBy_append, seenBy_goOn, List.append_nil, seenBy_unless hrun]

theorem does_answered {keeps : List Listener} {batch : RangeBatch} {renews : Bool}
    {sequel : Sequel} (hjob : w.jobs.get? j = some ⟨keeps, .ranges k batch renews sequel⟩)
    (refused : List ScriptId) : w.Does (.proceed j refused) (w.proceed j refused) := by
  intro k' s' hs'
  rw [seenBy_proceed_ranges hjob]
  rw [proceed_ranges hjob] at hs'
  obtain ⟨t, joined, ht, rfl⟩ := joins_goOn _ j keeps k sequel k' s' hs'
  rcases Index.get?_modify_eq_some_iff.mp ht with ⟨rfl, s, hs, rfl⟩ | ⟨hk, hs⟩
  · have hline : (if renews then s.schedule else s).line = s.line := by cases renews <;> rfl
    rw [if_pos rfl]
    refine ⟨s, hs, ?_⟩
    rw [leave, hline]
    exact .leave joined hjob
  · rw [if_neg hk]
    exact ⟨t, hs, .join joined (not_serves_of_ne hjob (mt Option.some.inj hk))⟩

theorem does_proceed (w : World) (j : JobId) (refused : List ScriptId) :
    w.Does (.proceed j refused) (w.proceed j refused) := by
  rcases hjob : w.jobs.get? j with _ | ⟨keeps, ⟨k, c, sequel⟩ | ⟨k, batch, renews, sequel⟩ |
    ⟨k, patterns⟩⟩
  · rw [proceed, hjob]
    refine (Joins.self w).does (fun k h => ?_) fun _ => rfl
    obtain ⟨job, hjob', -⟩ := exists_job_of_serves h
    rw [hjob] at hjob'
    cases hjob'
  · exact does_turn hjob refused
  · exact does_answered hjob refused
  · have hserves : ∀ k', ¬ w.Serves k' (.proceed j refused) :=
      fun k' => not_serves_of_ne hjob (by simp [Wait.place?])
    simp only [proceed, hjob]
    intro k' s' hs'
    refine ⟨s', hs', ?_⟩
    change w.Deed k' s' _ s' (seenBy k' [.patternsAnswered k patterns, .finished j .done])
    by_cases hk : k = k'
    · subst hk
      rw [seenBy_cons_self rfl]
      exact .ordered hjob
    · rw [seenBy_cons_of_ne rfl hk]
      exact .self s' (hserves k')

theorem does_tick (w : World) (k : Listener) (now : Instant) (latency : Nat) :
    w.Does (.tick k now latency) (w.tick k now latency) := by
  have hserves : ∀ k', ¬ w.Serves k' (.tick k now latency) := not_serves (by simp)
  cases hs : w.sessions.get? k with
  | none =>
    simp only [tick, hs]
    exact (Joins.self w).does hserves fun _ => rfl
  | some s =>
    have hquiet : ∀ {t : Skipper}, w.Deed k s (.tick k now latency) t [] →
        w.Does (.tick k now latency) (w.update k fun _ => t, []) :=
      fun ht => does_replace hs ht hserves fun _ _ => rfl
    have hseen : ∀ {t : Skipper} {e : Event}, e.runtime? = some k →
        w.Deed k s (.tick k now latency) t [e] →
          w.Does (.tick k now latency) (w.update k fun _ => t, [e]) :=
      fun he ht => does_replace hs ((seenBy_cons_self he).symm ▸ ht) hserves
        fun _ hk => seenBy_cons_of_ne he hk
    simp only [tick, hs]
    split
    · next hstep => exact hseen rfl (.push hstep)
    · next hstep => exact hseen rfl (.pushed hstep)
    · next hstep => exact hquiet (.drop hstep)
    · exact hquiet .arm

/-- **What an action does to the sessions**, unless it opens one. -/
theorem does_take (w : World) (ha : ¬ a.IsOpening) : w.Does a (w.take a) := by
  cases a with
  | openSession o => exact absurd trivial ha
  | closeSession k =>
    exact does_update (fun s _ => .close) (fun k' _ => not_serves (by simp) k') fun _ _ => rfl
  | replaceGraph k g =>
    exact does_update (fun s _ => .regraph g) (fun k' _ => not_serves (by simp) k') fun _ _ => rfl
  | begin j operation =>
    simp only [take]
    split
    · exact (Joins.self w).does (not_serves (by simp)) fun _ => rfl
    · exact does_begin w j operation
  | proceed j refused => exact does_proceed w j refused
  | tick k now latency => exact does_tick w k now latency
  | inquire k =>
    have hserves : ∀ k', ¬ w.Serves k' (.inquire k) := not_serves (by simp)
    simp only [take, World.inquire]
    split
    · split
      · refine does_update (fun s _ => ?_) (fun k' _ => hserves k') fun _ hk =>
        seenBy_cons_of_ne rfl hk
        rw [seenBy_cons_self rfl]
        exact .inquire
      · exact (Joins.self w).does hserves fun _ => rfl
    · exact (Joins.self w).does hserves fun _ => rfl
  | answer k reply =>
    have hserves : ∀ k', ¬ w.Serves k' (.answer k reply) := not_serves (by simp)
    simp only [take, World.answer]
    split
    · split
      · refine does_update (fun s _ => ?_) (fun k' _ => hserves k') fun _ hk =>
        seenBy_cons_of_ne rfl hk
        rw [seenBy_cons_self rfl]
        exact .learn reply
      · exact (Joins.self w).does hserves fun _ => rfl
    · exact (Joins.self w).does hserves fun _ => rfl

/-- A session after an action has just opened, or the action did something to it. -/
theorem opened_or_deed (hs' : (w.take a).1.sessions.get? k = some s') :
    (∃ o, a = .openSession o ∧ k = ⟨w.nextListener⟩ ∧
      s' = o.skipper (w.bus.subscribe o.root o.target k).1) ∨
      ∃ s, w.sessions.get? k = some s ∧ w.Deed k s a s' (seenBy k (w.take a).2) := by
  by_cases hopening : a.IsOpening
  · cases a with
    | openSession o =>
      rcases Index.of_get?_insert_eq_some hs' with ⟨rfl, rfl⟩ | hs
      · exact Or.inl ⟨o, rfl, rfl, rfl⟩
      · exact Or.inr ⟨s', hs, .self s' (not_serves (by simp) k)⟩
    | _ => exact absurd hopening (by simp [Action.IsOpening])
  · exact Or.inr (w.does_take hopening k s' hs')

/-- A job that takes a step waits at a session that is there. -/
theorem seenBy_proceed_of_get?_eq_none (hin : w.InLine) (hnone : w.sessions.get? k = none)
    (j : JobId) (refused : List ScriptId) : seenBy k (w.proceed j refused).2 = [] := by
  have hwaits : ∀ job, w.jobs.get? j = some job → k ∉ job.wait.listeners := by
    intro job hjob hk
    have halive := hin.lined.alive j job hjob k (hin.lined.kept j job hjob k hk)
    rw [Index.contains, hnone] at halive
    cases halive
  rcases hjob : w.jobs.get? j with _ | ⟨keeps, ⟨k', c, sequel⟩ | ⟨k', batch, renews, sequel⟩ |
    ⟨k', patterns⟩⟩
  · simp only [proceed, hjob]
    rfl
  all_goals have hk : k' ≠ k := fun hk => hwaits _ hjob (hk ▸ List.mem_cons_self)
  · simp only [proceed, hjob]
    split
    · split
      · exact (seenBy_unless rfl _).trans (if_neg hk)
      · rfl
    · rfl
  · exact (seenBy_proceed_ranges hjob refused k).trans (if_neg hk)
  · simp only [proceed, hjob]
    exact seenBy_cons_of_ne rfl hk

/-- The runtime of a session that is not there sees nothing. -/
theorem seenBy_take_of_get?_eq_none (hin : w.InLine) (hnone : w.sessions.get? k = none)
    (a : Action) : seenBy k (w.take a).2 = [] := by
  have hne : ∀ {k' : Listener} {t : Skipper}, w.sessions.get? k' = some t → k' ≠ k := by
    rintro k' t ht rfl
    rw [hnone] at ht
    cases ht
  cases a with
  | begin j operation =>
    simp only [take]
    split
    · rfl
    · by_cases hpush : ∃ k', operation = .pushPatterns k'
      · obtain ⟨k', rfl⟩ := hpush
        simp only [begin]
        split
        · next hs => exact seenBy_cons_of_ne rfl (hne hs)
        · rfl
      · exact seenBy_begin w j (fun k' hk' => hpush ⟨k', hk'⟩) k
  | proceed j refused => exact seenBy_proceed_of_get?_eq_none hin hnone j refused
  | tick k' now latency =>
    simp only [take, World.tick]
    split
    · next hs =>
      split
      · exact seenBy_cons_of_ne rfl (hne hs)
      · exact seenBy_cons_of_ne rfl (hne hs)
      · rfl
      · rfl
    · rfl
  | inquire k' =>
    simp only [take, World.inquire]
    split
    · next hs =>
      split
      · exact seenBy_cons_of_ne rfl (hne hs)
      · rfl
    · rfl
  | answer k' reply =>
    simp only [take, World.answer]
    split
    · next hs =>
      split
      · exact seenBy_cons_of_ne rfl (hne hs)
      · rfl
    · rfl
  | _ => rfl

theorem exists_take (hseated : w.Seated) (hs : w.sessions.get? k = some s) (a : Action) :
    ∃ s', (w.take a).1.sessions.get? k = some s' := by
  by_cases hopening : a.IsOpening
  · cases a with
    | openSession o =>
      have hne : (⟨w.nextListener⟩ : Listener) ≠ k := by
        rintro rfl
        rw [hseated.get?_nextListener] at hs
        cases hs
      exact ⟨s, (Index.get?_insert _ _ _ _).trans ((if_neg hne).trans hs)⟩
    | _ => exact absurd hopening (by simp [Action.IsOpening])
  · have hkey := Index.mem_keys_of_get? hs
    rw [← (evolves_take hopening).keys_eq, ← Index.contains_iff] at hkey
    exact Option.isSome_iff_exists.mp hkey

/-- What a runtime sees of an action, the action has done to its session. -/
theorem seenBy_act_cases (hin : w.InLine) (hseated : w.Seated) (k : Listener) (a : Action) :
    seenBy k (w.act a).2 = [] ∨
      ∃ s s', w.sessions.get? k = some s ∧ w.Deed k s a s' (seenBy k (w.act a).2) := by
  change seenBy k (w.take a).2 = [] ∨ ∃ s s', _ ∧ w.Deed k s a s' (seenBy k (w.take a).2)
  cases hs : w.sessions.get? k with
  | none => exact Or.inl (seenBy_take_of_get?_eq_none hin hs a)
  | some s =>
    obtain ⟨s', hs'⟩ := exists_take hseated hs a
    rcases opened_or_deed hs' with ⟨o, rfl, -⟩ | ⟨t, ht, hdeed⟩
    · exact Or.inl rfl
    · exact Or.inr ⟨s, s', rfl, Option.some.inj (ht.symm.trans hs) ▸ hdeed⟩

/-! ## What happens to a graph, and to a policy -/

theorem Deed.graph_cases (h : w.Deed k s a s' seen) :
    s'.graph = s.graph ∨ ∃ g, a = .replaceGraph k g := by
  cases h with
  | regraph g => exact Or.inr ⟨g, rfl⟩
  | @leave _ _ _ _ renews _ _ _ => cases renews <;> exact Or.inl rfl
  | learn reply =>
    unfold Skipper.learn
    split <;> exact Or.inl rfl
  | _ => exact Or.inl rfl

/-- **A policy changes when a change is carried out, and when the builtin modules become known**,
and at no other time. -/
theorem Deed.policy_cases (h : w.Deed k s a s' seen) :
    s'.policy = s.policy ∨
      (∃ j refused c, a = .proceed j refused ∧ w.Plans j k c s ∧
        s'.policy = c.revise s.graph s.policy) ∨
      ∃ reply names, a = .answer k reply ∧ Discovery.names? reply = some names ∧
        s'.policy = s.policy.setBuiltins names := by
  cases h with
  | turn hplans => exact Or.inr (Or.inl ⟨_, _, _, rfl, hplans, rfl⟩)
  | @leave _ _ _ _ renews _ _ _ => cases renews <;> exact Or.inl rfl
  | learn reply =>
    unfold Skipper.learn
    split
    · next names hnames => exact Or.inr (Or.inr ⟨reply, names, rfl, hnames, rfl⟩)
    · exact Or.inl rfl
  | _ => exact Or.inl rfl

/-- **A line grows at its end, and only a job that has been answered leaves it**, from its front. -/
theorem Deed.line_cases (h : w.Deed k s a s' seen) :
    ∃ joined, s'.line = s.line ++ joined ∨
      (s'.line = s.line.tail ++ joined ∧ ∃ j refused batch, a = .proceed j refused ∧
        w.Awaits j k batch) := by
  cases h with
  | join joined hserves => exact ⟨joined, Or.inl rfl⟩
  | leave joined hjob => exact ⟨joined, Or.inr ⟨rfl, _, _, _, rfl, _, _, _, hjob⟩⟩
  | learn reply =>
    refine ⟨[], Or.inl ?_⟩
    rw [learn_line, List.append_nil]
  | _ => exact ⟨[], Or.inl (List.append_nil _).symm⟩

/-! ## Who lives on -/

theorem Deed.isOwned_eq (h : w.Deed k s a s' seen) (ha : a ≠ .closeSession k) :
    s'.isOwned = s.isOwned := by
  cases h with
  | close => exact absurd rfl ha
  | @leave _ _ _ _ renews _ _ _ => cases renews <;> rfl
  | learn reply =>
    unfold Skipper.learn
    split <;> rfl
  | _ => rfl

/-- Whoever is kept is not buried. -/
theorem get?_act_of_isKept (hseated : w.Seated) (hs' : (w.take a).1.sessions.get? k = some s')
    (hkept : (w.take a).1.isKept k s' = true) : (w.act a).1.sessions.get? k = some s' := by
  have hfilter : (w.act a).1.sessions.get? k = _ := Index.get?_filter (hseated.take a).nodup _ k
  rw [hfilter, hs', Option.filter_some]
  exact if_pos hkept

/-- **A session lives until its owner lets go of it.** -/
theorem exists_act_of_isOwned (hseated : w.Seated) (hs : w.sessions.get? k = some s)
    (hown : s.isOwned = true) (ha : a ≠ .closeSession k) :
    ∃ s', (w.act a).1.sessions.get? k = some s' ∧ s'.isOwned = true := by
  obtain ⟨s', hs'⟩ := exists_take hseated hs a
  have hown' : s'.isOwned = true := by
    rcases opened_or_deed hs' with ⟨o, rfl, rfl, -⟩ | ⟨t, ht, hdeed⟩
    · rw [hseated.get?_nextListener] at hs
      cases hs
    · rw [hdeed.isOwned_eq ha, ← Option.some.inj (hs.symm.trans ht)]
      exact hown
  refine ⟨s', get?_act_of_isKept hseated hs' ?_, hown'⟩
  rw [isKept, hown', Bool.true_or, Bool.true_or]

/-! ## Jobs -/

/-- A toggle on a session without siblings is over when its ranges have been answered. -/
theorem jobs_proceed_of_alone {keeps : List Listener} {batch : RangeBatch} {renews : Bool}
    {url : String} {was : Bool}
    (hjob : w.jobs.get? j = some ⟨keeps, .ranges k batch renews (.announce url was)⟩)
    (hs : (w.update k fun s => (if renews then s.schedule else s).leave).sessions.get? k = some s)
    (halone : ∀ e : SkipToggled, e.root = s.root → e.origin = s.target →
      (w.update k fun s => (if renews then s.schedule else s).leave).bus.audience
        (w.update k fun s => (if renews then s.schedule else s).leave).isAlive e = [])
    (refused : List ScriptId) : (w.proceed j refused).1.jobs = w.jobs.erase j := by
  rw [proceed_ranges hjob]
  simp only [goOn, hs, publish]
  rw [halone _ rfl rfl]
  split <;> rfl

theorem get?_jobs_tell (w : World) {j j' : JobId} (hj : j ≠ j') (keeps : List Listener)
    (e : SkipToggled) (outcome : Outcome) (audience : List Listener) :
    (w.tell j keeps e outcome audience).1.jobs.get? j' = w.jobs.get? j' := by
  induction audience with
  | nil => exact (Index.get?_erase _ _ _).trans (if_neg hj)
  | cons k rest ih =>
    rw [tell]
    split
    · exact (Index.get?_insert _ _ _ _).trans (if_neg hj)
    · exact ih

theorem get?_jobs_goOn (w : World) {j j' : JobId} (hj : j ≠ j') (keeps : List Listener)
    (k : Listener) (sequel : Sequel) :
    (w.goOn j keeps k sequel).1.jobs.get? j' = w.jobs.get? j' := by
  cases sequel with
  | finish => exact (Index.get?_erase _ _ _).trans (if_neg hj)
  | announce url was =>
    simp only [goOn]
    split
    · split
      · exact (Index.get?_erase _ _ _).trans (if_neg hj)
      · exact get?_jobs_tell w hj _ _ _ _
    · rfl
  | deliver e rest outcome => exact get?_jobs_tell w hj _ _ _ _

theorem get?_jobs_begin (w : World) {j j' : JobId} (hj : j ≠ j') (operation : Operation) :
    (w.begin j operation).1.jobs.get? j' = w.jobs.get? j' := by
  cases operation with
  | load k source =>
    simp only [begin]
    split
    · exact (Index.get?_insert _ _ _ _).trans (if_neg hj)
    · rfl
  | toggle k request =>
    simp only [begin]
    split
    · split
      · exact (Index.get?_insert _ _ _ _).trans (if_neg hj)
      · exact (Index.get?_erase _ _ _).trans (if_neg hj)
    · rfl
  | ask k url =>
    simp only [begin]
    split
    · exact (Index.get?_erase _ _ _).trans (if_neg hj)
    · rfl
  | pushPatterns k =>
    simp only [begin]
    split
    · exact (Index.get?_insert _ _ _ _).trans (if_neg hj)
    · rfl
  | publish e => exact get?_jobs_tell w hj _ _ _ _

theorem get?_jobs_proceed (w : World) {j j' : JobId} (hj : j ≠ j') (refused : List ScriptId) :
    (w.proceed j refused).1.jobs.get? j' = w.jobs.get? j' := by
  unfold proceed
  split
  · split
    · split
      · exact (Index.get?_insert _ _ _ _).trans (if_neg hj)
      · rfl
    · rfl
  · exact get?_jobs_goOn _ hj _ _ _
  · exact (Index.get?_erase _ _ _).trans (if_neg hj)
  · rfl

/-- **An action touches no job but the one that takes the step.** -/
theorem get?_jobs_take (w : World) (h : a.job? ≠ some j) :
    (w.take a).1.jobs.get? j = w.jobs.get? j := by
  cases a with
  | begin j' operation =>
    simp only [take]
    split
    · rfl
    · exact get?_jobs_begin w (fun hj => h (congrArg some hj)) operation
  | proceed j' refused => exact get?_jobs_proceed w (fun hj => h (congrArg some hj)) refused
  | tick k now latency =>
    simp only [take, World.tick]
    split
    · split <;> rfl
    · rfl
  | inquire k =>
    simp only [take, World.inquire]
    split
    · split <;> rfl
    · rfl
  | answer k reply =>
    simp only [take, World.answer]
    split
    · split <;> rfl
    · rfl
  | _ => rfl

/-- A job that tells an audience goes to a member of it, and has the rest of the audience still to
tell. -/
theorem exists_of_jobs_tell {keeps : List Listener} {e : SkipToggled} {outcome : Outcome}
    {audience : List Listener} {job : Job}
    (h : (w.tell j keeps e outcome audience).1.jobs.get? j = some job) :
    ∃ k rest source, (k :: rest) <:+ audience ∧
      job = ⟨keeps, .turn k (.decide e.url source e.skipped) (.deliver e rest outcome)⟩ := by
  induction audience with
  | nil => exact absurd rfl (Index.get?_erase_eq_some_iff.mp h).1
  | cons k rest ih =>
    rw [tell] at h
    split at h
    · have hjob := h.symm.trans (Index.get?_insert_self _ _ _)
      exact ⟨k, rest, _, List.suffix_refl _, Option.some.inj hjob⟩
    · obtain ⟨k', rest', source, hsuffix, hjob⟩ := ih h
      exact ⟨k', rest', source, hsuffix.trans (List.suffix_cons k rest), hjob⟩

/-- After its change a job tells an audience, if it does not end: the siblings of a session whose
state has changed, or the rest of those whom it has still to tell. -/
theorem exists_of_jobs_goOn {keeps : List Listener} {sequel : Sequel} {job : Job}
    (hs : w.sessions.get? k = some s)
    (h : (w.goOn j keeps k sequel).1.jobs.get? j = some job) :
    ∃ (e : SkipToggled) (audience rest : List Listener) (k' : Listener) (keeps' : List Listener)
      (source : Option Source) (outcome : Outcome), (k' :: rest) <:+ audience ∧
      job = ⟨keeps', .turn k' (.decide e.url source e.skipped) (.deliver e rest outcome)⟩ ∧
      (sequel = .deliver e audience outcome ∨
        ∃ url was, sequel = .announce url was ∧
          e = ⟨s.root, s.target, url, s.policy.isSkipped url⟩ ∧
          audience = w.bus.audience w.isAlive e) := by
  cases sequel with
  | finish => exact absurd rfl (Index.get?_erase_eq_some_iff.mp h).1
  | announce url was =>
    simp only [goOn, hs] at h
    split at h
    · exact absurd rfl (Index.get?_erase_eq_some_iff.mp h).1
    · obtain ⟨k', rest, source, hsuffix, hjob⟩ := exists_of_jobs_tell h
      exact ⟨_, _, rest, k', _, source, _, hsuffix, hjob, Or.inr ⟨url, was, rfl, rfl, rfl⟩⟩
  | deliver e audience outcome =>
    obtain ⟨k', rest, source, hsuffix, hjob⟩ := exists_of_jobs_tell h
    exact ⟨e, audience, rest, k', keeps, source, outcome, hsuffix, hjob, Or.inl rfl⟩

/-- **What becomes of a job that proceeds**: it stays as it is while it is not its turn; it takes
its turn; or its ranges have been answered, and it tells somebody. -/
theorem jobs_proceed_cases (hin : w.InLine) {refused : List ScriptId} {job job' : Job}
    (hjob : w.jobs.get? j = some job) (h : (w.proceed j refused).1.jobs.get? j = some job') :
    (job' = job ∧ ∀ k c s, ¬ w.Plans j k c s) ∨
      (∃ k c s sequel, w.Plans j k c s ∧ job.wait = .turn k c sequel ∧
        job' = ⟨job.keeps, .ranges k (s.carryOut c).1 (c.renewsPatterns s.graph) sequel⟩) ∨
      ∃ k batch renews sequel s, job.wait = .ranges k batch renews sequel ∧
        w.sessions.get? k = some s ∧
        ((w.update k fun s => (if renews then s.schedule else s).leave).goOn j job.keeps k
          sequel).1.jobs.get? j = some job' := by
  obtain ⟨keeps, ⟨k, c, sequel⟩ | ⟨k, batch, renews, sequel⟩ | ⟨k, patterns⟩⟩ := job
  · by_cases hplans : ∃ s, w.Plans j k c s
    · obtain ⟨s, hplans⟩ := hplans
      rw [proceed_turn hjob hplans.session hplans.turn] at h
      have hjob' := h.symm.trans (Index.get?_insert_self _ _ _)
      exact Or.inr (Or.inl ⟨k, c, s, sequel, hplans, rfl, Option.some.inj hjob'⟩)
    · have hsame : w.proceed j refused = (w, []) := proceed_of_not_plans hjob hplans
      refine Or.inl ⟨?_, fun k' c' s hplans' => ?_⟩
      · rw [hsame, hjob] at h
        exact (Option.some.inj h).symm
      · obtain ⟨keeps', sequel', hjob'⟩ := hplans'.job
        cases hjob.symm.trans hjob'
        exact hplans ⟨s, hplans'⟩
  · obtain ⟨s, hs⟩ := hin.exists_of_place? hjob rfl
    rw [proceed_ranges hjob] at h
    exact Or.inr (Or.inr ⟨k, batch, renews, sequel, s, rfl, hs, h⟩)
  · simp only [proceed, hjob] at h
    exact absurd rfl (Index.get?_erase_eq_some_iff.mp h).1

/-- A job that is under way stays where it is until it proceeds. -/
theorem get?_jobs_act_of_some {job : Job} (hjob : w.jobs.get? j = some job)
    (ha : ∀ refused, a ≠ .proceed j refused) : (w.act a).1.jobs.get? j = some job := by
  change (w.take a).1.jobs.get? j = some job
  by_cases hj : a.job? = some j
  · cases a with
    | begin j' operation =>
      obtain rfl : j' = j := Option.some.inj hj
      have hcontains : w.jobs.contains j' = true := by rw [Index.contains, hjob]; rfl
      rw [take, if_pos hcontains]
      exact hjob
    | proceed j' refused =>
      obtain rfl : j' = j := Option.some.inj hj
      exact absurd rfl (ha refused)
    | _ => cases hj
  · rw [get?_jobs_take w hj]
    exact hjob

/-- A job that was not there has begun. -/
theorem exists_begin_of_act {job : Job} (hnone : w.jobs.get? j = none)
    (hjob : (w.act a).1.jobs.get? j = some job) :
    ∃ operation, a = .begin j operation ∧ (w.begin j operation).1.jobs.get? j = some job := by
  change (w.take a).1.jobs.get? j = some job at hjob
  by_cases hj : a.job? = some j
  · cases a with
    | begin j' operation =>
      obtain rfl : j' = j := Option.some.inj hj
      have hfree : ¬ w.jobs.contains j' = true := by simp [Index.contains, hnone]
      rw [take, if_neg hfree] at hjob
      exact ⟨operation, rfl, hjob⟩
    | proceed j' refused =>
      obtain rfl : j' = j := Option.some.inj hj
      simp only [take, proceed, hnone] at hjob
      cases hjob
    | _ => cases hj
  · rw [get?_jobs_take w hj, hnone] at hjob
    cases hjob

/-! ## Moments of a run -/

section Moments

variable {actions : List Action} {n : Nat}

theorem inLine_before (actions : List Action) (n : Nat) : (start.before actions n).InLine :=
  (inLine_start.before seated_start actions n).1

theorem seated_before (actions : List Action) (n : Nat) : (start.before actions n).Seated :=
  (inLine_start.before seated_start actions n).2

theorem nextListener_le_before (w : World) (actions : List Action) {m n : Nat} (hm : m ≤ n) :
    (w.before actions m).nextListener ≤ (w.before actions n).nextListener := by
  induction hm with
  | refl => exact Nat.le_refl _
  | @step n _ ih =>
    cases hn : actions[n]? with
    | none => rwa [before_succ_of_none hn]
    | some a =>
      rw [before_succ hn]
      exact Nat.le_trans ih (nextListener_le_take _ a)

/-- The number of a session that has opened is not given out again. -/
theorem lt_nextListener_before {m : Nat} (hm : m ≤ n)
    (hs : (start.before actions m).sessions.get? k = some s) :
    k.number < (start.before actions n).nextListener :=
  Nat.lt_of_lt_of_le ((seated_before actions m).fresh _ (seat_mem_of_get? hs))
    (nextListener_le_before start actions hm)

/-- Whoever is there after an action has not been buried. -/
theorem get?_of_act (hseated : w.Seated) (hs' : (w.act a).1.sessions.get? k = some s') :
    (w.take a).1.sessions.get? k = some s' := by
  have hfilter : (w.act a).1.sessions.get? k = _ := Index.get?_filter (hseated.take a).nodup _ k
  rw [hfilter, Option.filter_eq_some_iff] at hs'
  exact hs'.1

/-- **The session at a moment** has just opened, or was there at the moment before. -/
theorem session_before_succ (hseated : (w.before actions n).Seated) (hn : actions[n]? = some a)
    (hs' : (w.before actions (n + 1)).sessions.get? k = some s') :
    (∃ o subscription, a = .openSession o ∧ k = ⟨(w.before actions n).nextListener⟩ ∧
      s' = o.skipper subscription) ∨
      ∃ s, (w.before actions n).sessions.get? k = some s ∧
        (w.before actions n).Deed k s a s' (seenBy k ((w.before actions n).act a).2) := by
  rw [before_succ hn] at hs'
  rcases opened_or_deed (get?_of_act hseated hs') with ⟨o, ha, hk, hopened⟩ | hdeed
  · exact Or.inl ⟨o, _, ha, hk, hopened⟩
  · exact Or.inr hdeed

/-- A session whose number was given out before an action, and which lives after it, lived before:
no number is given out again. -/
theorem exists_session_of_act (hseated : w.Seated) (hknown : k.number < w.nextListener)
    (hs' : (w.act a).1.sessions.get? k = some s') : ∃ s, w.sessions.get? k = some s := by
  rcases opened_or_deed (get?_of_act hseated hs') with ⟨o, -, hk, -⟩ | ⟨s, hs, -⟩
  · exact absurd (congrArg Listener.number hk) (Nat.ne_of_lt hknown)
  · exact ⟨s, hs⟩

theorem exists_session_before (hseated : (w.before actions n).Seated)
    (hknown : k.number < (w.before actions n).nextListener)
    (hs' : (w.before actions (n + 1)).sessions.get? k = some s') :
    ∃ s, (w.before actions n).sessions.get? k = some s := by
  cases hn : actions[n]? with
  | none =>
    rw [before_succ_of_none hn] at hs'
    exact ⟨s', hs'⟩
  | some a =>
    rw [before_succ hn] at hs'
    exact exists_session_of_act hseated hknown hs'

/-- What holds of a session at first or when it opens, and goes on to hold whatever is done to it,
holds as long as it lives. -/
theorem session_induction (hin : w.InLine) (hseated : w.Seated) {P : Nat → Skipper → Prop}
    (hstart : ∀ s, w.sessions.get? k = some s → P 0 s)
    (hopen : ∀ n o subscription, actions[n]? = some (.openSession o) →
      k = ⟨(w.before actions n).nextListener⟩ → P (n + 1) (o.skipper subscription))
    (hidle : ∀ n s, actions[n]? = none → P n s → P (n + 1) s)
    (hdeed : ∀ n a s s', actions[n]? = some a → (w.before actions n).sessions.get? k = some s →
      (w.before actions (n + 1)).sessions.get? k = some s' →
      (w.before actions n).Deed k s a s' (seenBy k ((w.before actions n).act a).2) →
        P n s → P (n + 1) s')
    (hs : (w.before actions n).sessions.get? k = some s) : P n s := by
  induction n generalizing s with
  | zero =>
    rw [before_zero] at hs
    exact hstart s hs
  | succ n ih =>
    cases hn : actions[n]? with
    | none =>
      rw [before_succ_of_none hn] at hs
      exact hidle n s hn (ih hs)
    | some a =>
      rcases session_before_succ (hin.before hseated actions n).2 hn hs with
        ⟨o, subscription, rfl, hk, rfl⟩ | ⟨t, ht, hdone⟩
      · exact hopen n o subscription hn hk
      · exact hdeed n a t s hn ht hs hdone (ih ht)

/-- A session that is there at first is not opened again. -/
theorem alive_induction (hin : w.InLine) (hseated : w.Seated) {s₀ : Skipper}
    (hs₀ : w.sessions.get? k = some s₀) {P : Nat → Skipper → Prop} (hstart : P 0 s₀)
    (hidle : ∀ n s, actions[n]? = none → P n s → P (n + 1) s)
    (hdeed : ∀ n a s s', actions[n]? = some a → (w.before actions n).sessions.get? k = some s →
      (w.before actions (n + 1)).sessions.get? k = some s' →
      (w.before actions n).Deed k s a s' (seenBy k ((w.before actions n).act a).2) →
        P n s → P (n + 1) s')
    (hs : (w.before actions n).sessions.get? k = some s) : P n s := by
  refine session_induction hin hseated (fun s hs => ?_) (fun n o subscription _ hk => ?_) hidle
    hdeed hs
  · rwa [← Option.some.inj (hs₀.symm.trans hs)]
  · have hknown := hseated.fresh _ (seat_mem_of_get? hs₀)
    have hle := nextListener_le_before w actions (Nat.zero_le n)
    rw [before_zero] at hle
    exact absurd (congrArg Listener.number hk) (Nat.ne_of_lt (Nat.lt_of_lt_of_le hknown hle))

/-- Before a session opens, its runtime sees nothing. -/
theorem seenBy_heard_of_le (hk : (start.before actions n).nextListener ≤ k.number) :
    seenBy k (start.heard actions n) = [] := by
  induction n with
  | zero => rw [heard_zero]; rfl
  | succ n ih =>
    have hbefore := ih (Nat.le_trans (nextListener_le_before start actions (Nat.le_succ n)) hk)
    cases hn : actions[n]? with
    | none => rwa [heard_succ_of_none hn]
    | some a =>
      rw [heard_succ hn, seenBy_append, hbefore, List.nil_append]
      refine seenBy_take_of_get?_eq_none (inLine_before actions n) ?_ a
      rw [Option.eq_none_iff_forall_ne_some]
      intro s hs
      exact absurd (lt_nextListener_before (Nat.le_succ n) hs) (Nat.not_lt_of_le hk)

/-- Whoever has his turn leaves the policy behind that comes out of his change. -/
theorem Plans.policy_act {c : SkipChange} (h : w.Plans j k c s) (hseated : w.Seated)
    {refused : List ScriptId} (hs' : (w.act (.proceed j refused)).1.sessions.get? k = some s') :
    s'.policy = c.revise s.graph s.policy := by
  obtain ⟨keeps, sequel, hjob⟩ := h.job
  have htake : (w.proceed j refused).1.sessions.get? k = some s' := get?_of_act hseated hs'
  rw [proceed_turn hjob h.session h.turn] at htake
  obtain ⟨-, _, -, rfl⟩ | ⟨hk, -⟩ := Index.get?_modify_eq_some_iff.mp htake
  · rfl
  · exact absurd rfl hk

/-- A session keeps the graph that it was opened with if nobody replaces it. -/
theorem graph_before {g : SourceGraph} (hopen : ∀ o, .openSession o ∈ actions → o.graph = g)
    (hkeep : ∀ g', .replaceGraph k g' ∉ actions)
    (hs : (start.before actions n).sessions.get? k = some s) : s.graph = g := by
  refine session_induction inLine_start seated_start (P := fun _ s => s.graph = g)
    (fun _ h => by cases h) (fun n o _ hn _ => hopen o (List.mem_of_getElem? hn)) (fun _ _ _ h => h)
    (fun n a s s' hn _ _ hdeed h => ?_) hs
  rcases hdeed.graph_cases with hsame | ⟨g', rfl⟩
  · exact hsame.trans h
  · exact absurd (List.mem_of_getElem? hn) (hkeep g')

end Moments

end World
end Skipper
end DebugTree
