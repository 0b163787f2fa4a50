import DebugTree.Proofs.Skipper.Seats

/-!
# Who stands in line

A job stands in the line of a session exactly as long as it waits there, once, and whoever has sent
something and waits for the answer is the first in line.  So at most one job per session is between
sending and answer: this is what the line is for.

A job keeps alive the session that it waits for and all those whom it still has to tell.  So nobody
in an audience dies before the news arrives, and a job never finds the session gone that it waited
for.

In the middle of an action a job may stand nowhere.  So the invariant is stated about the sessions
and *any* assignment of jobs: for a job on its way from one session to the next, it holds of the
world without that job.
-/

namespace DebugTree
namespace Skipper

/-! ## What a job waits for -/

/-- The session in whose line a job stands. -/
def Wait.place? : Wait → Option Listener
  | .turn k _ _ => some k
  | .ranges k _ _ _ => some k
  | .patterns _ _ => none

/-- The job has sent ranges. -/
def Wait.IsSent : Wait → Prop
  | .ranges _ _ _ _ => True
  | _ => False

/-- Whom a job has still to tell after its change. -/
def Sequel.audience : Sequel → List Listener
  | .deliver _ rest _ => rest
  | _ => []

/-- The sessions that a job has still to do with. -/
def Wait.listeners : Wait → List Listener
  | .turn k _ sequel => k :: sequel.audience
  | .ranges k _ _ sequel => k :: sequel.audience
  | .patterns k _ => [k]

theorem Wait.mem_listeners_of_place? {wait : Wait} {k : Listener} (h : wait.place? = some k) :
    k ∈ wait.listeners := by
  cases wait with
  | turn k' c sequel => exact Option.some.inj h ▸ List.mem_cons_self
  | ranges k' batch renews sequel => exact Option.some.inj h ▸ List.mem_cons_self
  | patterns k' patterns => exact absurd h (by simp [place?])

/-! ## The invariant -/

/-- The lines hold the jobs that wait there, and jobs keep alive whom they have to do with. -/
structure Lined (sessions : Index Listener Skipper) (jobs : JobId → Option Job) : Prop where
  nodup : ∀ k s, sessions.get? k = some s → s.line.Nodup
  mem_iff : ∀ k s, sessions.get? k = some s →
    ∀ j, j ∈ s.line ↔ ∃ job, jobs j = some job ∧ job.wait.place? = some k
  first : ∀ j job k s, jobs j = some job → job.wait.IsSent → job.wait.place? = some k →
    sessions.get? k = some s → s.line.head? = some j
  kept : ∀ j job, jobs j = some job → ∀ k ∈ job.wait.listeners, k ∈ job.keeps
  alive : ∀ j job, jobs j = some job → ∀ k ∈ job.keeps, sessions.contains k = true

namespace Lined

variable {sessions sessions' : Index Listener Skipper} {jobs : Index JobId Job} {j : JobId}

/-- The invariant sees only which sessions there are, and their lines. -/
theorem congr {jobs : JobId → Option Job} (h : Lined sessions jobs)
    (hlines : ∀ k, (sessions'.get? k).map (·.line) = (sessions.get? k).map (·.line)) :
    Lined sessions' jobs := by
  have hold : ∀ k s', sessions'.get? k = some s' →
      ∃ s, sessions.get? k = some s ∧ s'.line = s.line := by
    intro k s' hs'
    have hk := hlines k
    rw [hs', Option.map_some] at hk
    obtain ⟨s, hs, hline⟩ := Option.map_eq_some_iff.mp hk.symm
    exact ⟨s, hs, hline.symm⟩
  refine ⟨?_, ?_, ?_, h.kept, ?_⟩
  · intro k s' hs'
    obtain ⟨s, hs, hline⟩ := hold k s' hs'
    exact hline ▸ h.nodup k s hs
  · intro k s' hs'
    obtain ⟨s, hs, hline⟩ := hold k s' hs'
    exact hline ▸ h.mem_iff k s hs
  · intro j job k s' hj hsent hplace hs'
    obtain ⟨s, hs, hline⟩ := hold k s' hs'
    exact hline ▸ h.first j job k s hj hsent hplace hs
  · intro j job hj k hk
    have halive := h.alive j job hj k hk
    have hmap := congrArg Option.isSome (hlines k)
    rw [Option.isSome_map, Option.isSome_map] at hmap
    exact hmap.trans halive

/-- A name that no job has may be taken off. -/
theorem erase_of_contains_eq_false (h : Lined sessions jobs.get?) (hj : jobs.contains j = false) :
    Lined sessions (jobs.erase j).get? := by
  have hget : (jobs.erase j).get? = jobs.get? := by
    funext j'
    rw [Index.get?_erase]
    split
    · next hjj =>
      rw [← hjj]
      exact (Option.not_isSome_iff_eq_none.mp (by simpa [Index.contains] using hj)).symm
    · rfl
  rwa [hget]

/-- A job that stands nowhere is given something to wait for, and joins the line where it waits, if
it waits in one. -/
theorem enter (h : Lined sessions (jobs.erase j).get?) {job : Job}
    (hunsent : ¬ job.wait.IsSent) (hkept : ∀ x ∈ job.wait.listeners, x ∈ job.keeps)
    (halive : ∀ x ∈ job.keeps, sessions.contains x = true)
    (hkeys : sessions'.keys = sessions.keys)
    (hlines : ∀ x s', sessions'.get? x = some s' → ∃ s, sessions.get? x = some s ∧
      s'.line = s.line ++ if job.wait.place? = some x then [j] else []) :
    Lined sessions' (jobs.insert j job).get? := by
  have hfree : ∀ x s, sessions.get? x = some s → j ∉ s.line := by
    intro x s hs hmem
    obtain ⟨job', hjob', -⟩ := (h.mem_iff x s hs j).mp hmem
    exact (Index.get?_erase_eq_some_iff.mp hjob').1 rfl
  have hcontains : ∀ x, sessions.contains x = true → sessions'.contains x = true := by
    intro x hx
    rwa [Index.contains_iff, hkeys, ← Index.contains_iff]
  refine ⟨fun x s' hs' => ?_, fun x s' hs' j' => ?_, fun j' job' x s' hjob' hsent hplace hs' => ?_,
    fun j' job' hjob' => ?_, fun j' job' hjob' x hx => hcontains x ?_⟩
  · obtain ⟨s, hs, hline⟩ := hlines x s' hs'
    rw [hline]
    split
    · exact (h.nodup x s hs).append (List.nodup_singleton j)
        (List.disjoint_singleton.mpr (hfree x s hs))
    · rw [List.append_nil]
      exact h.nodup x s hs
  · obtain ⟨s, hs, hline⟩ := hlines x s' hs'
    rw [hline, List.mem_append, h.mem_iff x s hs j']
    constructor
    · rintro (⟨job', hjob', hplace⟩ | hmem)
      · exact ⟨job', Index.get?_insert_eq_some_iff.mpr (Or.inr hjob'), hplace⟩
      · split at hmem
        · next hplace =>
          have hj := (List.mem_singleton.mp hmem).symm
          exact ⟨job, Index.get?_insert_eq_some_iff.mpr (Or.inl ⟨hj, rfl⟩), hplace⟩
        · exact absurd hmem List.not_mem_nil
    · rintro ⟨job', hjob', hplace⟩
      rcases Index.get?_insert_eq_some_iff.mp hjob' with ⟨rfl, rfl⟩ | hjob'
      · rw [if_pos hplace]
        exact Or.inr (List.mem_singleton_self j)
      · exact Or.inl ⟨job', hjob', hplace⟩
  · rcases Index.get?_insert_eq_some_iff.mp hjob' with ⟨-, rfl⟩ | hjob'
    · exact absurd hsent hunsent
    · obtain ⟨s, hs, hline⟩ := hlines x s' hs'
      rw [hline, List.head?_append, h.first j' job' x s hjob' hsent hplace hs, Option.some_or]
  · rcases Index.get?_insert_eq_some_iff.mp hjob' with ⟨-, rfl⟩ | hjob'
    · exact hkept
    · exact h.kept j' job' hjob'
  · rcases Index.get?_insert_eq_some_iff.mp hjob' with ⟨-, rfl⟩ | hjob'
    · exact halive x hx
    · exact h.alive j' job' hjob' x hx

/-- A job that stands nowhere joins a line. -/
theorem bring (h : Lined sessions (jobs.erase j).get?) {k : Listener} {keeps : List Listener}
    {c : SkipChange} {sequel : Sequel} (hkept : ∀ x ∈ k :: sequel.audience, x ∈ keeps)
    (halive : ∀ x ∈ keeps, sessions.contains x = true) :
    Lined (sessions.modify k (·.join j)) (jobs.insert j ⟨keeps, .turn k c sequel⟩).get? := by
  refine h.enter (fun hsent => hsent) hkept halive (Index.keys_modify _ _ _) fun x s' hs' => ?_
  have hplace : ∀ x, (Wait.turn k c sequel).place? = some x ↔ k = x := fun x => Option.some_inj
  rcases Index.get?_modify_eq_some_iff.mp hs' with ⟨rfl, s, hs, rfl⟩ | ⟨hne, hs⟩
  · exact ⟨s, hs, by rw [if_pos ((hplace k).mpr rfl)]; rfl⟩
  · exact ⟨s', hs, by rw [if_neg (mt (hplace x).mp hne), List.append_nil]⟩

/-- A job that stands nowhere waits for patterns. -/
theorem suspendPatterns (h : Lined sessions (jobs.erase j).get?) {k : Listener}
    {patterns : List String} (halive : sessions.contains k = true) :
    Lined sessions (jobs.insert j ⟨[k], .patterns k patterns⟩).get? := by
  refine h.enter (fun hsent => hsent) (fun x hx => hx) (fun x hx => ?_) rfl
    fun x s hs => ⟨s, hs, (List.append_nil _).symm⟩
  exact List.mem_singleton.mp hx ▸ halive

/-- The first in line sends its ranges. -/
theorem send (h : Lined sessions jobs.get?) {k : Listener} {s t : Skipper}
    (hs : sessions.get? k = some s) (hline : t.line = s.line) (hfirst : s.line.head? = some j)
    {keeps : List Listener} {c : SkipChange} {sequel : Sequel}
    (hj : jobs.get? j = some ⟨keeps, .turn k c sequel⟩) (batch : RangeBatch) (renews : Bool) :
    Lined (sessions.modify k fun _ => t)
      (jobs.insert j ⟨keeps, .ranges k batch renews sequel⟩).get? := by
  have hlines : Lined (sessions.modify k fun _ => t) jobs.get? := by
    refine h.congr fun x => ?_
    rw [Index.get?_modify]
    split
    · next hx => rw [← hx, hs, Option.map_some, Option.map_some, Option.map_some, hline]
    · rfl
  refine ⟨hlines.nodup, fun x s' hs' j' => ?_, fun j' job x s' hjob hsent hplace hs' => ?_,
    fun j' job hjob => ?_, fun j' job hjob => ?_⟩
  · rw [hlines.mem_iff x s' hs' j', Index.get?_insert]
    split
    · next hjj =>
      subst hjj
      simp [hj, Wait.place?]
    · rfl
  · rcases Index.of_get?_insert_eq_some hjob with ⟨rfl, rfl⟩ | hjob
    · obtain rfl : k = x := Option.some.inj hplace
      rw [Index.get?_modify_self, hs] at hs'
      rw [← Option.some.inj hs', hline]
      exact hfirst
    · exact hlines.first j' job x s' hjob hsent hplace hs'
  · rcases Index.of_get?_insert_eq_some hjob with ⟨rfl, rfl⟩ | hjob
    · exact fun x hx => hlines.kept j _ hj x hx
    · exact hlines.kept j' job hjob
  · rcases Index.of_get?_insert_eq_some hjob with ⟨rfl, rfl⟩ | hjob
    · exact fun x hx => hlines.alive j _ hj x hx
    · exact hlines.alive j' job hjob

/-- A job may be taken off that stands in no line. -/
theorem erase (h : Lined sessions jobs.get?) {job : Job} (hj : jobs.get? j = some job)
    (hplace : job.wait.place? = none) : Lined sessions (jobs.erase j).get? := by
  have hold : ∀ j' job, (jobs.erase j).get? j' = some job → jobs.get? j' = some job :=
    fun j' job hjob => (Index.get?_erase_eq_some_iff.mp hjob).2
  refine ⟨h.nodup, fun k s hs j' => ?_, fun j' job k s hjob => h.first j' job k s (hold j' job hjob),
    fun j' job hjob => h.kept j' job (hold j' job hjob),
    fun j' job hjob => h.alive j' job (hold j' job hjob)⟩
  rw [h.mem_iff k s hs j', Index.get?_erase]
  split
  · next hjj =>
    subst hjj
    simp [hj, hplace]
  · rfl

/-- The first in line leaves when its ranges have been answered, and then stands nowhere. -/
theorem leave (h : Lined sessions jobs.get?) {keeps : List Listener} {k : Listener}
    {batch : RangeBatch} {renews : Bool} {sequel : Sequel}
    (hj : jobs.get? j = some ⟨keeps, .ranges k batch renews sequel⟩) {f : Skipper → Skipper}
    (hf : ∀ s, (f s).line = s.line.tail) :
    Lined (sessions.modify k f) (jobs.erase j).get? := by
  have hline : ∀ s, sessions.get? k = some s → s.line = j :: (f s).line := by
    intro s hs
    rw [hf, ← List.eq_cons_of_mem_head? (h.first j _ k s hj trivial rfl hs)]
  -- The first in line was in it once.
  have hnodup : ∀ s, sessions.get? k = some s → j ∉ (f s).line ∧ (f s).line.Nodup := by
    intro s hs
    have hnd := h.nodup k s hs
    rw [hline s hs] at hnd
    exact List.nodup_cons.mp hnd
  refine ⟨fun x s' hs' => ?_, fun x s' hs' j' => ?_, fun j' job x s' hjob hsent hplace hs' => ?_,
    fun j' job hjob => h.kept j' job (Index.get?_erase_eq_some_iff.mp hjob).2,
    fun j' job hjob x hx => ?_⟩
  · rcases Index.get?_modify_eq_some_iff.mp hs' with ⟨rfl, s, hs, rfl⟩ | ⟨-, hs⟩
    · exact (hnodup s hs).2
    · exact h.nodup x s' hs
  · rw [Index.get?_erase]
    rcases Index.get?_modify_eq_some_iff.mp hs' with ⟨rfl, s, hs, rfl⟩ | ⟨hx, hs⟩
    · have hmem := h.mem_iff k s hs j'
      rw [hline s hs, List.mem_cons] at hmem
      split
      · next hjj =>
        subst hjj
        simp [(hnodup s hs).1]
      · next hjj => rw [← hmem, or_iff_right (Ne.symm hjj)]
    · rw [h.mem_iff x s' hs j']
      split
      · next hjj =>
        subst hjj
        simp [hj, Wait.place?, hx]
      · rfl
  · obtain ⟨hjj, hjob⟩ := Index.get?_erase_eq_some_iff.mp hjob
    rcases Index.get?_modify_eq_some_iff.mp hs' with ⟨rfl, s, hs, rfl⟩ | ⟨-, hs⟩
    · -- Nobody else can have sent something here, as there is one first in line.
      have hfirst := h.first j' job k s hjob hsent hplace hs
      rw [hline s hs, List.head?_cons] at hfirst
      exact absurd (Option.some.inj hfirst) hjj
    · exact h.first j' job x s' hjob hsent hplace hs
  · have halive := h.alive j' job (Index.get?_erase_eq_some_iff.mp hjob).2 x hx
    rw [Index.contains_iff] at halive ⊢
    rwa [Index.keys_modify]

/-- A session that nobody has to do with may open. -/
theorem insert {jobs : JobId → Option Job} (h : Lined sessions jobs) {k : Listener} {s : Skipper}
    (hk : sessions.get? k = none) (hline : s.line = []) : Lined (sessions.insert k s) jobs := by
  have hplace : ∀ j job, jobs j = some job → job.wait.place? ≠ some k := by
    intro j job hjob hplace
    have halive := h.alive j job hjob k (h.kept j job hjob k (Wait.mem_listeners_of_place? hplace))
    rw [Index.contains, hk] at halive
    exact absurd halive (by simp)
  refine ⟨?_, ?_, ?_, h.kept, ?_⟩
  · intro x s' hs'
    rcases Index.of_get?_insert_eq_some hs' with ⟨-, rfl⟩ | hs'
    · rw [hline]
      exact List.nodup_nil
    · exact h.nodup x s' hs'
  · intro x s' hs' j
    rcases Index.of_get?_insert_eq_some hs' with ⟨rfl, rfl⟩ | hs'
    · rw [hline]
      refine iff_of_false List.not_mem_nil ?_
      rintro ⟨job, hjob, hp⟩
      exact hplace j job hjob hp
    · exact h.mem_iff x s' hs' j
  · intro j job x s' hjob hsent hp hs'
    rcases Index.of_get?_insert_eq_some hs' with ⟨rfl, -⟩ | hs'
    · exact absurd hp (hplace j job hjob)
    · exact h.first j job x s' hjob hsent hp hs'
  · intro j job hjob x hx
    rw [Index.contains, Index.get?_insert]
    split
    · rfl
    · exact h.alive j job hjob x hx

/-- Sessions that no job keeps may leave. -/
theorem filter {jobs : JobId → Option Job} (h : Lined sessions jobs)
    (hnd : sessions.keys.Nodup) {keep : Listener × Skipper → Bool}
    (hkeep : ∀ j job, jobs j = some job → ∀ k ∈ job.keeps, ∀ s, keep (k, s) = true) :
    Lined ⟨sessions.entries.filter keep⟩ jobs := by
  have hold : ∀ k s, (Index.mk (sessions.entries.filter keep)).get? k = some s →
      sessions.get? k = some s := by
    intro k s hs
    rw [Index.get?_filter hnd, Option.filter_eq_some_iff] at hs
    exact hs.1
  refine ⟨fun k s hs => h.nodup k s (hold k s hs), fun k s hs => h.mem_iff k s (hold k s hs),
    fun j job k s hjob hsent hplace hs => h.first j job k s hjob hsent hplace (hold k s hs), h.kept,
    ?_⟩
  intro j job hjob k hk
  obtain ⟨s, hs⟩ := Option.isSome_iff_exists.mp (h.alive j job hjob k hk)
  rw [Index.contains, Index.get?_filter hnd, hs, Option.filter_some,
    if_pos (hkeep j job hjob k hk s)]
  rfl

end Lined

/-! ## Every action keeps the lines -/

namespace World

variable {w : World} {j : JobId}

/-- The lines are right, and no job has two names. -/
structure InLine (w : World) : Prop where
  lined : Lined w.sessions w.jobs.get?
  nodup : w.jobs.keys.Nodup

/-- The lines are right apart from a job that stands nowhere. -/
structure InLineWithout (w : World) (j : JobId) : Prop where
  lined : Lined w.sessions (w.jobs.erase j).get?
  nodup : w.jobs.keys.Nodup

theorem inLine_start : start.InLine where
  lined := by constructor <;> simp [start]
  nodup := List.nodup_nil

theorem InLine.exists_of_place? (h : w.InLine) {job : Job} {k : Listener}
    (hj : w.jobs.get? j = some job) (hk : job.wait.place? = some k) :
    ∃ s, w.sessions.get? k = some s :=
  Option.isSome_iff_exists.mp
    (h.lined.alive j job hj k (h.lined.kept j job hj k (Wait.mem_listeners_of_place? hk)))

theorem InLine.without (h : w.InLine) (hj : w.jobs.contains j = false) : w.InLineWithout j :=
  ⟨h.lined.erase_of_contains_eq_false hj, h.nodup⟩

theorem InLineWithout.finish (h : w.InLineWithout j) (outcome : Outcome) :
    (w.finish j outcome).1.InLine :=
  ⟨h.lined, Index.nodup_keys_erase h.nodup j⟩

theorem InLineWithout.bring (h : w.InLineWithout j) {keeps : List Listener} {k : Listener}
    {c : SkipChange} {sequel : Sequel} (hkept : ∀ x ∈ k :: sequel.audience, x ∈ keeps)
    (halive : ∀ x ∈ keeps, w.isAlive x = true) : (w.bring j keeps k c sequel).InLine :=
  ⟨h.lined.bring hkept halive, Index.nodup_keys_insert h.nodup _ _⟩

/-- Telling a living audience begins with its first member. -/
theorem tell_cons_of_isAlive {k : Listener} (h : w.isAlive k = true) (keeps : List Listener)
    (e : SkipToggled) (outcome : Outcome) (rest : List Listener) :
    ∃ s, w.sessions.get? k = some s ∧ w.tell j keeps e outcome (k :: rest) =
      (w.bring j keeps k (.decide e.url (s.graph.sourceByUrl? e.url) e.skipped)
        (.deliver e rest outcome), [.told k e]) := by
  obtain ⟨s, hs⟩ := Option.isSome_iff_exists.mp h
  exact ⟨s, hs, by rw [tell, hs]⟩

theorem InLineWithout.tell (h : w.InLineWithout j) {keeps : List Listener}
    (halive : ∀ x ∈ keeps, w.isAlive x = true) (e : SkipToggled) (outcome : Outcome)
    {audience : List Listener} (hkept : ∀ x ∈ audience, x ∈ keeps) :
    (w.tell j keeps e outcome audience).1.InLine := by
  cases audience with
  | nil => exact h.finish outcome
  | cons k rest =>
    obtain ⟨s, -, htell⟩ := tell_cons_of_isAlive (j := j) (halive k (hkept k List.mem_cons_self))
      keeps e outcome rest
    rw [htell]
    exact h.bring hkept halive

theorem isAlive_of_mem_audience {e : SkipToggled} {k : Listener}
    (h : k ∈ w.bus.audience w.isAlive e) : w.isAlive k = true := by
  obtain ⟨x, hx, rfl⟩ := List.mem_map.mp h
  exact (Bool.and_eq_true _ _ ▸ (List.mem_filter.mp hx).2).2

theorem InLineWithout.publish (h : w.InLineWithout j) {keeps : List Listener}
    (halive : ∀ x ∈ keeps, w.isAlive x = true) (e : SkipToggled) (outcome : Nat → Outcome) :
    (w.publish j keeps e outcome).1.InLine := by
  refine h.tell (fun x hx => ?_) e _ fun x hx => List.mem_append_right keeps hx
  exact (List.mem_append.mp hx).elim (halive x) isAlive_of_mem_audience

theorem InLineWithout.goOn (h : w.InLineWithout j) {keeps : List Listener} {k : Listener}
    (halive : ∀ x ∈ keeps, w.isAlive x = true) {sequel : Sequel}
    (hkept : ∀ x ∈ k :: sequel.audience, x ∈ keeps) : (w.goOn j keeps k sequel).1.InLine := by
  cases sequel with
  | finish => exact h.finish _
  | announce url was =>
    obtain ⟨s, hs⟩ := Option.isSome_iff_exists.mp (halive k (hkept k List.mem_cons_self))
    simp only [World.goOn, hs]
    split
    · exact h.finish _
    · exact h.publish halive _ _
  | deliver e rest outcome =>
    exact h.tell halive e outcome fun x hx => hkept x (List.mem_cons_of_mem k hx)

theorem InLine.begin (h : w.InLine) (hj : w.jobs.contains j = false) (operation : Operation) :
    (w.begin j operation).1.InLine := by
  have hfree := h.without hj
  have hself : ∀ {k : Listener} {s : Skipper}, w.sessions.get? k = some s →
      ∀ x ∈ [k], w.isAlive x = true := by
    intro k s hs x hx
    rw [List.mem_singleton.mp hx, isAlive, Index.contains, hs]
    rfl
  cases operation with
  | load k source =>
    simp only [World.begin]
    split
    · next s hs => exact hfree.bring (fun x hx => hx) (hself hs)
    · exact h
  | toggle k request =>
    simp only [World.begin]
    split
    · next s hs =>
      split
      · exact hfree.bring (fun x hx => hx) (hself hs)
      · exact hfree.finish _
    · exact h
  | ask k url =>
    simp only [World.begin]
    split
    · exact hfree.finish _
    · exact h
  | pushPatterns k =>
    simp only [World.begin]
    split
    · next s hs =>
      exact ⟨hfree.lined.suspendPatterns (hself hs k List.mem_cons_self),
        Index.nodup_keys_insert h.nodup _ _⟩
    · exact h
  | publish e => exact hfree.publish (fun x hx => absurd hx (List.not_mem_nil)) e _

theorem InLine.proceed (h : w.InLine) (j : JobId) (refused : List ScriptId) :
    (w.proceed j refused).1.InLine := by
  rcases hjob : w.jobs.get? j with _ | ⟨keeps, ⟨k, c, sequel⟩ | ⟨k, batch, renews, sequel⟩ | _⟩
  · rw [World.proceed, hjob]
    exact h
  · obtain ⟨s, hs⟩ := h.exists_of_place? hjob rfl
    by_cases hturn : s.isTurnOf j = true
    · rw [proceed_turn hjob hs hturn]
      exact ⟨h.lined.send (t := (s.carryOut c).2) hs rfl (of_decide_eq_true hturn) hjob _ _,
        Index.nodup_keys_insert h.nodup _ _⟩
    · rw [proceed_turn_of_not hjob hs hturn]
      exact h
  · rw [proceed_ranges hjob]
    have hline : ∀ s : Skipper, ((if renews then s.schedule else s).leave).line = s.line.tail := by
      intro s
      split <;> rfl
    have hfree : (w.update k fun s => (if renews then s.schedule else s).leave).InLineWithout j :=
      ⟨h.lined.leave hjob hline, h.nodup⟩
    refine hfree.goOn (fun x hx => ?_) (h.lined.kept j _ hjob)
    have halive := h.lined.alive j _ hjob x hx
    rw [isAlive, Index.contains_iff, World.update, Index.keys_modify]
    exact Index.contains_iff.mp halive
  · rw [World.proceed, hjob]
    exact InLineWithout.finish ⟨h.lined.erase hjob rfl, h.nodup⟩ .done

/-- What leaves the line of a session alone. -/
theorem InLine.update (h : w.InLine) {k : Listener} {f : Skipper → Skipper}
    (hf : ∀ s, w.sessions.get? k = some s → (f s).line = s.line) : (w.update k f).InLine := by
  refine ⟨h.lined.congr fun x => ?_, h.nodup⟩
  rw [World.update, Index.get?_modify]
  split
  · next hx =>
    subst hx
    cases hs : w.sessions.get? k with
    | none => rfl
    | some s => exact congrArg some (hf s hs)
  · rfl

theorem InLine.tick (h : w.InLine) (k : Listener) (now : Instant) (latency : Nat) :
    (w.tick k now latency).1.InLine := by
  unfold World.tick
  split
  · next s hs =>
    have hreplace : ∀ t : Skipper, t.line = s.line → (w.update k fun _ => t).InLine := by
      intro t ht
      refine h.update fun s' hs' => ?_
      rw [hs] at hs'
      exact Option.some.inj hs' ▸ ht
    simp only
    split <;> exact hreplace _ rfl
  · exact h

/-- Whom a job keeps is kept. -/
theorem isKept_of_mem_keeps {job : Job} (hj : w.jobs.get? j = some job) {k : Listener}
    (hk : k ∈ job.keeps) (s : Skipper) : w.isKept k s = true := by
  have hany : (w.jobs.values.any fun job => job.keeps.contains k) = true :=
    List.any_eq_true.mpr ⟨job, Index.mem_values_of_get? hj, List.contains_iff_mem.mpr hk⟩
  rw [isKept, hany, Bool.or_true]

theorem InLine.reap (h : w.InLine) (hseated : w.Seated) : w.reap.InLine :=
  ⟨h.lined.filter hseated.nodup fun _ _ hj _ hk s => isKept_of_mem_keeps hj hk s, h.nodup⟩

theorem InLine.take (h : w.InLine) (hseated : w.Seated) (a : Action) : (w.take a).1.InLine := by
  cases a with
  | openSession o =>
    have hnew : w.sessions.get? ⟨w.nextListener⟩ = none := hseated.get?_nextListener
    exact ⟨h.lined.insert hnew rfl, h.nodup⟩
  | closeSession k => exact h.update fun _ _ => rfl
  | replaceGraph k graph => exact h.update fun _ _ => rfl
  | begin j operation =>
    simp only [World.take]
    split
    · exact h
    · next hj => exact h.begin (Bool.not_eq_true _ ▸ hj) operation
  | proceed j refused => exact h.proceed j refused
  | tick k now latency => exact h.tick k now latency
  | inquire k =>
    simp only [World.take, inquire]
    split
    · split
      · exact h.update fun _ _ => rfl
      · exact h
    · exact h
  | answer k reply =>
    simp only [World.take, answer]
    split
    · split
      · exact h.update fun s _ => s.learn_line reply
      · exact h
    · exact h

end World

/-- **The lines of a reachable world hold exactly the jobs that wait there.** -/
theorem Reachable.inLine {w : World} (h : Reachable w) : w.InLine := by
  induction h with
  | start => exact World.inLine_start
  | act hreach _ ih =>
    exact (ih.take hreach.seated _).reap (hreach.seated.take _)

end Skipper
end DebugTree
