import DebugTree.Proofs.Skipper.Deeds
import DebugTree.Proofs.Skipper.Ranges
import Mathlib.Algebra.Ring.Parity

/-!
# Toggles of one file side by side

A toggle looks at the file when it begins, and decides for the opposite of what it sees.  The
decision is carried out when the toggle has its turn, and by then others may have had theirs.  A
toggle whose turn finds the file already in the state that it has decided for is *lost*: the file
stays as it is.  All others turn the state into its opposite.  So after `n` toggles of which `l` are
lost, the state is the first one negated `n - l` times, and this is what `n` negations come to
exactly if `l` is even (`isSkipped_flips`).

Toggles have their turns in the order in which they have begun (`Secluded.shift`).  So the decisions
of those that wait are a queue, and two neighbours in it that are the same cost one toggle
(`wasted`).  None is lost exactly if no toggle begins while another one waits.  But nothing makes a
toggle wait with looking: two that begin while a load is being answered see the same state, and one
of them is lost (`overlapping_toggle_lost`).

The file is one that no session has loaded and no source map lists.  So a load of another source
records nothing for it, and toggles started on the session itself are all that decides about it.
-/

namespace DebugTree

open Protocol

/-! ## Files that a load does not reach -/

namespace Ranges

variable {P : SkipPolicy → Prop} {g : SourceGraph} {fuel : Nat} {p : SkipPolicy}

theorem inheritAll_walkAll
    (hset : ∀ p a b, (∃ c, a ∈ g.authoredOf c) → P p → P (p.setOverride a.url b))
    (hwalk : ∀ p e s, P p → P (inherit p (SourceGraph.walkFrom g fuel e s).1))
    {as : List AuthoredSource} (has : ∀ a ∈ as, ∃ c, a ∈ g.authoredOf c) (e : List SourceReference)
    (parent : Bool) (hp : P p) : P (inheritAll p parent (SourceGraph.walkAll g fuel e as).1) := by
  induction as generalizing p e with
  | nil =>
    rw [SourceGraph.walkAll, inheritAll]
    exact hp
  | cons a rest ih =>
    obtain ⟨ha, hrest⟩ := List.forall_mem_cons.mp has
    rw [SourceGraph.walkAll, inheritAll]
    refine ih hrest _ (hwalk _ e a.source ?_)
    split
    · exact hset p a _ ha hp
    · exact hp

/-- Recording states along a walk is a row of records for files that source maps list. -/
theorem inherit_walkFrom
    (hset : ∀ p a b, (∃ c, a ∈ g.authoredOf c) → P p → P (p.setOverride a.url b))
    (fuel : Nat) (e : List SourceReference) (s : Source) (hp : P p) :
    P (inherit p (SourceGraph.walkFrom g fuel e s).1) := by
  induction fuel generalizing p e s with
  | zero =>
    rw [SourceGraph.walkFrom, inherit]
    exact hp
  | succ fuel ih =>
    rw [SourceGraph.walkFrom]
    split
    · rw [inherit]
      exact hp
    · rw [inherit]
      exact inheritAll_walkAll hset (fun _ e s hp => ih e s hp) (fun a ha => ⟨s, ha⟩) _ _ hp

end Ranges

namespace SkipPolicy

variable {p : SkipPolicy} {url : String}

/-- **A load leaves a file alone that no source map lists.** -/
theorem isSkipped_propagate (h : p.isNodeInternal url = false) {g : SourceGraph}
    (hunlisted : ∀ c, ∀ a ∈ g.authoredOf c, p.normalize a.url ≠ p.normalize url) (s : Source) :
    (Ranges.propagate p g s).isSkipped url = p.isSkipped url := by
  have hall := Ranges.inherit_walkFrom (g := g) (P := fun q => q.pathCase = p.pathCase ∧
    q.isNodeInternal url = false ∧ q.isSkipped url = p.isSkipped url) ?_
    (g.authored.size + 1) [] s ⟨rfl, h, rfl⟩
  · exact hall.2.2
  · rintro q a b ⟨c, ha⟩ ⟨hcase, hint, hskip⟩
    have hne : q.normalize a.url ≠ q.normalize url := by
      rw [normalize, normalize, hcase]
      exact hunlisted c a ha
    exact ⟨hcase, hint, (isSkipped_setOverride_of_ne hne b).trans hskip⟩

end SkipPolicy

namespace Skipper

/-- The URL is that of a file, compared with globs as it stands, and the session knows no source
under it, however the source is spelled. -/
structure Foreign (s : Skipper) (url : String) : Prop where
  sensitive : s.policy.pathCase.isInsensitive = false
  external : s.policy.isNodeInternal url = false
  unloaded : s.graph.sourceByUrl? url = none
  unlisted : ∀ c, ∀ a ∈ s.graph.authoredOf c, s.policy.normalize a.url ≠ s.policy.normalize url

/-- Whoever toggles anything toggles this file on this session, and nobody tells the sessions about
toggles from elsewhere.  Everything else may happen. -/
def Action.IsFlip (k : Listener) (url : String) : Action → Prop
  | .openSession o => o.policy.Lawful
  | .begin _ (.toggle k' request) => k' = k ∧ request = .resource url
  | .begin _ (.publish _) => False
  | _ => True

/-! ## Jobs that leave a session to its toggles -/

/-- What a job at a session goes on with does not come to another session `k`: only `k` itself
announces anything, and it is not told about it. -/
def Sequel.Spares (k k' : Listener) : Sequel → Prop
  | .finish => True
  | .announce _ _ => k' = k
  | .deliver _ rest _ => k ∉ rest

/-- What a job waits for leaves the file of the session to toggles. -/
def Wait.Fits (k : Listener) (url : String) : Wait → Prop
  | .turn k' c sequel =>
    sequel.Spares k k' ∧ (k' = k → (∃ d, c = .load d) ∨ ∃ b, c = .decide url none b)
  | .ranges k' _ _ sequel => sequel.Spares k k'
  | .patterns _ _ => True

variable {k k' : Listener} {url : String} {a : Action} {j j' : JobId} {b : Bool}

theorem Foreign.resolve? {s : Skipper} (h : s.Foreign url) :
    s.resolve? (.resource url) = some (url, none) := by
  rw [Skipper.resolve?, h.unloaded]

theorem Action.IsFlip.lawful (h : a.IsFlip k url) : a.Lawful := by
  cases a with
  | openSession o => exact h
  | _ => trivial

namespace World

variable {w : World} {s s' : Skipper} {job job' : Job}

/-- Only toggles that are started on the session decide about its file. -/
structure Secluded (w : World) (k : Listener) (url : String) : Prop where
  reachable : Reachable w
  foreign : ∀ s, w.sessions.get? k = some s → s.Foreign url
  fits : ∀ j job, w.jobs.get? j = some job → job.wait.Fits k url

/-- A toggle waits for its turn, and has decided for a state of the file. -/
def Decides (w : World) (k : Listener) (url : String) (j : JobId) (b : Bool) : Prop :=
  ∃ keeps sequel, w.jobs.get? j = some ⟨keeps, .turn k (.decide url none b) sequel⟩

/-- A session does not hear of its own changes. -/
theorem Seated.not_mem_audience (h : w.Seated) (hs : w.sessions.get? k = some s) {e : SkipToggled}
    (he : e.origin = s.target) : k ∉ w.bus.audience w.isAlive e := by
  rw [h.audience_eq, h.mem_peers_iff]
  rintro ⟨t, ht, -, hne⟩
  rw [← Option.some.inj (hs.symm.trans ht)] at hne
  exact hne he.symm

/-- What begins is a load, a toggle of the file, or a push of patterns. -/
theorem Secluded.jobs_begin_cases (h : w.Secluded k url) {operation : Operation}
    (ha : (Action.begin j operation).IsFlip k url) (hnone : w.jobs.get? j = none)
    (hjob' : (w.begin j operation).1.jobs.get? j = some job') :
    (∃ s, operation = .toggle k (.resource url) ∧ w.sessions.get? k = some s ∧
      job' = ⟨[k], .turn k (.decide url none !s.policy.isSkipped url)
        (.announce url (s.policy.isSkipped url))⟩) ∨
    (job'.wait.Fits k url ∧ ∀ b sequel, job'.wait ≠ .turn k (.decide url none b) sequel) := by
  have hinsert : ∀ {ix : Index JobId Job} {job : Job},
      (ix.insert j job).get? j = some job' → job' = job :=
    fun hget => (Option.some.inj ((Index.get?_insert_self _ _ _).symm.trans hget)).symm
  have habsent : w.jobs.get? j ≠ some job' := by
    rw [hnone]
    exact fun heq => by cases heq
  cases operation with
  | load k' source =>
    simp only [begin] at hjob'
    split at hjob'
    · rw [hinsert hjob']
      exact Or.inr ⟨⟨trivial, fun _ => Or.inl ⟨source, rfl⟩⟩, fun b sequel heq => by cases heq⟩
    · exact absurd hjob' habsent
  | toggle k' request =>
    obtain ⟨rfl, rfl⟩ := ha
    cases hs : w.sessions.get? k' with
    | none =>
      simp only [begin, hs] at hjob'
      exact absurd hjob' habsent
    | some s =>
      simp only [begin, hs, (h.foreign s hs).resolve?] at hjob'
      exact Or.inl ⟨s, rfl, rfl, hinsert hjob'⟩
  | ask k' url' =>
    simp only [begin] at hjob'
    split at hjob'
    · exact absurd rfl (Index.get?_erase_eq_some_iff.mp hjob').1
    · exact absurd hjob' habsent
  | pushPatterns k' =>
    simp only [begin] at hjob'
    split at hjob'
    · rw [hinsert hjob']
      exact Or.inr ⟨trivial, fun b sequel heq => by cases heq⟩
    · exact absurd hjob' habsent
  | publish e => exact ha.elim

/-- A job that goes on to tell somebody tells another session. -/
theorem Secluded.jobs_goOn_cases (h : w.Secluded k url) {batch : RangeBatch} {renews : Bool}
    {keeps : List Listener} {sequel : Sequel}
    (hjob : w.jobs.get? j = some ⟨keeps, .ranges k' batch renews sequel⟩)
    (hs : w.sessions.get? k' = some s)
    (hjob' : ((w.update k' fun s => (if renews then s.schedule else s).leave).goOn j keeps k'
      sequel).1.jobs.get? j = some job') :
    job'.wait.Fits k url ∧ ∀ b sequel, job'.wait ≠ .turn k (.decide url none b) sequel := by
  have hspares : sequel.Spares k k' := h.fits j _ hjob
  have hleave : (w.update k' fun s => (if renews then s.schedule else s).leave).sessions.get? k' =
      some (if renews then s.schedule else s).leave :=
    (Index.get?_modify_self _ _ _).trans (congrArg (Option.map _) hs)
  obtain ⟨e, audience, rest, k₁, keeps₁, source, outcome, hsuffix, rfl, hsequel⟩ :=
    exists_of_jobs_goOn hleave hjob'
  have haudience : k ∉ audience := by
    rcases hsequel with rfl | ⟨url', was, rfl, rfl, rfl⟩
    · exact hspares
    · obtain rfl : k' = k := hspares
      exact (h.reachable.seated.evolve (evolves_leave w k' renews)).not_mem_audience hleave rfl
  have hk : k₁ ≠ k := fun hk => haudience (hsuffix.subset (hk ▸ List.mem_cons_self))
  have hrest : k ∉ rest := fun hmem => haudience (hsuffix.subset (List.mem_cons_of_mem _ hmem))
  refine ⟨⟨hrest, fun heq => absurd heq hk⟩, fun b sequel heq => ?_⟩
  cases heq
  exact hk rfl

/-- **Where a job comes from**: it was there before and has not had its turn; or it is a toggle that
begins; or it is another job that leaves the file to toggles. -/
theorem Secluded.jobs_act_cases (h : w.Secluded k url) (ha : a.IsFlip k url)
    (hjob' : (w.act a).1.jobs.get? j = some job') :
    (w.jobs.get? j = some job' ∧ ∀ refused k c s, a = .proceed j refused → ¬ w.Plans j k c s) ∨
    (∃ s, a = .begin j (.toggle k (.resource url)) ∧ w.jobs.get? j = none ∧
      w.sessions.get? k = some s ∧ job' = ⟨[k], .turn k (.decide url none !s.policy.isSkipped url)
        (.announce url (s.policy.isSkipped url))⟩) ∨
    (job'.wait.Fits k url ∧ ∀ b sequel, job'.wait ≠ .turn k (.decide url none b) sequel) := by
  cases hjob : w.jobs.get? j with
  | none =>
    obtain ⟨operation, rfl, hbegin⟩ := exists_begin_of_act hjob hjob'
    rcases h.jobs_begin_cases ha hjob hbegin with ⟨s, rfl, hs, heq⟩ | hother
    · exact Or.inr (Or.inl ⟨s, rfl, rfl, hs, heq⟩)
    · exact Or.inr (Or.inr hother)
  | some job =>
    by_cases hproceed : ∃ refused, a = .proceed j refused
    · obtain ⟨refused, rfl⟩ := hproceed
      rcases jobs_proceed_cases h.reachable.inLine hjob hjob' with
        ⟨rfl, hplans⟩ | ⟨k', c, s, sequel, hplans, hwait, rfl⟩ |
        ⟨k', batch, renews, sequel, s, hwait, hs, hgoOn⟩
      · refine Or.inl ⟨rfl, fun refused' k' c s ha' => ?_⟩
        exact hplans k' c s
      · have hfits := h.fits j job hjob
        rw [hwait] at hfits
        exact Or.inr (Or.inr ⟨hfits.1, fun b sequel heq => by cases heq⟩)
      · obtain ⟨keeps, wait⟩ := job
        obtain rfl : wait = _ := hwait
        exact Or.inr (Or.inr (h.jobs_goOn_cases hjob hs hgoOn))
    · have hsame := get?_jobs_act_of_some hjob fun refused heq => hproceed ⟨refused, heq⟩
      obtain rfl : job = job' := Option.some.inj (hsame.symm.trans hjob')
      exact Or.inl ⟨rfl, fun refused k' c s heq => absurd ⟨refused, heq⟩ hproceed⟩

theorem Secluded.act (h : w.Secluded k url) (ha : a.IsFlip k url)
    (hforeign : ∀ s, (w.act a).1.sessions.get? k = some s → s.Foreign url) :
    (w.act a).1.Secluded k url where
  reachable := h.reachable.act ha.lawful
  foreign := hforeign
  fits j job hjob := by
    rcases h.jobs_act_cases ha hjob with ⟨hsame, -⟩ | ⟨s, -, -, -, rfl⟩ | ⟨hfits, -⟩
    · exact h.fits j job hsame
    · exact ⟨rfl, fun _ => Or.inr ⟨_, rfl⟩⟩
    · exact hfits

/-! ## A step of a toggle -/

/-- The action begins a toggle on the session, which sees the file in this state. -/
def Starts (w : World) (k : Listener) (a : Action) (j : JobId) (s : Skipper) : Prop :=
  (∃ request, a = .begin j (.toggle k request)) ∧ w.jobs.get? j = none ∧
    w.sessions.get? k = some s

/-- The action is the turn of a toggle that has decided for a state. -/
def Turns (w : World) (k : Listener) (url : String) (a : Action) (j : JobId) (b : Bool)
    (s : Skipper) : Prop :=
  ∃ refused, a = .proceed j refused ∧ w.Plans j k (.decide url none b) s

/-- **Which toggles wait for their turn after an action**: the one that begins with it, and those
that waited before and have not had their turn with it. -/
theorem Secluded.decides_act_iff (h : w.Secluded k url) (ha : a.IsFlip k url) :
    (w.act a).1.Decides k url j b ↔
      (∃ s, w.Starts k a j s ∧ b = !s.policy.isSkipped url) ∨
      (w.Decides k url j b ∧ ∀ s, ¬ w.Turns k url a j b s) := by
  constructor
  · rintro ⟨keeps, sequel, hjob⟩
    rcases h.jobs_act_cases ha hjob with ⟨hsame, hplans⟩ | ⟨s, rfl, hnone, hs, heq⟩ | ⟨-, hother⟩
    · refine Or.inr ⟨⟨keeps, sequel, hsame⟩, ?_⟩
      rintro s ⟨refused, rfl, hturn⟩
      exact hplans refused k _ s rfl hturn
    · cases heq
      exact Or.inl ⟨s, ⟨⟨_, rfl⟩, hnone, hs⟩, rfl⟩
    · exact absurd rfl (hother b sequel)
  · rintro (⟨s, ⟨⟨request, rfl⟩, hnone, hs⟩, rfl⟩ | ⟨⟨keeps, sequel, hjob⟩, hturn⟩)
    · obtain ⟨-, rfl⟩ := ha
      have hfree : ¬ w.jobs.contains j = true := by simp [Index.contains, hnone]
      have htake : (w.take (.begin j (.toggle k (.resource url)))).1.jobs = w.jobs.insert j
          ⟨[k], .turn k (.decide url none !s.policy.isSkipped url)
            (.announce url (s.policy.isSkipped url))⟩ := by
        simp only [take, if_neg hfree, begin, hs, (h.foreign s hs).resolve?]
        rfl
      exact ⟨_, _, (congrArg (Index.get? · j) htake).trans (Index.get?_insert_self _ _ _)⟩
    · refine ⟨keeps, sequel, ?_⟩
      by_cases hproceed : ∃ refused, a = .proceed j refused
      · obtain ⟨refused, rfl⟩ := hproceed
        have hstays : w.proceed j refused = (w, []) := proceed_of_not_plans hjob
          (not_exists.mpr fun s hplans => hturn s ⟨refused, rfl, hplans⟩)
        change (w.proceed j refused).1.jobs.get? j = _
        rw [hstays]
        exact hjob
      · exact get?_jobs_act_of_some hjob fun refused heq => hproceed ⟨refused, heq⟩

/-- **The state of the file changes with the turn of a toggle only**, to what the toggle has decided
for. -/
theorem Secluded.isSkipped_act (h : w.Secluded k url) (hurl : IsPlainUrl url)
    (hs : w.sessions.get? k = some s) (hs' : (w.act a).1.sessions.get? k = some s')
    (hforeign : s'.Foreign url) :
    (∃ j b, w.Turns k url a j b s ∧ s'.policy.isSkipped url = b) ∨
      ((∀ j b, ¬ w.Turns k url a j b s) ∧ s'.policy.isSkipped url = s.policy.isSkipped url) := by
  have hfile := h.foreign s hs
  have hseated := h.reachable.seated
  by_cases hturn : ∃ j b, w.Turns k url a j b s
  · obtain ⟨j, b, refused, rfl, hplans⟩ := hturn
    refine Or.inl ⟨j, b, ⟨refused, rfl, hplans⟩, ?_⟩
    rw [hplans.policy_act hseated hs']
    exact SkipChange.isSkipped_revise_decide _ (h.reachable.lawful hs) hfile.sensitive hurl
      hfile.external none b
  refine Or.inr ⟨fun j b hturns => hturn ⟨j, b, hturns⟩, ?_⟩
  rcases opened_or_deed (get?_of_act hseated hs') with ⟨o, -, rfl, -⟩ | ⟨t, ht, hdeed⟩
  · rw [hseated.get?_nextListener] at hs
    cases hs
  obtain rfl : s = t := Option.some.inj (hs.symm.trans ht)
  rcases hdeed.policy_cases with hsame | ⟨j, refused, c, rfl, hplans, hrevise⟩ |
    ⟨reply, names, -, -, hset⟩
  · rw [hsame]
  · obtain ⟨keeps, sequel, hjob⟩ := hplans.job
    obtain ⟨-, hfits⟩ := h.fits j _ hjob
    rcases hfits rfl with ⟨d, rfl⟩ | ⟨b, rfl⟩
    · rw [hrevise]
      exact SkipPolicy.isSkipped_propagate hfile.external hfile.unlisted d
    · exact absurd ⟨j, b, refused, rfl, hplans⟩ hturn
  · have hexternal := hforeign.external
    rw [hset] at hexternal ⊢
    exact SkipPolicy.isSkipped_setBuiltins hfile.external hexternal

/-! ## The toggles in the line -/

/-- What a job has decided for, if it is a toggle of the file that waits for its turn. -/
def decision? (w : World) (k : Listener) (url : String) (j : JobId) : Option Bool :=
  match w.jobs.get? j with
  | some ⟨_, .turn k' (.decide url' none b) _⟩ => if k' = k ∧ url' = url then some b else none
  | _ => none

/-- What the toggles of the file have decided for that wait in the line, in its order. -/
def decisions (w : World) (k : Listener) (url : String) (s : Skipper) : List Bool :=
  s.line.filterMap (w.decision? k url)

theorem decision?_eq_some_iff : w.decision? k url j = some b ↔ w.Decides k url j b := by
  constructor
  · intro h
    unfold decision? at h
    split at h
    · next keeps k' url' b' sequel hjob =>
      split at h
      · next heq =>
        obtain ⟨rfl, rfl⟩ := heq
        cases h
        exact ⟨keeps, sequel, hjob⟩
      · cases h
    · cases h
  · rintro ⟨keeps, sequel, hjob⟩
    simp [decision?, hjob]

theorem decision?_eq_none_iff : w.decision? k url j = none ↔ ∀ b, ¬ w.Decides k url j b := by
  rw [Option.eq_none_iff_forall_ne_some]
  exact forall_congr' fun b => not_congr decision?_eq_some_iff

/-- A toggle that waits stands in the line. -/
theorem Decides.mem_line (h : w.Decides k url j b) (hin : w.InLine)
    (hs : w.sessions.get? k = some s) : j ∈ s.line := by
  obtain ⟨keeps, sequel, hjob⟩ := h
  exact (hin.lined.mem_iff k s hs j).mpr ⟨_, hjob, rfl⟩

/-- A job that does not take the step of a toggle waits for what it waited for. -/
theorem Secluded.decision?_act (h : w.Secluded k url) (ha : a.IsFlip k url)
    (hstarts : ∀ s, ¬ w.Starts k a j s) (hturns : ∀ b s, ¬ w.Turns k url a j b s) :
    (w.act a).1.decision? k url j = w.decision? k url j := by
  refine Option.ext fun b => ?_
  rw [decision?_eq_some_iff, decision?_eq_some_iff, h.decides_act_iff ha, or_iff_right, and_iff_left]
  · exact hturns b
  · rintro ⟨s, hbegins, -⟩
    exact hstarts s hbegins

/-- A toggle that begins joins at the end. -/
theorem Secluded.decisions_of_starts (h : w.Secluded k url) (ha : a.IsFlip k url)
    (hstarts : w.Starts k a j s) (hs' : (w.act a).1.sessions.get? k = some s') :
    (w.act a).1.decisions k url s' = w.decisions k url s ++ [!s.policy.isSkipped url] := by
  have hiff := h.decides_act_iff (j := j) (b := !s.policy.isSkipped url) ha
  have hsame : ∀ i ∈ s.line, (w.act a).1.decision? k url i = w.decision? k url i := by
    intro i hi
    obtain ⟨job, hjob, -⟩ := (h.reachable.inLine.lined.mem_iff k s hstarts.2.2 i).mp hi
    refine h.decision?_act ha (fun t ht => ?_) fun b t ht => ?_
    · rw [ht.2.1] at hjob
      cases hjob
    · obtain ⟨⟨request, rfl⟩, -⟩ := hstarts
      obtain ⟨refused, heq, -⟩ := ht
      cases heq
  have hline : s'.line = s.line ++ [j] := by
    obtain ⟨⟨request, rfl⟩, hnone, hs⟩ := hstarts
    obtain ⟨-, rfl⟩ := ha
    have htake := get?_of_act h.reachable.seated hs'
    have hfree : ¬ w.jobs.contains j = true := by simp [Index.contains, hnone]
    simp only [take, if_neg hfree, begin, hs, (h.foreign s hs).resolve?] at htake
    have hjoin : (w.update k (·.join j)).sessions.get? k = some s' := htake
    rw [update, Index.get?_modify_self, hs] at hjoin
    cases hjoin
    rfl
  have hlast : (w.act a).1.decision? k url j = some !s.policy.isSkipped url :=
    decision?_eq_some_iff.mpr (hiff.mpr (Or.inl ⟨s, hstarts, rfl⟩))
  rw [decisions, hline, List.filterMap_append, List.filterMap_congr hsame, decisions,
    List.filterMap_cons_some hlast, List.filterMap_nil]

/-- A toggle has its turn at the front. -/
theorem Secluded.decisions_of_turns (h : w.Secluded k url) (ha : a.IsFlip k url)
    (hturns : w.Turns k url a j b s) (hs' : (w.act a).1.sessions.get? k = some s') :
    w.decisions k url s = b :: (w.act a).1.decisions k url s' := by
  have hnone : (w.act a).1.decision? k url j = none := by
    rw [decision?_eq_none_iff]
    intro b' hdecides
    rcases (h.decides_act_iff ha).mp hdecides with ⟨t, ⟨⟨request, rfl⟩, -⟩, -⟩ | ⟨hwaited, hnot⟩
    · obtain ⟨refused, heq, -⟩ := hturns
      cases heq
    · obtain ⟨refused, heq, hplans⟩ := hturns
      obtain ⟨keeps, sequel, hjob⟩ := hplans.job
      obtain ⟨keeps', sequel', hjob'⟩ := hwaited
      cases hjob.symm.trans hjob'
      exact hnot s ⟨refused, heq, hplans⟩
  obtain ⟨refused, rfl, hplans⟩ := hturns
  obtain ⟨rest, hline⟩ : ∃ rest, s.line = j :: rest := by
    obtain ⟨rest, hrest⟩ := List.head?_eq_some_iff.mp (of_decide_eq_true hplans.turn)
    exact ⟨rest, hrest⟩
  have hnodup := h.reachable.inLine.lined.nodup k s hplans.session
  rw [hline, List.nodup_cons] at hnodup
  have hsame : ∀ i ∈ rest, (w.act (.proceed j refused)).1.decision? k url i =
      w.decision? k url i := by
    intro i hi
    refine h.decision?_act ha (fun t ht => ?_) fun b' t ht => ?_
    · obtain ⟨⟨request, heq⟩, -⟩ := ht
      cases heq
    · obtain ⟨refused', heq, -⟩ := ht
      cases heq
      exact hnodup.1 hi
  have hline' : s'.line = s.line := by
    have htake : (w.proceed j refused).1.sessions.get? k = some s' :=
      get?_of_act h.reachable.seated hs'
    rw [hplans.get?_sessions, if_pos rfl] at htake
    cases htake
    rfl
  have hfirst : w.decision? k url j = some b := decision?_eq_some_iff.mpr hplans.job
  rw [decisions, decisions, hline', hline, List.filterMap_cons_some hfirst,
    List.filterMap_cons_none hnone, List.filterMap_congr hsame]

/-- Jobs that join a line have decided for nothing yet, as long as nobody has left it who has. -/
theorem filterMap_decision?_joined (hin : w.InLine) (hs : w.sessions.get? k = some s)
    {stay joined : List JobId} (hnodup : (stay ++ joined).Nodup)
    (hout : ∀ i ∈ s.line, i ∉ stay → w.decision? k url i = none) :
    joined.filterMap (w.decision? k url) = [] := by
  rw [List.filterMap_eq_nil_iff]
  intro i hi
  by_contra hsome
  obtain ⟨b, hb⟩ := Option.ne_none_iff_exists'.mp hsome
  have hmem := (decision?_eq_some_iff.mp hb).mem_line hin hs
  exact hsome (hout i hmem fun hstay => (List.nodup_append.mp hnodup).2.2 i hstay i hi rfl)

/-- Nothing else comes to the line, or leaves it, that has decided for anything. -/
theorem Secluded.decisions_of_quiet (h : w.Secluded k url) (ha : a.IsFlip k url)
    (hs : w.sessions.get? k = some s) (hs' : (w.act a).1.sessions.get? k = some s')
    (hstarts : ∀ j, ¬ w.Starts k a j s) (hturns : ∀ j b, ¬ w.Turns k url a j b s) :
    (w.act a).1.decisions k url s' = w.decisions k url s := by
  have hin := h.reachable.inLine
  have hseated := h.reachable.seated
  have hsame : ∀ i, (w.act a).1.decision? k url i = w.decision? k url i := by
    intro i
    refine h.decision?_act ha (fun t ht => ?_) fun b t ht => ?_
    · obtain rfl : s = t := Option.some.inj (hs.symm.trans ht.2.2)
      exact hstarts i ht
    · obtain ⟨refused, heq, hplans⟩ := ht
      obtain rfl : s = t := Option.some.inj (hs.symm.trans hplans.session)
      exact hturns i b ⟨refused, heq, hplans⟩
  have hnodup := (h.reachable.act ha.lawful).inLine.lined.nodup k s' hs'
  rw [decisions, decisions, List.filterMap_congr fun i _ => hsame i]
  rcases opened_or_deed (get?_of_act hseated hs') with ⟨o, -, rfl, -⟩ | ⟨t, ht, hdeed⟩
  · rw [hseated.get?_nextListener] at hs
    cases hs
  obtain rfl : s = t := Option.some.inj (hs.symm.trans ht)
  obtain ⟨joined, hline | ⟨hline, j, refused, batch, rfl, keeps, renews, sequel, hjob⟩⟩ :=
    hdeed.line_cases
  · rw [hline] at hnodup
    rw [hline, List.filterMap_append,
      filterMap_decision?_joined hin hs hnodup fun i hi hnot => absurd hi hnot, List.append_nil]
  · obtain ⟨rest, hrest⟩ := List.head?_eq_some_iff.mp (hin.lined.first j _ k s hjob trivial rfl hs)
    have hanswered : w.decision? k url j = none := by simp [decision?, hjob]
    have hout : ∀ i ∈ s.line, i ∉ rest → w.decision? k url i = none := by
      intro i hi hnot
      rw [hrest] at hi
      rcases List.mem_cons.mp hi with rfl | hmem
      · exact hanswered
      · exact absurd hmem hnot
    rw [hrest, List.tail_cons] at hline
    rw [hline] at hnodup
    rw [hline, hrest, List.filterMap_append, List.filterMap_cons_none hanswered,
      filterMap_decision?_joined hin hs hnodup hout, List.append_nil]

/-! ## What one action comes to -/

/-- The action begins a toggle on the session. -/
def beginsToggle (w : World) (k : Listener) : Action → Bool
  | .begin j (.toggle k' _) => decide (k' = k) && !w.jobs.contains j && w.isAlive k
  | _ => false

/-- The action is the turn of a toggle that finds the file in the state that it has decided for. -/
def losesToggle (w : World) (k : Listener) (url : String) : Action → Bool
  | .proceed j _ =>
    match w.jobs.get? j, w.sessions.get? k with
    | some ⟨_, .turn k' c _⟩, some s =>
      decide (k' = k) && s.isTurnOf j && decide (c = .decide url none (s.policy.isSkipped url))
    | _, _ => false
  | _ => false

theorem beginsToggle_iff (hs : w.sessions.get? k = some s) :
    w.beginsToggle k a = true ↔ ∃ j, w.Starts k a j s := by
  constructor
  · intro h
    cases a with
    | begin j operation =>
      cases operation with
      | toggle k' request =>
        simp only [beginsToggle, Bool.and_eq_true, decide_eq_true_eq, Bool.not_eq_true',
          Index.contains, Option.isSome_eq_false_iff, Option.isNone_iff_eq_none] at h
        obtain ⟨⟨rfl, hnone⟩, -⟩ := h
        exact ⟨j, ⟨request, rfl⟩, hnone, hs⟩
      | _ => cases h
    | _ => cases h
  · rintro ⟨j, ⟨request, rfl⟩, hnone, -⟩
    simp [beginsToggle, Index.contains, isAlive, hnone, hs]

theorem losesToggle_iff (hs : w.sessions.get? k = some s) :
    w.losesToggle k url a = true ↔ ∃ j, w.Turns k url a j (s.policy.isSkipped url) s := by
  constructor
  · intro h
    cases a with
    | proceed j refused =>
      simp only [losesToggle, hs] at h
      split at h
      · next keeps k' c sequel t hjob ht =>
        obtain rfl : s = t := Option.some.inj ht
        simp only [Bool.and_eq_true, decide_eq_true_eq] at h
        obtain ⟨⟨rfl, hturn⟩, rfl⟩ := h
        exact ⟨j, refused, rfl, ⟨keeps, sequel, hjob⟩, hs, hturn⟩
      · cases h
    | _ => cases h
  · rintro ⟨j, refused, rfl, ⟨keeps, sequel, hjob⟩, -, hturn⟩
    simp [losesToggle, hjob, hs, hturn]

/-- What an action does to the state of a file and to the decisions in the line: a toggle begins or
not, a toggle is lost or not. -/
inductive Shift (skipped : Bool) : List Bool → Bool → Bool → Bool → List Bool → Prop
  | begins (ds : List Bool) : Shift skipped ds true false skipped (ds ++ [!skipped])
  | turns (b : Bool) (ds : List Bool) : Shift skipped (b :: ds) false (decide (b = skipped)) b ds
  | quiet (ds : List Bool) : Shift skipped ds false false skipped ds

/-- **Toggles of the file are carried out in the order in which they have begun**, and nothing else
changes its state. -/
theorem Secluded.shift (h : w.Secluded k url) (hurl : IsPlainUrl url) (ha : a.IsFlip k url)
    (hs : w.sessions.get? k = some s) (hs' : (w.act a).1.sessions.get? k = some s')
    (hforeign : s'.Foreign url) :
    Shift (s.policy.isSkipped url) (w.decisions k url s) (w.beginsToggle k a)
      (w.losesToggle k url a) (s'.policy.isSkipped url) ((w.act a).1.decisions k url s') := by
  rcases h.isSkipped_act hurl hs hs' hforeign with ⟨j, b, hturns, hb⟩ | ⟨hquiet, hsame⟩
  · have hbegins : w.beginsToggle k a = false := by
      obtain ⟨refused, rfl, -⟩ := hturns
      rfl
    have hloses : w.losesToggle k url a = decide (b = s.policy.isSkipped url) := by
      rw [Bool.eq_iff_iff, losesToggle_iff hs, decide_eq_true_iff]
      constructor
      · rintro ⟨j', refused', rfl, hplans'⟩
        obtain ⟨refused, heq, hplans⟩ := hturns
        cases heq
        obtain ⟨keeps, sequel, hjob⟩ := hplans.job
        obtain ⟨keeps', sequel', hjob'⟩ := hplans'.job
        cases hjob.symm.trans hjob'
        rfl
      · rintro rfl
        exact ⟨j, hturns⟩
    rw [hbegins, hloses, hb, h.decisions_of_turns ha hturns hs']
    exact .turns b _
  · have hloses : w.losesToggle k url a = false := by
      rw [← Bool.not_eq_true, losesToggle_iff hs]
      rintro ⟨j, hturns⟩
      exact hquiet j _ hturns
    rw [hloses, hsame]
    by_cases hbegins : ∃ j, w.Starts k a j s
    · rw [(beginsToggle_iff hs).mpr hbegins]
      obtain ⟨j, hstarts⟩ := hbegins
      rw [h.decisions_of_starts ha hstarts hs']
      exact .begins _
    · rw [Bool.eq_false_iff.mpr (mt (beginsToggle_iff hs).mp hbegins),
        h.decisions_of_quiet ha hs hs' (fun j hj => hbegins ⟨j, hj⟩) hquiet]
      exact .quiet _

/-! ## Keeping the books -/

/-- How many of some decisions are for the state that the file is in when their turn comes. -/
def wasted (skipped : Bool) : List Bool → Nat
  | [] => 0
  | b :: ds => (if b = skipped then 1 else 0) + wasted b ds

theorem wasted_le_append (skipped : Bool) (ds es : List Bool) :
    wasted skipped ds ≤ wasted skipped (ds ++ es) := by
  induction ds generalizing skipped with
  | nil => exact Nat.zero_le _
  | cons b ds ih => exact Nat.add_le_add_left (ih b) _

variable {was skipped skipped' begins loses : Bool} {ds ds' : List Bool} {total missed : Nat}

/-- The books of the toggles of a file that was in a state at first: a toggle that has begun waits
for its turn, or it was lost, or it has turned the state into its opposite. -/
def Balanced (was skipped : Bool) (ds : List Bool) (total missed : Nat) : Prop :=
  ∃ made, total = ds.length + missed + made ∧ skipped = Bool.not^[made] was

/-- Either no toggle has begun while another one waited, and none is lost or going to be; or some
toggle is. -/
def Tidy (apart : Prop) (skipped : Bool) (ds : List Bool) (missed : Nat) : Prop :=
  (apart ∧ missed = 0 ∧ (ds = [] ∨ ds = [!skipped])) ∨ (¬ apart ∧ 1 ≤ missed + wasted skipped ds)

theorem Shift.balanced (h : Shift skipped ds begins loses skipped' ds')
    (hbalanced : Balanced was skipped ds total missed) :
    Balanced was skipped' ds' (total + if begins then 1 else 0)
      (missed + if loses then 1 else 0) := by
  obtain ⟨made, htotal, hskipped⟩ := hbalanced
  cases h with
  | begins =>
    refine ⟨made, ?_, hskipped⟩
    rw [List.length_append, List.length_singleton, if_pos rfl, if_neg Bool.false_ne_true]
    omega
  | turns =>
    rw [List.length_cons] at htotal
    rw [if_neg Bool.false_ne_true]
    by_cases hlost : skipped' = skipped
    · refine ⟨made, ?_, hlost.trans hskipped⟩
      rw [if_pos (decide_eq_true hlost)]
      omega
    · refine ⟨made + 1, ?_, ?_⟩
      · rw [if_neg (by simpa using hlost)]
        omega
      · rw [Function.iterate_succ_apply', ← hskipped]
        exact Bool.eq_not_iff.mpr hlost
  | quiet => exact ⟨made, htotal, hskipped⟩

/-- **A toggle that begins while another one waits costs one of them.** -/
theorem Shift.tidy {apart : Prop} (h : Shift skipped ds begins loses skipped' ds')
    (htidy : Tidy apart skipped ds missed) :
    Tidy (apart ∧ (begins = true → ds = [])) skipped' ds' (missed + if loses then 1 else 0) := by
  rcases htidy with ⟨hapart, rfl, hds⟩ | ⟨hnot, hlost⟩
  · cases h with
    | begins =>
      rcases hds with rfl | rfl
      · exact Or.inl ⟨⟨hapart, fun _ => rfl⟩, rfl, Or.inr rfl⟩
      · refine Or.inr ⟨fun hafter => List.cons_ne_nil _ _ (hafter.2 rfl), ?_⟩
        simp [wasted]
    | turns =>
      rcases hds with hds | hds
      · cases hds
      · cases hds
        have hkeeps : decide ((!skipped) = skipped) = false := by cases skipped <;> rfl
        rw [hkeeps]
        exact Or.inl ⟨⟨hapart, fun hbegins => by cases hbegins⟩, rfl, Or.inl rfl⟩
    | quiet => exact Or.inl ⟨⟨hapart, fun hbegins => by cases hbegins⟩, rfl, hds⟩
  · refine Or.inr ⟨fun hafter => hnot hafter.1, ?_⟩
    cases h with
    | begins => exact Nat.le_trans hlost (Nat.add_le_add_left (wasted_le_append _ _ _) _)
    | turns =>
      rw [wasted] at hlost
      simp only [decide_eq_true_eq]
      omega
    | quiet => exact hlost

/-! ## Runs -/

/-- From a world without jobs on, whoever toggles anything toggles this file on this session, and
the session knows no source under its URL. -/
structure Flips (w : World) (actions : List Action) (k : Listener) (url : String) : Prop where
  reachable : Reachable w
  idle : w.jobs = .empty
  plain : IsPlainUrl url
  flips : ∀ a ∈ actions, a.IsFlip k url
  foreign : ∀ n s, (w.before actions n).sessions.get? k = some s → s.Foreign url

variable {actions : List Action} {n : Nat} {t : Skipper}

/-- How many of the first actions of a run are of some kind. -/
def tally (w : World) (kind : World → Action → Bool) (actions : List Action) (n : Nat) : Nat :=
  (List.range n).countP fun m => (actions[m]?).any (kind (w.before actions m))

theorem tally_succ {kind : World → Action → Bool} {actions : List Action} {n : Nat}
    (hn : actions[n]? = some a) :
    w.tally kind actions (n + 1) =
      w.tally kind actions n + if kind (w.before actions n) a then 1 else 0 := by
  simp [tally, List.range_succ, List.countP_append, List.countP_singleton, hn]

theorem tally_succ_of_none {kind : World → Action → Bool} {actions : List Action} {n : Nat}
    (hn : actions[n]? = none) : w.tally kind actions (n + 1) = w.tally kind actions n := by
  simp [tally, List.range_succ, List.countP_append, hn]

/-- How many toggles have begun. -/
def begun (w : World) (k : Listener) (actions : List Action) (n : Nat) : Nat :=
  w.tally (·.beginsToggle k) actions n

/-- How many toggles have been lost. -/
def lost (w : World) (k : Listener) (url : String) (actions : List Action) (n : Nat) : Nat :=
  w.tally (fun v => v.losesToggle k url) actions n

/-- No toggle begins while another one waits for its turn. -/
def Apart (w : World) (k : Listener) (url : String) (actions : List Action) (n : Nat) : Prop :=
  ∀ m a s, m < n → actions[m]? = some a → (w.before actions m).sessions.get? k = some s →
    (w.before actions m).beginsToggle k a = true → (w.before actions m).decisions k url s = []

theorem apart_succ (hn : actions[n]? = some a)
    (hs : (w.before actions n).sessions.get? k = some s) :
    w.Apart k url actions (n + 1) ↔ w.Apart k url actions n ∧
      ((w.before actions n).beginsToggle k a = true →
        (w.before actions n).decisions k url s = []) := by
  constructor
  · intro h
    exact ⟨fun m a s hm => h m a s (Nat.lt_succ_of_lt hm), h n a s (Nat.lt_succ_self n) hn hs⟩
  · rintro ⟨h, hlast⟩ m b t hm hb ht
    rcases Nat.lt_succ_iff_lt_or_eq.mp hm with hm | rfl
    · exact h m b t hm hb ht
    · obtain rfl : a = b := Option.some.inj (hn.symm.trans hb)
      obtain rfl : s = t := Option.some.inj (hs.symm.trans ht)
      exact hlast

theorem apart_succ_of_none (hn : actions[n]? = none) :
    w.Apart k url actions (n + 1) ↔ w.Apart k url actions n := by
  constructor
  · exact fun h m a s hm => h m a s (Nat.lt_succ_of_lt hm)
  · intro h m b t hm hb
    rcases Nat.lt_succ_iff_lt_or_eq.mp hm with hm | rfl
    · exact h m b t hm hb
    · rw [hn] at hb
      cases hb

theorem decisions_of_empty (h : w.jobs = .empty) (s : Skipper) : w.decisions k url s = [] := by
  refine List.filterMap_eq_nil_iff.mpr fun j _ => ?_
  rw [decision?, h]
  rfl

theorem Flips.secluded (h : w.Flips actions k url) (n : Nat) :
    (w.before actions n).Secluded k url := by
  induction n with
  | zero =>
    rw [before_zero]
    refine ⟨h.reachable, fun s hs => h.foreign 0 s (by rwa [before_zero]), fun j job hjob => ?_⟩
    rw [h.idle] at hjob
    cases hjob
  | succ n ih =>
    cases hn : actions[n]? with
    | none => rwa [before_succ_of_none hn]
    | some a =>
      have hforeign := h.foreign (n + 1)
      rw [before_succ hn] at hforeign ⊢
      exact ih.act (h.flips a (List.mem_of_getElem? hn)) hforeign

/-- A file that is foreign to a session stays so unless the session's sources change or it learns
the names of the builtin modules. -/
theorem Deed.foreign {seen : List Event} (h : w.Deed k s a s' seen) (hs : s.Foreign url)
    (hgraph : ∀ g, a ≠ .replaceGraph k g) (hanswer : ∀ reply, a ≠ .answer k reply) :
    s'.Foreign url := by
  have hsame : s'.graph = s.graph := by
    rcases h.graph_cases with hsame | ⟨g, hg⟩
    · exact hsame
    · exact absurd hg (hgraph g)
  have hpolicy : s'.policy.pathCase = s.policy.pathCase ∧
      s'.policy.isNodeInternal url = s.policy.isNodeInternal url := by
    rcases h.policy_cases with heq | ⟨j, refused, c, -, -, heq⟩ | ⟨reply, names, hreply, -⟩
    · rw [heq]
      exact ⟨rfl, rfl⟩
    · rw [heq]
      exact ⟨SkipChange.pathCase_revise _ _ c, SkipChange.isNodeInternal_revise _ _ c url⟩
    · exact absurd hreply (hanswer reply)
  obtain ⟨hcase, hint⟩ := hpolicy
  refine ⟨hcase ▸ hs.sensitive, hint ▸ hs.external, hsame ▸ hs.unloaded, fun c a ha => ?_⟩
  rw [hsame] at ha
  rw [SkipPolicy.normalize, SkipPolicy.normalize, hcase]
  exact hs.unlisted c a ha

/-- It is enough that the file is foreign to the session at first. -/
theorem flips_of_foreign (hw : Reachable w) (hidle : w.jobs = .empty) (hurl : IsPlainUrl url)
    (hflips : ∀ a ∈ actions, a.IsFlip k url) (hs : w.sessions.get? k = some s)
    (hforeign : s.Foreign url) (hgraph : ∀ g, .replaceGraph k g ∉ actions)
    (hanswer : ∀ reply, .answer k reply ∉ actions) : w.Flips actions k url := by
  refine ⟨hw, hidle, hurl, hflips, fun n t ht => ?_⟩
  refine alive_induction hw.inLine hw.seated hs (P := fun _ t => t.Foreign url) hforeign
    (fun _ _ _ h => h) (fun n a t t' hn _ _ hdeed hbefore => ?_) ht
  have hmem := List.mem_of_getElem? hn
  exact hdeed.foreign hbefore (fun g hg => hgraph g (hg ▸ hmem))
    fun reply hreply => hanswer reply (hreply ▸ hmem)

/-- **The books are kept throughout a run.** -/
theorem Flips.books (h : w.Flips actions k url) (hs : w.sessions.get? k = some s)
    (ht : (w.before actions n).sessions.get? k = some t) :
    Balanced (s.policy.isSkipped url) (t.policy.isSkipped url)
        ((w.before actions n).decisions k url t) (w.begun k actions n) (w.lost k url actions n) ∧
      Tidy (w.Apart k url actions n) (t.policy.isSkipped url)
        ((w.before actions n).decisions k url t) (w.lost k url actions n) := by
  refine alive_induction h.reachable.inLine h.reachable.seated hs
    (P := fun n t => Balanced (s.policy.isSkipped url) (t.policy.isSkipped url)
        ((w.before actions n).decisions k url t) (w.begun k actions n) (w.lost k url actions n) ∧
      Tidy (w.Apart k url actions n) (t.policy.isSkipped url)
        ((w.before actions n).decisions k url t) (w.lost k url actions n))
    ?_ (fun n t hn hbooks => ?_) (fun n a t t' hn ht ht' _ hbooks => ?_) ht
  · have hnobody : (w.before actions 0).decisions k url s = [] := by
      rw [before_zero]
      exact decisions_of_empty h.idle s
    have hapart : w.Apart k url actions 0 := fun m a s hm => absurd hm (Nat.not_lt_zero m)
    rw [hnobody]
    exact ⟨⟨0, rfl, rfl⟩, Or.inl ⟨hapart, rfl, Or.inl rfl⟩⟩
  · rw [before_succ_of_none hn, begun, lost, tally_succ_of_none hn, tally_succ_of_none hn,
      apart_succ_of_none hn]
    exact hbooks
  · have hforeign := h.foreign (n + 1) t' ht'
    have hflip := h.flips a (List.mem_of_getElem? hn)
    rw [apart_succ hn ht, begun, lost, tally_succ hn, tally_succ hn]
    rw [before_succ hn] at ht' ⊢
    have hshift := (h.secluded n).shift h.plain hflip ht ht' hforeign
    exact ⟨hshift.balanced hbooks.1, hshift.tidy hbooks.2⟩

end World

/-- A row of negations comes to the same as a longer one exactly if it is longer by an even
number. -/
theorem not_iterate_eq_iff (m n : Nat) (b : Bool) :
    Bool.not^[m] b = Bool.not^[m + n] b ↔ Even n := by
  rw [Function.iterate_add_apply, (Bool.involutive_not.bijective.injective.iterate m).eq_iff]
  constructor
  · intro heq
    by_contra hodd
    rw [Bool.involutive_not.iterate_odd (Nat.not_even_iff_odd.mp hodd)] at heq
    exact Bool.not_ne_self b heq.symm
  · intro heven
    rw [Bool.involutive_not.iterate_even heven, id]

/-- **What toggles of one file come to.**  Let no job be under way, and let toggles of one file be
started on one session, however they overlap each other and loads of other sources, and whatever
else happens.  When no toggle waits for its turn any more, the state of the file is the first one,
negated once for every toggle that has begun and was not lost.  This is the first one negated once
for every toggle exactly if the number of lost ones is even; and none is lost exactly if no toggle
has begun while another one waited. -/
theorem isSkipped_flips {w : World} {actions : List Action} {k : Listener} {url : String}
    (h : w.Flips actions k url) {s : Skipper} (hs : w.sessions.get? k = some s) {n : Nat}
    {t : Skipper} (ht : (w.before actions n).sessions.get? k = some t)
    (hdone : (w.before actions n).decisions k url t = []) :
    w.lost k url actions n ≤ w.begun k actions n ∧
    t.policy.isSkipped url =
      Bool.not^[w.begun k actions n - w.lost k url actions n] (s.policy.isSkipped url) ∧
    (t.policy.isSkipped url = Bool.not^[w.begun k actions n] (s.policy.isSkipped url) ↔
      Even (w.lost k url actions n)) ∧
    (w.lost k url actions n = 0 ↔ w.Apart k url actions n) := by
  obtain ⟨⟨made, htotal, hskipped⟩, htidy⟩ := h.books hs ht
  rw [hdone, List.length_nil] at htotal
  rw [hdone, World.Tidy, World.wasted] at htidy
  have hmade : w.begun k actions n - w.lost k url actions n = made := by omega
  have hsum : w.begun k actions n = made + w.lost k url actions n := by omega
  refine ⟨by omega, by rw [hmade, hskipped], ?_, ?_⟩
  · rw [hskipped, hsum]
    exact not_iterate_eq_iff made _ _
  · rcases htidy with ⟨hapart, hnone, -⟩ | ⟨hnot, hlost⟩
    · exact iff_of_true hnone hapart
    · exact iff_of_false (by omega) hnot

/-! ## Two toggles behind a load -/

/-- Authored files are skipped, and nothing else is. -/
def sparing : SkipPolicy :=
  .ofGlobs ["**/a.ts"] none .sensitive

/-- A session that knows a bundle. -/
def solo : World :=
  (World.start.run [.openSession ⟨⟨"page"⟩, ⟨"page"⟩, sparing, bundled, 100, false⟩]).1

/-- The bundle is loaded, and before its ranges have been answered, two toggles of another file
begin. -/
def overlapping : List Action :=
  [.begin ⟨0⟩ (.load ⟨0⟩ ⟨1, "/app/bundle.js"⟩), .proceed ⟨0⟩ [],
    .begin ⟨1⟩ (.toggle ⟨0⟩ (.resource "/app/main.js")),
    .begin ⟨2⟩ (.toggle ⟨0⟩ (.resource "/app/main.js")),
    .proceed ⟨0⟩ [], .proceed ⟨1⟩ [], .proceed ⟨1⟩ [], .proceed ⟨2⟩ [], .proceed ⟨2⟩ []]

theorem reachable_solo : Reachable solo := by
  refine Reachable.start.run fun a ha => ?_
  rw [List.mem_singleton.mp ha]
  exact SkipPolicy.lawful_ofGlobs _ _ _

theorem isPlainUrl_main : IsPlainUrl "/app/main.js" := by
  constructor <;> decide

theorem foreign_solo {s : Skipper} (hs : solo.sessions.get? ⟨0⟩ = some s) :
    s.Foreign "/app/main.js" := by
  cases hs
  refine ⟨by decide, by decide, by decide, fun c a ha => ?_⟩
  change a ∈ bundled.authoredOf c at ha
  rw [authoredOf_bundled] at ha
  split at ha
  · rw [List.mem_singleton.mp ha]
    decide
  · exact absurd ha List.not_mem_nil

theorem flips_overlapping : solo.Flips overlapping ⟨0⟩ "/app/main.js" := by
  refine World.flips_of_foreign reachable_solo rfl isPlainUrl_main ?_ rfl (foreign_solo rfl) ?_ ?_
  · simp [overlapping, Action.IsFlip]
  · simp [overlapping]
  · simp [overlapping]

/-- The session, with this policy, while the load is being answered. -/
def loading (p : SkipPolicy) : World :=
  let s := Opening.skipper ⟨⟨"page"⟩, ⟨"page"⟩, sparing, bundled, 100, false⟩ ⟨⟨"page"⟩, 1⟩
  let r := s.carryOut (.load ⟨1, "/app/bundle.js"⟩)
  { solo with
    sessions := .single ⟨0⟩ { s with policy := p, skipping := r.2.skipping, line := [⟨0⟩] }
    jobs := .single ⟨0⟩ ⟨[⟨0⟩], .ranges ⟨0⟩ r.1 true .finish⟩ }

theorem propagate_sparing : Ranges.propagate sparing bundled ⟨1, "/app/bundle.js"⟩ =
    sparing.setOverride "/app/a.ts" true := by
  rw [Ranges.propagate, walk_bundled]
  rfl

/-- The rest of the run, once the load has recorded the state of the file that the bundle lists. -/
theorem before_overlapping (n : Nat) : solo.before overlapping (2 + n) =
    (loading (sparing.setOverride "/app/a.ts" true)).before (overlapping.drop 2) n := by
  have hload : solo.before overlapping 2 =
      loading (Ranges.propagate sparing bundled ⟨1, "/app/bundle.js"⟩) := rfl
  rw [← propagate_sparing, ← hload, World.before, World.before, World.before, List.take_add,
    World.run, runOf_append]
  rfl

/-- When everything has ended, the file is skipped, as if it had been toggled once. -/
theorem ends_overlapping : (solo.before overlapping 9).jobs = .empty ∧
    ∃ t, (solo.before overlapping 9).sessions.get? ⟨0⟩ = some t ∧
      t.policy.isSkipped "/app/main.js" = true := by
  rw [before_overlapping 7]
  exact ⟨rfl, _, rfl, rfl⟩

/-- **Two toggles that begin while a load is being answered come to one.**  All jobs have ended, and
the file is skipped, although it was not skipped at first and two negations change nothing. -/
theorem overlapping_toggle_lost :
    solo.Flips overlapping ⟨0⟩ "/app/main.js" ∧
    (solo.before overlapping 9).jobs = .empty ∧ solo.begun ⟨0⟩ overlapping 9 = 2 ∧
    ∃ s t, solo.sessions.get? ⟨0⟩ = some s ∧
      (solo.before overlapping 9).sessions.get? ⟨0⟩ = some t ∧
      t.policy.isSkipped "/app/main.js" ≠ Bool.not^[2] (s.policy.isSkipped "/app/main.js") := by
  obtain ⟨hjobs, t, ht, hskipped⟩ := ends_overlapping
  refine ⟨flips_overlapping, hjobs, by decide, _, t, rfl, ht, ?_⟩
  rw [hskipped]
  decide

/-- So one of the two has been lost, and they were not apart. -/
theorem isSkipped_flips_overlapping :
    solo.Flips overlapping ⟨0⟩ "/app/main.js" ∧
    (solo.before overlapping 9).jobs = .empty ∧
    solo.lost ⟨0⟩ "/app/main.js" overlapping 9 = 1 ∧
    ¬ solo.Apart ⟨0⟩ "/app/main.js" overlapping 9 := by
  obtain ⟨hjobs, t, ht, hskipped⟩ := ends_overlapping
  have hbegun : solo.begun ⟨0⟩ overlapping 9 = 2 := by decide
  have hs : solo.sessions.get? ⟨0⟩ = some
      (Opening.skipper ⟨⟨"page"⟩, ⟨"page"⟩, sparing, bundled, 100, false⟩ ⟨⟨"page"⟩, 1⟩) := rfl
  obtain ⟨hle, -, hiff, hapart⟩ :=
    isSkipped_flips flips_overlapping hs ht (World.decisions_of_empty hjobs t)
  rw [hbegun] at hle hiff
  have hodd : ¬ Even (solo.lost ⟨0⟩ "/app/main.js" overlapping 9) := by
    rw [← hiff, hskipped]
    decide
  have hone : solo.lost ⟨0⟩ "/app/main.js" overlapping 9 = 1 := by
    interval_cases hlost : solo.lost ⟨0⟩ "/app/main.js" overlapping 9
    · exact absurd Even.zero hodd
    · rfl
    · exact absurd even_two hodd
  refine ⟨flips_overlapping, hjobs, hone, ?_⟩
  rw [← hapart, hone]
  decide

end Skipper
end DebugTree
