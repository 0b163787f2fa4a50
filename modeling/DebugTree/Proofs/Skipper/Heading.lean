import DebugTree.Proofs.Skipper.Crossing

/-!
# Where sessions are heading

At every moment it can be told what the sessions of a root will think of the file in the end, if
nobody starts another toggle.  A session with whom no toggle has still to do thinks so already.  To
the others the last toggle that has still to do with them brings it, or one that comes after it.

"Last" is by the start of toggles and not by their place in a line.  Toggles of one session, and
toggles with different states, keep their order everywhere (`Orderly`).  Others need not, and it
does not matter which of them comes last.  A step changes for whom a toggle is pending and nothing
else about it, so each kind of step gets one statement about that (`pends_iff`), and the rest is
bookkeeping.
-/

namespace DebugTree
namespace Skipper
namespace World

variable {w w' : World} {root : TargetId} {url : String} {j j' : JobId} {job job' : Job}
  {k k' k₁ : Listener} {o o' : TargetId} {v v' V : Bool} {x : Outlook} {source : Option Source}
  {keeps : List Listener} {wait wait' : Wait} {rest : List Listener} {outcome : Outcome}

/-! ## Who is pending -/

/-- A job that carries a state from an origin has still to do with a session. -/
def Pends (w : World) (root : TargetId) (url : String) (k : Listener) (j : JobId) (o : TargetId)
    (v : Bool) : Prop :=
  ∃ job, w.jobs.get? j = some job ∧ job.wait.IsPendingAt k ∧ Carries w root url job.wait o v

theorem Pends.mem_keys (h : w.Pends root url k j o v) : j ∈ w.jobs.keys := by
  obtain ⟨job, hj, -⟩ := h
  exact Index.mem_keys_of_get? hj

/-- While nobody looks at the file differently, a job that stays pends where it did. -/
theorem pends_congr (hjob : w'.jobs.get? j = w.jobs.get? j)
    (hlook : ∀ k, w'.outlook? url k = w.outlook? url k)
    (hpeers : ∀ o, w'.peers root o = w.peers root o) :
    w'.Pends root url k j o v ↔ w.Pends root url k j o v := by
  simp only [Pends, hjob, carries_congr hlook hpeers]

theorem Begins.pends (hb : w.Begins root url w' j k x source keeps) (k' : Listener) :
    w'.Pends root url k' j x.target !x.skipped :=
  ⟨_, hb.get?_jobs_self, trivial, hb.carries⟩

theorem Sends.pends (hs : w.Sends root url w' j k x wait o v wait' keeps) :
    w.Pends root url k j o v := by
  refine ⟨_, hs.job, ?_, hs.carries⟩
  obtain ⟨c, sequel, batch, renews, hwait, -⟩ := hs.turn
  have hc := hs.carries
  cases hc with
  | deciding => trivial
  | bringing =>
    obtain ⟨rfl, -, -⟩ := Wait.turn.inj hwait
    exact List.mem_cons_self
  | decided | brought => exact absurd hwait (by simp)

theorem Sends.pends_iff (hs : w.Sends root url w' j k x wait o v wait' keeps) (hin : w.InLine)
    (hseated : w.Seated) (hpeers : ∀ o, w'.peers root o = w.peers root o) :
    w'.Pends root url k' j' o' v' ↔ w.Pends root url k' j' o' v' ∧ ¬ (j = j' ∧ k' = k) := by
  by_cases hj : j = j'
  · subst hj
    constructor
    · rintro ⟨job₁, hj₁, hpending, hc⟩
      rw [hs.get?_jobs_self, Option.some.injEq] at hj₁
      subst hj₁
      obtain ⟨rfl, rfl⟩ := (hs.carries_sent hpeers).unique hc
      obtain ⟨hpending, hne⟩ := (hs.isPendingAt_iff hseated k').mp hpending
      exact ⟨⟨_, hs.job, hpending, hs.carries⟩, fun h => hne h.2⟩
    · rintro ⟨⟨job₁, hj₁, hpending, hc⟩, hne⟩
      rw [hs.job, Option.some.injEq] at hj₁
      subst hj₁
      obtain ⟨rfl, rfl⟩ := hs.carries.unique hc
      have hpending := (hs.isPendingAt_iff hseated k').mpr ⟨hpending, fun hk => hne ⟨rfl, hk⟩⟩
      exact ⟨_, hs.get?_jobs_self, hpending, hs.carries_sent hpeers⟩
  · have hjob : w'.jobs.get? j' = w.jobs.get? j' := by rw [hs.get?_jobs, if_neg hj]
    constructor
    · rintro ⟨job₁, hj₁, hpending, hc⟩
      rw [hjob] at hj₁
      exact ⟨⟨job₁, hj₁, hpending, (hs.carries_iff hin hpeers hj₁ hj).mp hc⟩, fun h => hj h.1⟩
    · rintro ⟨⟨job₁, hj₁, hpending, hc⟩, -⟩
      exact ⟨job₁, hjob.trans hj₁, hpending, (hs.carries_iff hin hpeers hj₁ hj).mpr hc⟩

theorem Passes.pends_iff (hp : w.Passes root url w' j k k₁ job o v rest source keeps outcome)
    (horderly : w.Orderly root url) (hseated : w.Seated)
    (hpeers : ∀ o, w'.peers root o = w.peers root o) (hx : w.outlook? url k' = some x)
    (hroot : x.root = root) :
    w'.Pends root url k' j' o' v' ↔ w.Pends root url k' j' o' v' := by
  have hiff := hp.isPendingAt_iff hseated horderly hx hroot
  by_cases hj : j = j'
  · subst hj
    constructor
    · rintro ⟨job₁, hj₁, hpending, hc⟩
      rw [hp.get?_jobs_self, Option.some.injEq] at hj₁
      subst hj₁
      obtain ⟨rfl, rfl⟩ := (hp.carries_next hpeers).unique hc
      exact ⟨job, hp.job_eq, hiff.mpr hpending, hp.carries⟩
    · rintro ⟨job₁, hj₁, hpending, hc⟩
      rw [hp.job_eq, Option.some.injEq] at hj₁
      subst hj₁
      obtain ⟨rfl, rfl⟩ := hp.carries.unique hc
      exact ⟨_, hp.get?_jobs_self, hiff.mp hpending, hp.carries_next hpeers⟩
  · exact pends_congr (by rw [hp.get?_jobs, if_neg hj]) hp.look hpeers

theorem Ends.pends_iff (he : w.Ends root url w' j k job o v) (horderly : w.Orderly root url)
    (hseated : w.Seated) (hpeers : ∀ o, w'.peers root o = w.peers root o)
    (hx : w.outlook? url k' = some x) (hroot : x.root = root) :
    w'.Pends root url k' j' o' v' ↔ w.Pends root url k' j' o' v' := by
  by_cases hj : j = j'
  · subst hj
    constructor
    · rintro ⟨job₁, hj₁, -⟩
      rw [he.jobs, Index.get?_erase_self] at hj₁
      cases hj₁
    · rintro ⟨job₁, hj₁, hpending, -⟩
      rw [he.job_eq, Option.some.injEq] at hj₁
      subst hj₁
      exact absurd ((he.isPendingAt_iff hseated horderly hx hroot).mp hpending) List.not_mem_nil
  · exact pends_congr (by rw [he.jobs, Index.get?_erase, if_neg hj]) he.look hpeers

/-! ## Where the sessions are heading -/

/-- What the sessions of a root will think of the file: those with whom no job has still to do
think so already, and of the jobs that have still to do with a session the last one, or one that
comes after it, brings that state. -/
structure Heading (w : World) (root : TargetId) (url : String) (V : Bool) : Prop where
  settled : ∀ k x, w.outlook? url k = some x → x.root = root →
    (∀ j o v, ¬ w.Pends root url k j o v) → x.skipped = V
  pending : ∀ k x, w.outlook? url k = some x → x.root = root → ∀ j o v,
    w.Pends root url k j o v →
      v = V ∨ ∃ j' o', Before w.jobs.keys j j' ∧ w.Pends root url k j' o' V

/-- A new toggle will have the last word everywhere. -/
theorem Begins.heading (hb : w.Begins root url w' j k x source keeps) :
    w'.Heading root url !x.skipped where
  settled k' x' _ _ hnone := absurd (hb.pends k') (hnone j _ _)
  pending k' x' _ _ j₁ o v := by
    rintro ⟨job₁, hj₁, -, hc⟩
    rw [hb.get?_jobs] at hj₁
    split at hj₁
    · rw [← Option.some.inj hj₁] at hc
      exact Or.inl (hc.unique hb.carries).2
    · refine Or.inr ⟨j, x.target, ?_, hb.pends k'⟩
      rw [hb.keys_jobs]
      exact Before.append_singleton (Index.mem_keys_of_get? hj₁) j

/-- Where nobody changes his mind and the same jobs are pending in the same order, the sessions are
heading for the same. -/
theorem Heading.of_pends_iff (h : w.Heading root url V)
    (hlook : ∀ k, w'.outlook? url k = w.outlook? url k)
    (hpends : ∀ k x, w.outlook? url k = some x → x.root = root → ∀ j o v,
      w'.Pends root url k j o v ↔ w.Pends root url k j o v)
    (hkeys : ∀ j j', j ∈ w'.jobs.keys → j' ∈ w'.jobs.keys → Before w.jobs.keys j j' →
      Before w'.jobs.keys j j') : w'.Heading root url V where
  settled k x hx hroot hnone := by
    rw [hlook] at hx
    exact h.settled k x hx hroot fun j o v hj => hnone j o v ((hpends k x hx hroot j o v).mpr hj)
  pending k x hx hroot j o v hj := by
    rw [hlook] at hx
    have hiff := hpends k x hx hroot
    rcases h.pending k x hx hroot j o v ((hiff j o v).mp hj) with hv | ⟨j', o', hbefore, hj'⟩
    · exact Or.inl hv
    · have hj' := (hiff j' o' V).mpr hj'
      exact Or.inr ⟨j', o', hkeys j j' hj.mem_keys hj'.mem_keys hbefore, hj'⟩

theorem Heading.quiet (h : w.Heading root url V) (hpeers : ∀ o, w'.peers root o = w.peers root o)
    (hq : w.Quiet url w') : w'.Heading root url V :=
  h.of_pends_iff hq.look (fun _ _ _ _ _ _ _ => pends_congr (by rw [hq.jobs]) hq.look hpeers)
    fun _ _ _ _ hbefore => hq.jobs ▸ hbefore

/-- **The turn of a toggle does not change where the sessions are heading.**  If the toggle was the
one with the last word here, those that are left were started before it, and carry the same state,
since otherwise they would have been here. -/
theorem Heading.sends (h : w.Heading root url V) (horderly : w.Orderly root url)
    (hin : w.InLine) (hseated : w.Seated)
    (hpeers : ∀ o, w'.peers root o = w.peers root o)
    (hs : w.Sends root url w' j k x wait o v wait' keeps) : w'.Heading root url V where
  settled k' x' hx' hroot' hnone := by
    rw [hs.look] at hx'
    split at hx'
    · next hk =>
      subst hk
      obtain rfl := Option.some.inj hx'
      rcases h.pending k x hs.outlook hroot' j o v hs.pends with hv | ⟨j', o', hbefore, hj'⟩
      · exact hv
      · have hne : ¬ (j = j' ∧ k = k) := fun heq => hbefore.ne hin.nodup heq.1
        exact absurd ((hs.pends_iff hin hseated hpeers).mpr ⟨hj', hne⟩) (hnone j' o' V)
    · next hk =>
      refine h.settled k' x' hx' hroot' fun j' o' v' hj' => hnone j' o' v' ?_
      exact (hs.pends_iff hin hseated hpeers).mpr ⟨hj', fun heq => hk heq.2.symm⟩
  pending k' x' hx' hroot' j₁ o₁ v₁ hj₁ := by
    obtain ⟨y, hy, heq⟩ := hs.frame k' x' hx'
    have hyroot : y.root = root := by rw [← heq]; exact hroot'
    obtain ⟨hj₁, hleft⟩ := (hs.pends_iff hin hseated hpeers).mp hj₁
    rcases h.pending k' y hy hyroot j₁ o₁ v₁ hj₁ with hv | ⟨j₂, o₂, hbefore, hj₂⟩
    · exact Or.inl hv
    by_cases hlast : j = j₂ ∧ k' = k
    · obtain ⟨rfl, rfl⟩ := hlast
      obtain ⟨job₁, hjob₁, hpending₁, hc₁⟩ := hj₁
      obtain ⟨job₂, hjob₂, -, hc₂⟩ := hj₂
      rw [hs.job, Option.some.injEq] at hjob₂
      subst hjob₂
      obtain ⟨rfl, rfl⟩ := hs.carries.unique hc₂
      refine Or.inl (by_contra fun hv => ?_)
      have hahead := horderly.ahead j₁ job₁ j _ o₁ v₁ o v hbefore hjob₁ hs.job hc₁ hs.carries
        (Or.inr hv)
      exact hahead.not_pending hin hseated hc₁ hs.carries hs.wait_eq.2.2 hs.first hpending₁
    · exact Or.inr ⟨j₂, o₂, hs.keys_jobs ▸ hbefore,
        (hs.pends_iff hin hseated hpeers).mpr ⟨hj₂, hlast⟩⟩

theorem Heading.passes (h : w.Heading root url V) (horderly : w.Orderly root url)
    (hseated : w.Seated) (hpeers : ∀ o, w'.peers root o = w.peers root o)
    (hp : w.Passes root url w' j k k₁ job o v rest source keeps outcome) :
    w'.Heading root url V :=
  h.of_pends_iff hp.look
    (fun _ _ hx hroot _ _ _ => hp.pends_iff horderly hseated hpeers hx hroot)
    fun _ _ _ _ hbefore => hp.keys_jobs ▸ hbefore

theorem Heading.ends (h : w.Heading root url V) (horderly : w.Orderly root url)
    (hseated : w.Seated) (hpeers : ∀ o, w'.peers root o = w.peers root o)
    (he : w.Ends root url w' j k job o v) : w'.Heading root url V := by
  refine h.of_pends_iff he.look
    (fun _ _ hx hroot _ _ _ => he.pends_iff horderly hseated hpeers hx hroot)
    fun j₁ j₂ hj₁ hj₂ hbefore => ?_
  rw [he.jobs, Index.keys_erase, List.mem_filter] at hj₁ hj₂
  rw [he.jobs, Index.keys_erase]
  exact hbefore.filter hj₁.2 hj₂.2

/-- **The sessions keep heading for one state**, and a new toggle only says which. -/
theorem Heading.advance (h : w.Heading root url V) (horderly : w.Orderly root url)
    (hin : w.InLine) (hseated : w.Seated)
    (hpeers : ∀ o, w'.peers root o = w.peers root o) (ha : w.Advance root url w') :
    ∃ V', w'.Heading root url V' := by
  cases ha with
  | quiet hq => exact ⟨V, h.quiet hpeers hq⟩
  | begins hb => exact ⟨_, hb.heading⟩
  | sends hs => exact ⟨V, h.sends horderly hin hseated hpeers hs⟩
  | passes hp => exact ⟨V, h.passes horderly hseated hpeers hp⟩
  | ends he => exact ⟨V, h.ends horderly hseated hpeers he⟩

end World
end Skipper
end DebugTree
