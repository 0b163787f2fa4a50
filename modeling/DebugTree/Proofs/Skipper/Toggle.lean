import DebugTree.Proofs.Skipper.Tour

/-!
# What a toggle comes to

A toggle that is alone comes to an end, and what it has done by then does not depend on how its
steps lay among those of scheduled pushes, on how long answers took, or on what the runtime
refused.  `toggle_spec` puts together what the tour of the toggle leaves behind at its end.
-/

namespace DebugTree
namespace Skipper

open Protocol

namespace Tour

variable {T : Tour} {done todo : List Listener} {sent : Bool} {w : World} {seen : List Event}

theorem Valid.length_stops_le (hT : T.Valid) : T.stops.length ≤ T.start.sessions.size := by
  have hsub : T.stops ⊆ T.start.sessions.keys := by
    intro k hk
    obtain ⟨t, ht, -⟩ := hT.exists_of_mem_stops hk
    rw [← Index.contains_iff, Index.contains, ht]
    rfl
  have hle := hT.nodup_stops.length_le_of_subset hsub
  rwa [Index.keys, List.length_map] at hle

/-- Who has been told is told of this change, is a sibling, and is told once. -/
theorem Progress.filter_told (h : T.Progress done todo sent w seen) (hT : T.Valid)
    {k : Listener} (hk : k ∈ T.stops) (hhome : todo = []) :
    (seen.filterMap Event.told?).filter (fun x => x.1 = k) =
      if k = T.origin then [] else [(k, T.event)] := by
  subst hhome
  have hdone : done = T.stops := by simpa using h.stops
  have htold : seen.filterMap Event.told? =
      (T.start.peers T.session.root T.session.target).map fun k => (k, T.event) := by
    rw [h.told, hdone, List.take_nil, List.append_nil]
    rfl
  have hfilter : (fun x : Listener × SkipToggled => decide (x.1 = k)) ∘ (fun k => (k, T.event)) =
      fun x => decide (x = k) := rfl
  rw [htold, List.filter_map, hfilter, List.filter_eq]
  obtain ⟨horigin, hpeers⟩ := List.nodup_cons.mp hT.nodup_stops
  split
  · next hk => rw [hk, List.count_eq_zero_of_not_mem horigin]; rfl
  · next hne =>
    have hmem := (List.mem_cons.mp hk).resolve_left hne
    rw [List.count_eq_one_of_mem hpeers hmem]
    rfl

/-- A toggle that has had two steps for every session there is has come home. -/
theorem Progress.home (h : T.Progress done todo sent w seen) (hT : T.Valid)
    {steps : List Action} (hcount : 2 * T.start.sessions.size ≤ steps.countP (·.isProceedOf T.job))
    (hleft : stepsLeft todo sent ≤ stepsLeft T.stops false - steps.countP (·.isProceedOf T.job)) :
    todo = [] := by
  have hlen := hT.length_stops_le
  have hstart : stepsLeft T.stops false = 2 * T.stops.length := by simp [stepsLeft]
  have hnone : stepsLeft todo sent = 0 := by omega
  cases todo with
  | nil => rfl
  | cons k rest =>
    simp only [stepsLeft, List.length_cons] at hnone
    split at hnone <;> omega

/-- When the toggle has come home, every session of the root has taken the decision over. -/
theorem Progress.decided (h : T.Progress done [] sent w seen) (hT : T.Valid) {k : Listener}
    {t : Skipper} (ht : T.start.sessions.get? k = some t) (hroot : t.root = T.session.root) :
    ∃ t', w.sessions.get? k = some t' ∧
      t'.policy = (T.change k t).revise t.graph t.policy ∧
      t'.policy.isSkipped T.url = !T.was := by
  obtain ⟨t', ht', hvisit⟩ := h.sessions k t ht
  have hstop : k ∈ done := by
    have hmem := (hT.mem_stops_iff ht).mpr hroot
    rwa [← h.stops, List.append_nil] at hmem
  have hpolicy : t'.policy = (T.change k t).revise t.graph t.policy := by
    rw [hvisit.policy, if_pos]
    unfold Tour.applied
    split
    · exact List.mem_append_left _ hstop
    · exact hstop
  refine ⟨t', ht', hpolicy, ?_⟩
  rw [hpolicy]
  exact SkipChange.isSkipped_revise_decide _ (hT.reachable.lawful ht) (hT.sensitive k t ht hroot)
    hT.plain (hT.external k t ht hroot) _ _

/-- A session of another root is as it was, and nothing has been seen of it. -/
theorem Progress.untouched (h : T.Progress done todo sent w seen) {k : Listener} {t : Skipper}
    (ht : T.start.sessions.get? k = some t) (haway : t.root ≠ T.session.root) :
    w.sessions.get? k = some t ∧ ∀ x ∈ seen, x.session? ≠ some k := by
  obtain ⟨t', ht', hvisit⟩ := h.sessions k t ht
  refine ⟨hvisit.away haway ▸ ht', fun x hx hk => ?_⟩
  obtain ⟨t₀, ht₀, hroot⟩ := h.near x hx k hk
  rw [ht] at ht₀
  exact haway (Option.some.inj ht₀ ▸ hroot)

end Tour

/-- **What a toggle comes to.**  In a quiet world a toggle on a session ends, as soon as it has had
its steps.  When it has ended, it has turned the state of the file into its opposite; the session
and all its siblings agree on the new state, and each of them has carried out the decision once;
every sibling has been told once, and the session itself has not been told.  Sessions of other
roots are as they were, and nothing was sent to their runtimes. -/
theorem toggle_spec {w : World} (hw : Reachable w) (hidle : w.IsIdle)
    (hdistinct : ∀ k t k' t', w.sessions.get? k = some t → w.sessions.get? k' = some t' →
      t.target = t'.target → k = k')
    {a : Listener} {s : Skipper} (ha : w.sessions.get? a = some s) {request : ToggleRequest}
    {url : String} {source : Option Source} (hrequest : s.resolve? request = some (url, source))
    (hurl : IsPlainUrl url)
    (hcase : ∀ k t, w.sessions.get? k = some t → t.root = s.root →
      t.policy.pathCase.isInsensitive = false)
    (hexternal : ∀ k t, w.sessions.get? k = some t → t.root = s.root →
      t.policy.isNodeInternal url = false)
    (j : JobId) {steps : List Action} (hsteps : ∀ x ∈ steps, x.IsStep) :
    let r := w.run (.begin j (.toggle a request) :: steps)
    let skipped := !s.policy.isSkipped url
    (2 * w.sessions.size ≤ steps.countP (·.isProceedOf j) →
      .finished j (.toggled (.toggled url skipped)) ∈ r.2) ∧
    (∀ o, .finished j o ∈ r.2 → o = .toggled (.toggled url skipped) ∧
      ∀ k t, w.sessions.get? k = some t → t.root = s.root →
        ∃ t', r.1.sessions.get? k = some t' ∧ t'.policy.isSkipped url = skipped ∧
          t'.policy = (SkipChange.decide url (if k = a then source else t.graph.sourceByUrl? url)
            skipped).revise t.graph t.policy ∧
          (r.2.filterMap Event.told?).filter (fun x => x.1 = k) =
            if k = a then [] else [(k, ⟨s.root, s.target, url, skipped⟩)]) ∧
    (∀ k t, w.sessions.get? k = some t → t.root ≠ s.root →
      r.1.sessions.get? k = some t ∧ ∀ x ∈ r.2, x.session? ≠ some k) := by
  intro r skipped
  let T : Tour := ⟨w, j, a, s, url, source⟩
  have hT : T.Valid := ⟨hw, hidle, hdistinct, ha, hurl, hcase, hexternal⟩
  obtain ⟨done, todo, sent, hprogress, hleft⟩ := (hT.progress_begin hrequest).run hT hsteps
  have hr : r = (((w.act (.begin j (.toggle a request))).1.run steps).1,
      (w.act (.begin j (.toggle a request))).2 ++
        ((w.act (.begin j (.toggle a request))).1.run steps).2) := rfl
  have h : T.Progress done todo sent r.1 r.2 := by rw [hr]; exact hprogress
  refine ⟨fun hcount => ?_, fun o ho => ?_, fun k t ht haway => h.untouched ht haway⟩
  · exact (h.finished _).mpr ⟨h.home hT hcount hleft, rfl⟩
  · obtain ⟨rfl, hout⟩ := (h.finished o).mp ho
    refine ⟨hout, fun k t ht hroot => ?_⟩
    obtain ⟨t', ht', hpolicy, hskipped⟩ := h.decided hT ht hroot
    exact ⟨t', ht', hskipped, hpolicy, h.filter_told hT ((hT.mem_stops_iff ht).mpr hroot) rfl⟩

/-! ## A page and its worker -/

/-- A session without sources that skips what the globs say. -/
def plainOpening (target root : String) (globs : List String) : Opening :=
  ⟨⟨target⟩, ⟨root⟩, .ofGlobs globs none .sensitive, .empty, 100, false⟩

/-- A page, its worker, which has globs of its own, and a page of another tree. -/
def family : World :=
  (World.start.run [.openSession (plainOpening "page" "page" []),
    .openSession (plainOpening "worker" "page" ["**/lib/**", "!/app/a.js"]),
    .openSession (plainOpening "other" "other" [])]).1

theorem reachable_family : Reachable family := by
  refine Reachable.start.run ?_
  simp only [List.forall_mem_cons]
  exact ⟨SkipPolicy.lawful_ofGlobs _ _ _, SkipPolicy.lawful_ofGlobs _ _ _,
    SkipPolicy.lawful_ofGlobs _ _ _, fun _ h => absurd h List.not_mem_nil⟩

theorem entries_family : family.sessions.entries =
    [(⟨0⟩, (plainOpening "page" "page" []).skipper ⟨⟨"page"⟩, 1⟩),
     (⟨1⟩, (plainOpening "worker" "page" ["**/lib/**", "!/app/a.js"]).skipper ⟨⟨"page"⟩, 2⟩),
     (⟨2⟩, (plainOpening "other" "other" []).skipper ⟨⟨"other"⟩, 3⟩)] := rfl

theorem family_induction {P : Listener → Skipper → Prop}
    (h : ∀ e ∈ family.sessions.entries, P e.1 e.2) (k : Listener) (t : Skipper)
    (ht : family.sessions.get? k = some t) : P k t :=
  h (k, t) (Index.mem_entries_of_get? ht)

theorem isIdle_family : family.IsIdle := by
  refine ⟨rfl, family_induction ?_, family_induction ?_, family_induction ?_⟩ <;>
    rw [entries_family] <;> simp [Opening.skipper, plainOpening, Debouncer.idle]

theorem distinct_family (k : Listener) (t : Skipper) (k' : Listener) (t' : Skipper)
    (ht : family.sessions.get? k = some t) (ht' : family.sessions.get? k' = some t') :
    t.target = t'.target → k = k' := by
  have hall : ∀ e ∈ family.sessions.entries, ∀ e' ∈ family.sessions.entries,
      e.2.target = e'.2.target → e.1 = e'.1 := by
    rw [entries_family]
    simp [Opening.skipper, plainOpening]
  exact hall (k, t) (Index.mem_entries_of_get? ht) (k', t') (Index.mem_entries_of_get? ht')

/-- The worker takes the decision of its page over. -/
theorem toggle_spec_worker :
    .finished ⟨0⟩ (.toggled (.toggled "/app/a.js" true)) ∈
      (family.run (.begin ⟨0⟩ (.toggle ⟨0⟩ (.resource "/app/a.js")) ::
        List.replicate 6 (.proceed ⟨0⟩ []))).2 ∧
    ∃ t, (family.run (.begin ⟨0⟩ (.toggle ⟨0⟩ (.resource "/app/a.js")) ::
        List.replicate 6 (.proceed ⟨0⟩ []))).1.sessions.get? ⟨1⟩ = some t ∧
      t.policy.isSkipped "/app/a.js" = true := by
  have hpage : family.sessions.get? ⟨0⟩ =
      some ((plainOpening "page" "page" []).skipper ⟨⟨"page"⟩, 1⟩) := rfl
  have hworker : family.sessions.get? ⟨1⟩ = some
      ((plainOpening "worker" "page" ["**/lib/**", "!/app/a.js"]).skipper ⟨⟨"page"⟩, 2⟩) := rfl
  have hrequest : ((plainOpening "page" "page" []).skipper ⟨⟨"page"⟩, 1⟩).resolve?
      (.resource "/app/a.js") = some ("/app/a.js", none) := rfl
  have hurl : IsPlainUrl "/app/a.js" := by constructor <;> decide
  have hsensitive : ∀ e ∈ family.sessions.entries,
      e.2.policy.pathCase.isInsensitive = false := by
    rw [entries_family]
    decide
  have hexternal : ∀ e ∈ family.sessions.entries,
      e.2.policy.isNodeInternal "/app/a.js" = false := by
    rw [entries_family]
    decide
  have hsteps : ∀ x ∈ List.replicate 6 (Action.proceed ⟨0⟩ []), x.IsStep :=
    fun x hx => (List.eq_of_mem_replicate hx) ▸ trivial
  have hskipped : ((plainOpening "page" "page" []).skipper ⟨⟨"page"⟩, 1⟩).policy.isSkipped
      "/app/a.js" = false := by decide
  obtain ⟨hends, hafter, -⟩ := toggle_spec reachable_family isIdle_family distinct_family hpage
    hrequest hurl (fun k t ht _ => hsensitive (k, t) (Index.mem_entries_of_get? ht))
    (fun k t ht _ => hexternal (k, t) (Index.mem_entries_of_get? ht)) ⟨0⟩ hsteps
  have hfinished := hends (by rw [Index.size, entries_family]; decide)
  rw [hskipped, Bool.not_false] at hfinished hafter
  obtain ⟨-, hagree⟩ := hafter _ hfinished
  obtain ⟨t, ht, hskip, -⟩ := hagree ⟨1⟩ _ hworker rfl
  exact ⟨hfinished, t, ht, hskip⟩

end Skipper
end DebugTree
