import DebugTree.Proofs.Policy.Alike
import DebugTree.Proofs.Skipper.Paths
import DebugTree.Proofs.Skipper.Tour

/-!
# Toggles that nobody hears of

A toggle tells the siblings of its session if the state of the file has changed.  If it has not, or
if nothing was found, it ends silently, and the siblings stay as they are.  The session may not: its
policy has been edited before the states are compared.

For a URL that globs can name this happens with modules inside the runtime only, and while their
names are not known: the globs for modules have no effect until then, so the edit cannot be seen.
It is seen when the names come, by this session and by no other (`silent_toggle_surfaces`).  If a
bundle lists the module, the decision is recorded under its URL, where it is found only by a URL of
a file that has the same key.

A silent toggle is harmless if the policy is *alike* before and after it.  When it is, is said by
`silent_toggle_harmless_iff`: for any request in terms of what a policy is made of, and for a plain
URL in terms of the policy before the toggle.

The toggle has its session to itself here, that is, nobody waits in the line.  What other sessions
do is left open.
-/

namespace DebugTree

open Protocol SkipPolicy

namespace SkipChange

variable {p : SkipPolicy} {g : SourceGraph} {c : Source} {url other : String}
  {source : Option Source} {skipped : Bool}

/-! ## What a decision about a module leaves behind -/

/-- A decision about a URL is recorded for another one: both have one key, and some bundle lists the
source; or the other one is listed below the source. -/
def RecordsFor (g : SourceGraph) (p : SkipPolicy) (url : String) (source : Option Source)
    (other : String) : Prop :=
  bundles g source ≠ [] ∧ p.normalize url = p.normalize other ∨
    bundles g source = [] ∧ ListedBelow g p source other

theorem testAuthored_force (p : SkipPolicy) (g : SourceGraph) (c : Source) (skipped : Bool)
    (url : String) : (Ranges.force p g c skipped).testAuthored url = p.testAuthored url :=
  Ranges.forceTree_induction (P := fun q => q.testAuthored url = p.testAuthored url)
    (fun _ _ h => h) rfl _

theorem internalsMatch_force (p : SkipPolicy) (g : SourceGraph) (c : Source) (skipped : Bool)
    (m : String) : (Ranges.force p g c skipped).internalsMatch m = p.internalsMatch m :=
  Ranges.forceTree_induction (P := fun q => q.internalsMatch m = p.internalsMatch m)
    (fun _ _ h => h) rfl _

theorem fileState_force_eq_iff :
    (Ranges.force p g c skipped).fileState other = p.fileState other ↔
      (ListedBelow g p (some c) other → p.fileState other = skipped) := by
  rw [fileState, testAuthored_force]
  by_cases hbelow : ListedBelow g p (some c) other
  · obtain ⟨_, ⟨⟩, s, a, hs, ha, hkey⟩ := id hbelow
    have hmem := SourceGraph.mem_listed_walk_iff.mpr ⟨s, hs, ha⟩
    rw [Ranges.force_eq_foldl, Ranges.overrideFor_foldl_setOverride, if_pos ⟨a, hmem, hkey⟩,
      Option.getD_some, forall_prop_of_true hbelow, eq_comm]
  · have hnone : ∀ s a, g.LeadsTo c s → a ∈ g.authoredOf s →
        p.normalize a.url ≠ p.normalize other :=
      fun s a hs ha hkey => hbelow ⟨c, rfl, s, a, hs, ha, hkey⟩
    rw [Ranges.overrideFor_force_of_ne hnone]
    exact iff_of_true rfl fun h => absurd h hbelow

/-- A decision about a module changes the state of a file exactly if it is recorded for the file,
which was in another state. -/
theorem fileState_revise_eq_iff (hint : p.isNodeInternal url = true) :
    ((decide url source skipped).revise g p).fileState other = p.fileState other ↔
      (RecordsFor g p url source other → p.fileState other = skipped) := by
  by_cases hlisted : bundles g source = []
  · have hrecords : RecordsFor g p url source other ↔ ListedBelow g p source other := by
      simp [RecordsFor, hlisted]
    rw [revise, if_pos (by simp [hlisted]), setExplicitSkip_of_internal hint, hrecords]
    cases source with
    | none => exact iff_of_true rfl (by rintro ⟨_, ⟨⟩, -⟩)
    | some c => exact fileState_force_eq_iff (p := p.chooseInternal url skipped)
  · have hrecords : RecordsFor g p url source other ↔ p.normalize url = p.normalize other := by
      simp [RecordsFor, hlisted]
    rw [revise, if_neg (by simpa using hlisted), fileState_setOverride, hrecords]
    split
    · next hkey => rw [forall_prop_of_true hkey, eq_comm]
    · next hkey => exact iff_of_true rfl fun h => absurd h hkey

theorem internalsMatch_revise (hint : p.isNodeInternal url = true)
    (hlisted : bundles g source = []) (m : String) :
    ((decide url source skipped).revise g p).internalsMatch m =
      (p.chooseInternal url skipped).internalsMatch m := by
  rw [revise, if_pos (by simp [hlisted]), setExplicitSkip_of_internal hint]
  cases source with
  | none => rfl
  | some c => exact internalsMatch_force _ g c skipped m

/-- Whether another URL than that of a decided module changes its state at once is a matter of
records alone, unless the globs for modules are edited and in effect. -/
theorem isSkipped_revise_eq_iff (hint : p.isNodeInternal url = true)
    (hmasked : bundles g source = [] → p.builtins = none) :
    (∀ other, ((decide url source skipped).revise g p).isSkipped other = p.isSkipped other) ↔
      ∀ other, p.isNodeInternal other = false → RecordsFor g p url source other →
        p.isSkipped other = skipped := by
  have hbuiltins := (fixed_revise g p (decide url source skipped)).2
  refine forall_congr' fun other => ?_
  have hother := isNodeInternal_revise g p (decide url source skipped) other
  cases hfile : p.isNodeInternal other with
  | false =>
    rw [isSkipped_of_file (hother.trans hfile), isSkipped_of_file hfile,
      fileState_revise_eq_iff hint, forall_prop_of_true rfl]
  | true =>
    refine iff_of_true ?_ (by rintro ⟨⟩)
    rw [isSkipped_of_internal (hother.trans hfile), isSkipped_of_internal hfile, hbuiltins]
    by_cases hlisted : bundles g source = []
    · rw [hmasked hlisted]
      rfl
    · rw [revise, if_neg (by simpa using hlisted)]
      rfl

section

variable (h : p.Lawful) (hc : p.pathCase.isInsensitive = false)
  (hname : IsPlainName (moduleName url)) (hint : p.isNodeInternal url = true)

include h hc hname hint

/-- **When a decision about a module makes no difference**, now or later.  If no bundle lists a
source under the URL, the globs match the name of the module as decided already; and every file for
which the decision is recorded was in the decided state. -/
theorem alike_revise_iff :
    p.Alike ((decide url source skipped).revise g p) ↔
      (bundles g source = [] → p.internalsMatch (moduleName url) = skipped) ∧
        ∀ other, looksInternal other = false → RecordsFor g p url source other →
          p.fileState other = skipped := by
  rw [alike_iff (fixed_revise g p _).2]
  simp only [fileState_revise_eq_iff hint]
  refine and_congr_left fun _ => ?_
  by_cases hlisted : bundles g source = []
  · simp only [internalsMatch_revise hint hlisted, forall_prop_of_true hlisted]
    exact internalsMatch_chooseInternal_eq_iff h hc hname skipped
  · refine iff_of_true (fun m => ?_) fun h => absurd h hlisted
    rw [revise, if_neg (by simpa using hlisted)]
    rfl

/-- What the policy says about the module afterwards, if no bundle lists it. -/
theorem isSkipped_revise_of_internal (hlisted : bundles g source = []) :
    ((decide url source skipped).revise g p).isSkipped url = (p.builtins.isSome && skipped) := by
  have hint' := (isNodeInternal_revise g p (decide url source skipped) url).trans hint
  rw [isSkipped_of_internal hint', (fixed_revise g p _).2, internalsMatch_revise hint hlisted,
    internalsMatch_chooseInternal h hc hname, if_pos (Text.EqUpToCase.refl _)]

end

/-- A decision about a URL that leaves the URL in another state is one about a module, and if no
bundle lists it, the builtin modules are not known. -/
theorem of_isSkipped_revise_ne (h : p.Lawful) (hc : p.pathCase.isInsensitive = false)
    (hurl : IsPlainUrl url) (hname : IsPlainName (moduleName url))
    (hother : ((decide url source skipped).revise g p).isSkipped url = !skipped) :
    p.isNodeInternal url = true ∧ (bundles g source = [] → p.builtins = none) := by
  cases hint : p.isNodeInternal url with
  | false =>
    rw [isSkipped_revise_decide g h hc hurl hint] at hother
    cases skipped <;> cases hother
  | true =>
    refine ⟨rfl, fun hlisted => ?_⟩
    rw [isSkipped_revise_of_internal h hc hname hint hlisted] at hother
    cases hbuiltins : p.builtins with
    | none => rfl
    | some names =>
      rw [hbuiltins] at hother
      cases skipped <;> cases hother

end SkipChange

namespace Skipper
namespace World

variable {w : World} {j j' : JobId} {k : Listener} {s t : Skipper} {keeps : List Listener}
  {c : SkipChange} {url : String} {was : Bool} {o : Outcome}

/-! ## A toggle from its beginning to its end -/

/-- Somebody toggles on a session, carries his decision out, and the runtime answers. -/
def toggleThrough (w : World) (j : JobId) (k : Listener) (request : ToggleRequest)
    (refused : List ScriptId) : World × List Event :=
  w.run [.begin j (.toggle k request), .proceed j [], .proceed j refused]

/-- A toggle has ended and told nobody of a change: it has found nothing, or it has found the file
in the state in which it was before. -/
def EndsSilently (s : Skipper) (j : JobId) (seen : List Event) : Prop :=
  .finished j (.toggled .notFound) ∈ seen ∨
    ∃ url, .finished j (.toggled (.toggled url (s.policy.isSkipped url))) ∈ seen

/-- What comes after a report that need not be made. -/
theorem mem_of_mem_report_append {P : Prop} [Decidable P] {e e' : Event} {rest : List Event}
    (hne : e' ≠ e) (h : e' ∈ (if P then [] else [e]) ++ rest) : e' ∈ rest := by
  split at h
  · exact h
  · exact (List.mem_cons.mp h).resolve_left hne

theorem outcome_of_finished_tell {e : SkipToggled} {outcome : Outcome} {audience : List Listener}
    (h : .finished j' o ∈ (w.tell j keeps e outcome audience).2) : o = outcome := by
  induction audience with
  | nil =>
    cases List.mem_singleton.mp h
    rfl
  | cons k rest ih =>
    rw [tell] at h
    split at h
    · cases List.mem_singleton.mp h
    · exact ih h

/-- A toggle that has been answered reports the state of the file, whomever it has to tell. -/
theorem outcome_of_finished_announce (hs : w.sessions.get? k = some s)
    (h : .finished j' o ∈ (w.goOn j keeps k (.announce url was)).2) :
    o = .toggled (.toggled url (s.policy.isSkipped url)) := by
  simp only [goOn, hs] at h
  split at h
  · cases List.mem_singleton.mp h
    rfl
  · exact outcome_of_finished_tell h

/-- A toggle that has been answered tells nobody if the state is what it was. -/
theorem told_announce_of_eq (hs : w.sessions.get? k = some s)
    (hsame : s.policy.isSkipped url = was) :
    (w.goOn j keeps k (.announce url was)).2.filterMap Event.told? = [] := by
  simp only [goOn, hs, if_pos hsame]
  rfl

/-- A policy stays what it is if nobody has his turn and no builtin modules become known. -/
theorem exists_policy_of_act {a : Action} (hseated : w.Seated) (hopening : ¬ a.IsOpening)
    (hanswer : ∀ reply, a ≠ .answer k reply)
    (hturn : ∀ j refused c s, a = .proceed j refused → ¬ w.Plans j k c s)
    (ht : (w.act a).1.sessions.get? k = some t) :
    ∃ s, w.sessions.get? k = some s ∧ t.policy = s.policy := by
  obtain ⟨s, hs, hdeed⟩ := w.does_take hopening k t (get?_of_act hseated ht)
  refine ⟨s, hs, ?_⟩
  rcases hdeed.policy_cases with hsame | ⟨j, refused, c, ha, hplans, -⟩ | ⟨reply, _, ha, -⟩
  · exact hsame
  · exact absurd hplans (hturn j refused c s ha)
  · exact absurd ha (hanswer reply)

/-- **The end of a toggle.**  The policy is as the toggle finds it, the state in it is reported, and
nobody is told if it is what it was. -/
theorem act_answered (hseated : w.Seated) {batch : RangeBatch} {renews : Bool}
    (hjob : w.jobs.get? j = some ⟨keeps, .ranges k batch renews (.announce url was)⟩)
    (hs : w.sessions.get? k = some s) (refused : List ScriptId) :
    (∀ t, (w.act (.proceed j refused)).1.sessions.get? k = some t → t.policy = s.policy) ∧
    (∀ o, .finished j o ∈ (w.act (.proceed j refused)).2 →
      o = .toggled (.toggled url (s.policy.isSkipped url))) ∧
    (s.policy.isSkipped url = was →
      (w.act (.proceed j refused)).2.filterMap Event.told? = []) := by
  have hleft : (w.update k fun s => (if renews then s.schedule else s).leave).sessions.get? k =
      some (if renews then s.schedule else s).leave := by
    rw [update, Index.get?_modify_self, hs, Option.map_some]
  have hpolicy : (if renews then s.schedule else s).leave.policy = s.policy := by
    cases renews <;> rfl
  have hseen : (w.act (.proceed j refused)).2 =
      (if batch.entries.isEmpty then [] else [.rangesAnswered k batch refused]) ++
        (World.goOn (w.update k fun s => (if renews then s.schedule else s).leave) j keeps k
          (.announce url was)).2 := by
    show (w.proceed j refused).2 = _
    rw [proceed_ranges hjob]
    cases batch.entries.isEmpty <;> rfl
  refine ⟨fun t ht => ?_, fun o ho => ?_, fun hsame => ?_⟩
  · have hturn : ∀ j' refused' c s', Action.proceed j refused = .proceed j' refused' →
        ¬ w.Plans j' k c s' := by
      rintro _ _ c s' ⟨⟩ ⟨⟨_, _, hturn⟩, -, -⟩
      cases hjob.symm.trans hturn
    obtain ⟨s', hs', hpolicy⟩ := exists_policy_of_act hseated id (by simp) hturn ht
    rw [hpolicy, Option.some.inj (hs.symm.trans hs')]
  · rw [hseen] at ho
    rw [← hpolicy]
    exact outcome_of_finished_announce hleft (mem_of_mem_report_append (by rintro ⟨⟩) ho)
  · rw [← hpolicy] at hsame
    rw [hseen, List.filterMap_append, told_announce_of_eq hleft hsame, List.append_nil]
    split <;> rfl

/-- **A decision that is carried out and answered.**  The policy is what comes out of the decision,
the state in it is reported, and nobody is told if it is what it was. -/
theorem run_turn (hin : w.InLine) (hseated : w.Seated)
    (hjob : w.jobs.get? j = some ⟨keeps, .turn k c (.announce url was)⟩)
    (hs : w.sessions.get? k = some s) (hturn : s.isTurnOf j = true) (refused : List ScriptId) :
    let r := w.run [.proceed j [], .proceed j refused]
    let after := c.revise s.graph s.policy
    (∀ t, r.1.sessions.get? k = some t → t.policy = after) ∧
    (∀ o, .finished j o ∈ r.2 → o = .toggled (.toggled url (after.isSkipped url))) ∧
    (after.isSkipped url = was → r.2.filterMap Event.told? = []) := by
  intro r after
  have hplans : w.Plans j k c s := ⟨⟨_, _, hjob⟩, hs, hturn⟩
  have hwaits : (w.act (.proceed j [])).1.jobs.get? j = some ⟨keeps, .ranges k (s.carryOut c).1
      (c.renewsPatterns s.graph) (.announce url was)⟩ := by
    show (w.take (.proceed j [])).1.jobs.get? j = _
    rw [take, proceed_turn hjob hs hturn]
    exact Index.get?_insert_self _ _ _
  have hseats : (w.act (.proceed j [])).1.Seated := (hseated.take (.proceed j [])).reap
  obtain ⟨hpolicy, hreported, htold⟩ :=
    act_answered hseats hwaits (hplans.get?_act hin hseated []) refused
  have hseen : r.2 = (if (s.carryOut c).1.entries.isEmpty then []
      else [.rangesSent k (s.carryOut c).1]) ++
        ((w.act (.proceed j [])).1.act (.proceed j refused)).2 := by
    rw [← hplans.sent [], ← List.append_nil ((w.act (.proceed j [])).1.act _).2]
    rfl
  refine ⟨hpolicy, fun o ho => ?_, fun hsame => ?_⟩
  · rw [hseen] at ho
    exact hreported o (mem_of_mem_report_append (by rintro ⟨⟩) ho)
  · rw [hseen, List.filterMap_append, htold hsame, List.append_nil]
    split <;> rfl

theorem get?_of_reap (hseated : w.Seated) (hs : w.reap.sessions.get? k = some s) :
    w.sessions.get? k = some s := by
  have hfilter : w.reap.sessions.get? k = _ := Index.get?_filter hseated.nodup _ k
  rw [hfilter, Option.filter_eq_some_iff] at hs
  exact hs.1

theorem act_proceed_of_gone (hjob : w.jobs.get? j = none) (refused : List ScriptId) :
    w.act (.proceed j refused) = (w.reap, []) := by
  rw [act, take, proceed, hjob]

/-- A toggle that finds nothing has ended when it began. -/
theorem toggleThrough_of_notFound (hseated : w.Seated) (hs : w.sessions.get? k = some s)
    (hj : w.jobs.contains j = false) {request : ToggleRequest}
    (hrequest : s.resolve? request = none) (refused : List ScriptId) :
    (∀ t, (w.toggleThrough j k request refused).1.sessions.get? k = some t → t.policy = s.policy) ∧
      (w.toggleThrough j k request refused).2 = [.finished j (.toggled .notFound)] := by
  have htake : w.take (.begin j (.toggle k request)) = w.finish j (.toggled .notFound) := by
    rw [take, hj, if_neg Bool.false_ne_true, begin, hs]
    simp only [hrequest]
  have hseats : (w.finish j (.toggled .notFound)).1.Seated :=
    htake ▸ hseated.take (.begin j (.toggle k request))
  have hgone : (w.finish j (.toggled .notFound)).1.reap.jobs.get? j = none :=
    Index.get?_erase_self _ _
  have hgone' : (w.finish j (.toggled .notFound)).1.reap.reap.jobs.get? j = none := hgone
  have hbegun : w.act (.begin j (.toggle k request)) =
      ((w.finish j (.toggled .notFound)).1.reap, [.finished j (.toggled .notFound)]) := by
    rw [act, htake]
    rfl
  have hrun : w.toggleThrough j k request refused =
      ((w.finish j (.toggled .notFound)).1.reap.reap.reap, [.finished j (.toggled .notFound)]) := by
    simp only [toggleThrough, run, runOf, hbegun, act_proceed_of_gone hgone,
      act_proceed_of_gone hgone']
    rfl
  rw [hrun]
  refine ⟨fun t ht => ?_, rfl⟩
  have hkept := get?_of_reap hseats (get?_of_reap hseats.reap (get?_of_reap hseats.reap.reap ht))
  exact congrArg Skipper.policy (Option.some.inj (hkept.symm.trans hs))

/-- A toggle on a session where nobody waits is carried out, and the state in the policy that comes
out of it is reported; if it is what it was, nobody is told. -/
theorem toggleThrough_of_found (hin : w.InLine) (hseated : w.Seated)
    (hs : w.sessions.get? k = some s) (hidle : s.line = []) (hj : w.jobs.contains j = false)
    {request : ToggleRequest} {source : Option Source}
    (hrequest : s.resolve? request = some (url, source)) (refused : List ScriptId) :
    let r := w.toggleThrough j k request refused
    let after := (SkipChange.decide url source !s.policy.isSkipped url).revise s.graph s.policy
    (∀ t, r.1.sessions.get? k = some t → t.policy = after) ∧
    (∀ o, .finished j o ∈ r.2 → o = .toggled (.toggled url (after.isSkipped url))) ∧
    (after.isSkipped url = s.policy.isSkipped url → r.2.filterMap Event.told? = []) := by
  intro r after
  obtain ⟨hjob, hsession, hbegun⟩ := act_begin_toggle hseated hs hj hrequest
  have hlines := (hin.take hseated (.begin j (.toggle k request))).reap
    (hseated.take (.begin j (.toggle k request)))
  have hseats : (w.act (.begin j (.toggle k request))).1.Seated :=
    (hseated.take (.begin j (.toggle k request))).reap
  have hr : r =
      (w.act (.begin j (.toggle k request))).1.run [.proceed j [], .proceed j refused] := by
    show (_, (w.act (.begin j (.toggle k request))).2 ++ _) = _
    rw [hbegun]
    rfl
  rw [hr]
  exact run_turn hlines hseats hjob hsession (isTurnOf_join hidle j) refused

/-- Whoever holds the session still holds it after a toggle. -/
theorem exists_toggleThrough_of_isOwned (hseated : w.Seated) (hs : w.sessions.get? k = some s)
    (hown : s.isOwned = true) (request : ToggleRequest) (refused : List ScriptId) :
    ∃ t, (w.toggleThrough j k request refused).1.sessions.get? k = some t := by
  have hseats₁ := (hseated.take (.begin j (.toggle k request))).reap
  obtain ⟨s₁, hs₁, hown₁⟩ :=
    exists_act_of_isOwned hseated hs hown (a := .begin j (.toggle k request)) (by simp)
  obtain ⟨s₂, hs₂, hown₂⟩ := exists_act_of_isOwned hseats₁ hs₁ hown₁ (a := .proceed j []) (by simp)
  obtain ⟨s₃, hs₃, -⟩ := exists_act_of_isOwned (hseats₁.take (.proceed j [])).reap hs₂ hown₂
    (a := .proceed j refused) (by simp)
  exact ⟨s₃, hs₃⟩

end World

/-- **When a toggle that nobody hears of makes no difference.**  A toggle on a session where nobody
waits ends silently.  Then nobody is told.

If nothing was found, the policy is the same.  In any case it is alike exactly if the globs for
modules match the same names and no URL that can be that of a file is in another state as one.

If a plain URL was found, it is that of a module; and if no bundle lists it, the builtin modules are
not known.  At once the toggle changes nothing exactly if every file for which it was recorded was
in the decided state.  It will never change anything exactly if the same holds of every URL that may
turn out to be that of a file, and if, where no bundle lists the module, the globs matched its name
already. -/
theorem silent_toggle_harmless_iff {w : World} (hw : Reachable w) {j : JobId} {k : Listener}
    {s : Skipper} (hs : w.sessions.get? k = some s) (hidle : s.line = [])
    (hj : w.jobs.contains j = false) {request : ToggleRequest} {refused : List ScriptId}
    (hsilent : World.EndsSilently s j (w.toggleThrough j k request refused).2) :
    let r := w.toggleThrough j k request refused
    (r.2.filterMap Event.told? = [] ∧
      (s.isOwned = true → ∃ t, r.1.sessions.get? k = some t)) ∧
    ∀ t, r.1.sessions.get? k = some t →
      (s.resolve? request = none → t.policy = s.policy) ∧
      (s.policy.Alike t.policy ↔
        (∀ m, t.policy.internalsMatch m = s.policy.internalsMatch m) ∧
        ∀ url, looksInternal url = false → t.policy.fileState url = s.policy.fileState url) ∧
      ∀ url source, s.resolve? request = some (url, source) →
        s.policy.pathCase.isInsensitive = false → IsPlainUrl url →
        IsPlainName (moduleName url) →
        let unlisted := SkipChange.bundles s.graph source = []
        let recorded := SkipChange.RecordsFor s.graph s.policy url source
        (s.policy.isNodeInternal url = true ∧ (unlisted → s.policy.builtins = none)) ∧
        ((∀ other, t.policy.isSkipped other = s.policy.isSkipped other) ↔
          ∀ other, s.policy.isNodeInternal other = false → recorded other →
            s.policy.isSkipped other = !s.policy.isSkipped url) ∧
        (s.policy.Alike t.policy ↔
          (unlisted → s.policy.internalsMatch (moduleName url) = true) ∧
          ∀ other, looksInternal other = false → recorded other →
            s.policy.fileState other = !s.policy.isSkipped url) := by
  intro r
  have hlawful := hw.lawful hs
  have hlives : s.isOwned = true → ∃ t, r.1.sessions.get? k = some t :=
    fun hown => World.exists_toggleThrough_of_isOwned hw.seated hs hown request refused
  cases hfound : s.resolve? request with
  | none =>
    obtain ⟨hpolicy, hseen⟩ :=
      World.toggleThrough_of_notFound hw.seated hs hj hfound refused
    refine ⟨⟨congrArg (List.filterMap Event.told?) hseen, hlives⟩, fun t ht => ?_⟩
    have hsame : t.policy = s.policy := hpolicy t ht
    rw [hsame]
    exact ⟨fun _ => rfl, alike_iff rfl, by rintro _ _ ⟨⟩⟩
  | some found =>
    obtain ⟨url, source⟩ := found
    obtain ⟨hpolicy, hreported, hquiet⟩ :=
      World.toggleThrough_of_found hw.inLine hw.seated hs hidle hj hfound refused
    have hsame : ((SkipChange.decide url source !s.policy.isSkipped url).revise s.graph
        s.policy).isSkipped url = s.policy.isSkipped url := by
      rcases hsilent with hsilent | ⟨url', hsilent⟩
      · cases hreported _ hsilent
      · have hreport := hreported _ hsilent
        simp only [Outcome.toggled.injEq, ToggleOutcome.toggled.injEq] at hreport
        rw [← hreport.2, hreport.1]
    refine ⟨⟨hquiet hsame, hlives⟩, fun t ht => ?_⟩
    have hrevised := hpolicy t ht
    rw [hrevised]
    refine ⟨by rintro ⟨⟩, alike_iff (SkipChange.fixed_revise _ _ _).2, ?_⟩
    rintro _ _ ⟨⟩ hcase hplain hname unlisted recorded
    have hother : ((SkipChange.decide url source !s.policy.isSkipped url).revise s.graph
        s.policy).isSkipped url = !!s.policy.isSkipped url := by rw [hsame, Bool.not_not]
    obtain ⟨hint, hmasked⟩ := SkipChange.of_isSkipped_revise_ne hlawful hcase hplain hname hother
    refine ⟨⟨hint, hmasked⟩, SkipChange.isSkipped_revise_eq_iff hint hmasked, ?_⟩
    rw [SkipChange.alike_revise_iff hlawful hcase hname hint]
    refine and_congr_left fun _ => forall_congr' fun hlisted => ?_
    have hwas : s.policy.isSkipped url = false := by
      rw [isSkipped_of_internal hint, hmasked hlisted]
      rfl
    rw [hwas, Bool.not_false]

/-! ## A module whose name is not known yet -/

/-- A session on a runtime with builtin modules, with these globs for modules. -/
def moduleOpening (target : String) (internals : Option (List String)) : Opening :=
  ⟨⟨target⟩, ⟨"node"⟩, .ofGlobs [] internals .sensitive, .empty, 500, true⟩

/-- Two such sessions of one root have asked for the builtin modules. -/
def inquiring (internals : Option (List String)) : World :=
  (World.start.run [.openSession (moduleOpening "node" internals),
    .openSession (moduleOpening "worker" internals), .inquire ⟨0⟩, .inquire ⟨1⟩]).1

theorem reachable_inquiring (internals : Option (List String)) :
    Reachable (inquiring internals) := by
  refine Reachable.start.run ?_
  simp only [List.forall_mem_cons]
  exact ⟨lawful_ofGlobs _ _ _, lawful_ofGlobs _ _ _, trivial, trivial,
    fun _ h => absurd h List.not_mem_nil⟩

/-- The runtimes answer. -/
def answers : List Action :=
  [.answer ⟨0⟩ (.ok (.array [.string "fs"])), .answer ⟨1⟩ (.ok (.array [.string "fs"]))]

/-- The first of them. -/
def inquirer (internals : Option (List String)) : Skipper :=
  { (moduleOpening "node" internals).skipper ⟨⟨"node"⟩, 1⟩ with discovery := .asked }

/-- Where all modules are skipped as soon as they are known, a toggle before makes no difference. -/
theorem silent_toggle_harmless_iff_all_skipped :
    let r := (inquiring (some ["**"])).toggleThrough ⟨0⟩ ⟨0⟩ (.resource "node:fs") []
    r.2 = [.finished ⟨0⟩ (.toggled (.toggled "node:fs" false))] ∧
    World.EndsSilently (inquirer (some ["**"])) ⟨0⟩ r.2 ∧
    ∃ t, r.1.sessions.get? ⟨0⟩ = some t ∧ (inquirer (some ["**"])).policy.Alike t.policy := by
  intro r
  have hs : (inquiring (some ["**"])).sessions.get? ⟨0⟩ = some (inquirer (some ["**"])) := rfl
  have hseen : r.2 = [.finished ⟨0⟩ (.toggled (.toggled "node:fs" false))] := by decide +kernel
  have hwas : (inquirer (some ["**"])).policy.isSkipped "node:fs" = false := by decide +kernel
  have hsilent : World.EndsSilently (inquirer (some ["**"])) ⟨0⟩ r.2 := by
    refine Or.inr ⟨"node:fs", ?_⟩
    rw [hseen, hwas]
    exact List.mem_singleton_self _
  have hplain : IsPlainUrl "node:fs" := by constructor <;> decide
  have hname : IsPlainName (moduleName "node:fs") := by constructor <;> decide +kernel
  obtain ⟨⟨-, hlives⟩, hafter⟩ :=
    silent_toggle_harmless_iff (reachable_inquiring (some ["**"])) hs rfl rfl hsilent
  obtain ⟨t, ht⟩ := hlives rfl
  obtain ⟨-, -, hfound⟩ := hafter t ht
  refine ⟨hseen, hsilent, t, ht, (hfound "node:fs" none rfl rfl hplain hname).2.2.mpr ⟨?_, ?_⟩⟩
  · decide +kernel
  · rintro other - (⟨hlisted, -⟩ | ⟨-, c, hc, -⟩)
    · exact absurd rfl hlisted
    · cases hc

/-- **A toggle that nobody hears of may come to light later.**  Before the names of the builtin
modules are known a toggle of `node:fs` reports that the state is what it was.  When the names come,
the session skips the module, which it would not do without the toggle, and its sibling does not. -/
theorem silent_toggle_surfaces :
    let w := inquiring none
    let r := w.toggleThrough ⟨0⟩ ⟨0⟩ (.resource "node:fs") []
    r.2 = [.finished ⟨0⟩ (.toggled (.toggled "node:fs" false))] ∧
    (w.stateOf? ⟨0⟩ "node:fs" = some false ∧ r.1.stateOf? ⟨0⟩ "node:fs" = some false) ∧
    (w.run answers).1.stateOf? ⟨0⟩ "node:fs" = some false ∧
    (r.1.run answers).1.stateOf? ⟨0⟩ "node:fs" = some true ∧
    (r.1.run answers).1.stateOf? ⟨1⟩ "node:fs" = some false := by
  refine ⟨rfl, ⟨rfl, rfl⟩, rfl, ?_, rfl⟩
  decide +kernel

end Skipper
end DebugTree
