import DebugTree.Proofs.Policy.Paths
import DebugTree.Proofs.Ranges.Forcing
import DebugTree.Proofs.Skipper.Freshness

/-!
# Files that are named by their path

A toggle may name a file by its URL or by its path.  The name is taken as it stands: it is looked up
among the URLs of loaded sources, and if no source has it, the decision is one about a file that is
not loaded (`resolve?_resource`).  So naming a loaded file by its path is deciding about another
file, which shares its globs with the loaded one.

The globs are all that the decision gets at.  It does not get at the record of the loaded file, nor
at the files below its source, and as there is no source from which on ranges would have to be
computed again, nothing is sent.  When this comes to the same as naming the file by its URL is said
by `toggle_by_path_iff`.  Whether case counts makes no difference, as long as lowering the URL
replaces its letters one by one (`LowersByLetter`).

## The general case

There may be a source that is loaded under the path itself.  Then the decision is one about this
source, and the file goes with it if it is listed below that source (`isSkipped_revise_path`).  The
ranges that are sent are those of sources to which maps lead from there (`get?_carryOut`).
-/

namespace DebugTree

open SkipPolicy

namespace SkipChange

variable {p : SkipPolicy} {url path : String}

/-- The map of a source, or of a source below it, lists a file under this URL. -/
def ListedBelow (g : SourceGraph) (p : SkipPolicy) (source : Option Source) (url : String) : Prop :=
  ∃ c ∈ source, ∃ s a, g.LeadsTo c s ∧ a ∈ g.authoredOf s ∧ p.normalize a.url = p.normalize url

variable (hpath : FileUrl.toPath? url = some path) (hlower : LowersByLetter p.pathCase url)
  (h : p.Lawful) (hfile : p.isNodeInternal url = false) (hfile' : p.isNodeInternal path = false)

include hpath hlower h hfile hfile'

/-- **What a decision about the path does to the URL.**  If a bundle lists the path, nothing.
Otherwise the URL takes the decision over if it is listed below the source of the path; else it goes
by its record, and without one by the edited globs. -/
theorem isSkipped_revise_path (g : SourceGraph) (other : Option Source) (skipped : Bool) :
    ((decide path other skipped).revise g p).isSkipped url = p.isSkipped url ∧
        bundles g other ≠ [] ∨
      ((decide path other skipped).revise g p).isSkipped url = skipped ∧
        bundles g other = [] ∧ ListedBelow g p other url ∨
      ((decide path other skipped).revise g p).isSkipped url =
          (p.overrideFor url).getD (p.authored.isMatch (p.normalize url) || skipped) ∧
        bundles g other = [] ∧ ¬ ListedBelow g p other url := by
  have hchosen := isSkipped_setExplicitSkip_path hpath hlower h hfile' skipped hfile
  by_cases hlisted : bundles g other = []
  · rw [revise, if_pos (by simp [hlisted])]
    by_cases hbelow : ListedBelow g p other url
    · obtain ⟨c, rfl, s, a, hs, ha, heq⟩ := id hbelow
      refine Or.inr (Or.inl ⟨?_, hlisted, hbelow⟩)
      have hint : (Ranges.force (p.setExplicitSkip path skipped) g c skipped).isNodeInternal url =
          false := by rw [Ranges.isNodeInternal_force, isNodeInternal_setExplicitSkip, hfile]
      have hkey : (Ranges.force (p.setExplicitSkip path skipped) g c skipped).normalize a.url =
          (Ranges.force (p.setExplicitSkip path skipped) g c skipped).normalize url := by
        simpa only [Ranges.normalize_force, normalize_setExplicitSkip] using heq
      simp only [isSkipped_of_not_internal hint]
      rw [← overrideFor_congr hkey, Ranges.overrideFor_force_of_mem hs ha, Option.getD_some]
    · refine Or.inr (Or.inr ⟨?_, hlisted, hbelow⟩)
      cases other with
      | none => exact hchosen
      | some c =>
        refine (Ranges.isSkipped_force_of_ne (fun s a hs ha heq => hbelow ?_) skipped).trans hchosen
        rw [normalize_setExplicitSkip, normalize_setExplicitSkip] at heq
        exact ⟨c, rfl, s, a, hs, ha, heq⟩
  · refine Or.inl ⟨?_, hlisted⟩
    rw [revise, if_neg (by simpa using hlisted)]
    exact isSkipped_setOverride_of_ne (normalize_path_ne hpath) skipped

/-- **When turning the path turns the URL.**  No bundle lists the path, path and URL are in the same
state, and the URL is listed below the source of the path, or else it has no record and is not
matched as it stands. -/
theorem isSkipped_revise_path_iff (g : SourceGraph) (other : Option Source) :
    ((decide path other !p.isSkipped path).revise g p).isSkipped url = (!p.isSkipped url) ↔
      bundles g other = [] ∧ p.isSkipped path = p.isSkipped url ∧
        (ListedBelow g p other url ∨
          p.overrideFor url = none ∧ p.authored.isMatch (p.normalize url) = false) := by
  rcases isSkipped_revise_path hpath hlower h hfile hfile' g other (!p.isSkipped path) with
    ⟨hafter, hlisted⟩ | ⟨hafter, hfree, hbelow⟩ | ⟨hafter, hfree, hbelow⟩
  · rw [hafter]
    exact iff_of_false (by simp) fun hall => hlisted hall.1
  · rw [hafter, Bool.not_inj_iff]
    exact ⟨fun heq => ⟨hfree, heq, Or.inl hbelow⟩, fun hall => hall.2.1⟩
  · rw [hafter, or_iff_right hbelow, isSkipped_of_not_internal hfile,
      testAuthored_of_path hpath]
    cases p.overrideFor url with
    | some v => simp
    | none =>
      cases p.authored.isMatch (p.normalize url) <;> simp [hfree]

end SkipChange

namespace Skipper

/-- A name stands for itself, whether or not a source is loaded under it. -/
theorem resolve?_resource (s : Skipper) (name : String) :
    s.resolve? (.resource name) = some (name, s.graph.sourceByUrl? name) := by
  cases hsource : s.graph.sourceByUrl? name with
  | none => simp only [resolve?, hsource]
  | some source =>
    have hurl : source.url = name := by simpa using List.find?_some hsource
    simp only [resolve?, hsource, hurl]

namespace World

variable {w : World} {j : JobId} {k : Listener} {s : Skipper}

/-- What a session that is alive decides about a URL. -/
def stateOf? (w : World) (k : Listener) (url : String) : Option Bool :=
  (w.sessions.get? k).map fun s => s.policy.isSkipped url

/-- Somebody toggles a file on a session, and carries his decision out. -/
def toggleNow (w : World) (j : JobId) (k : Listener) (name : String) : World × List Event :=
  w.run [.begin j (.toggle k (.resource name)), .proceed j []]

/-- The decision that a toggle brings to a session. -/
def turning (s : Skipper) (name : String) : SkipChange :=
  .decide name (s.graph.sourceByUrl? name) !s.policy.isSkipped name

/-- A toggle that finds something joins the line of the session, and nothing is seen of it. -/
theorem act_begin_toggle (hseated : w.Seated) (hs : w.sessions.get? k = some s)
    (hj : w.jobs.contains j = false) {request : Protocol.ToggleRequest} {url : String}
    {source : Option Source} (hrequest : s.resolve? request = some (url, source)) :
    (w.act (.begin j (.toggle k request))).1.jobs.get? j =
        some ⟨[k], .turn k (.decide url source !s.policy.isSkipped url)
          (.announce url (s.policy.isSkipped url))⟩ ∧
      (w.act (.begin j (.toggle k request))).1.sessions.get? k = some (s.join j) ∧
      (w.act (.begin j (.toggle k request))).2 = [] := by
  have htake : w.take (.begin j (.toggle k request)) =
      (w.bring j [k] k (.decide url source !s.policy.isSkipped url)
        (.announce url (s.policy.isSkipped url)), []) := by
    rw [take, hj, if_neg Bool.false_ne_true, begin, hs]
    simp only [hrequest]
  refine ⟨?_, ?_, congrArg Prod.snd htake⟩
  · show (w.take (.begin j (.toggle k request))).1.jobs.get? j = _
    rw [htake]
    exact Index.get?_insert_self _ _ _
  · refine get?_act_of_isKept hseated ?_ ?_ <;> rw [htake]
    · exact (Index.get?_modify_self _ _ _).trans (by rw [hs]; rfl)
    · exact isKept_of_mem_keeps (Index.get?_insert_self _ _ _) (List.mem_singleton_self k) _

/-- Whoever joins a line in which nobody waits has his turn. -/
theorem isTurnOf_join (hidle : s.line = []) (j : JobId) : (s.join j).isTurnOf j = true := by
  simp [isTurnOf, join, hidle]

/-- A toggle has its turn at once on a session where nobody waits. -/
theorem plans_of_toggle (hseated : w.Seated) (hs : w.sessions.get? k = some s)
    (hidle : s.line = []) (hj : w.jobs.contains j = false) (name : String) :
    (w.act (.begin j (.toggle k (.resource name)))).1.Plans j k (turning s name) (s.join j) ∧
      (w.act (.begin j (.toggle k (.resource name)))).2 = [] := by
  obtain ⟨hjob, hsession, hbegun⟩ := act_begin_toggle hseated hs hj (s.resolve?_resource name)
  exact ⟨⟨⟨_, _, hjob⟩, hsession, isTurnOf_join hidle j⟩, hbegun⟩

/-- **A toggle on a session where nobody waits** is carried out at once, and its batch is sent
unless it is empty. -/
theorem toggleNow_spec (hin : w.InLine) (hseated : w.Seated) (hs : w.sessions.get? k = some s)
    (hidle : s.line = []) (hj : w.jobs.contains j = false) (name : String) :
    (∃ t, (w.toggleNow j k name).1.sessions.get? k = some t ∧
      t.policy = (turning s name).revise s.graph s.policy) ∧
    sentTo k (w.toggleNow j k name).2 =
      if (s.carryOut (turning s name)).1.entries.isEmpty then []
      else [(s.carryOut (turning s name)).1] := by
  obtain ⟨hplans, hbegun⟩ := plans_of_toggle hseated hs hidle hj name
  have hlines := hin.take hseated (.begin j (.toggle k (.resource name)))
  have hseats := hseated.take (.begin j (.toggle k (.resource name)))
  refine ⟨⟨_, hplans.get?_act (hlines.reap hseats) hseats.reap [], rfl⟩, ?_⟩
  have hsent : (w.toggleNow j k name).2 = if (s.carryOut (turning s name)).1.entries.isEmpty then []
      else [.rangesSent k (s.carryOut (turning s name)).1] := by
    show (w.act (.begin j (.toggle k (.resource name)))).2 ++
      (((w.act (.begin j (.toggle k (.resource name)))).1.proceed j []).2 ++ []) = _
    rw [hbegun, List.nil_append, List.append_nil]
    exact hplans.sent []
  rw [hsent]
  split
  · rfl
  · exact List.filterMap_cons_some (if_pos rfl)

/-- Nothing is sent for a file that is not loaded. -/
theorem entries_carryOut_of_unloaded {name : String}
    (hunloaded : s.graph.sourceByUrl? name = none) :
    (s.carryOut (turning s name)).1.entries = [] := by
  rw [carryOut, turning, hunloaded]
  rfl

/-- What a change sends is the ranges of sources that can be reached from those from which on it
computes them. -/
theorem get?_carryOut {c : SkipChange} {x : ScriptId} {ps : List Position}
    (hx : (s.carryOut c).1.get? x = some ps) :
    ∃ a ∈ c.origins s.graph, ∃ t, s.graph.LeadsTo a t ∧ x ∈ s.graph.scriptsOf t ∧
      ps = Ranges.compute (c.revise s.graph s.policy) s.graph t := by
  have hcalls := RangePlan.comesOf_ofUpdates s.graph s.skipping
    (c.updates s.graph (c.revise s.graph s.policy))
  obtain ⟨u, hu, hscript, rfl⟩ := RangePlan.mem_calls_iff.mp (hcalls.sent x ps hx).1
  obtain ⟨a, ha, hlevel, hpositions⟩ := SkipChange.mem_updates_iff.mp hu
  exact ⟨a, ha, u.source, SourceGraph.leadsTo_of_mem_levels_walk hlevel, hscript, hpositions⟩

/-- Batches are told apart by what is sent of them. -/
theorem ite_isEmpty_eq_iff (b b' : RangeBatch) :
    (if b.entries.isEmpty then [] else [b]) = (if b'.entries.isEmpty then [] else [b']) ↔
      b = b' := by
  refine ⟨fun heq => ?_, fun heq => heq ▸ rfl⟩
  obtain ⟨entries⟩ := b
  obtain ⟨entries'⟩ := b'
  cases entries <;> cases entries' <;> simp_all

end World

/-- **When a path is as good as a URL.**  On a session where nobody waits, a toggle of a loaded file
by its URL turns its state.  A toggle by its path does the same to this state exactly if no bundle
lists a source under the path, path and URL are in the same state, and the file is listed below the
source of the path, or else nothing is recorded for the file and no glob matches its URL as it
stands.

The two send the same exactly if they come to the same batch.  What a toggle by path sends is ranges
of sources below the source of the path, or below the bundles that list this source; the source of
the URL is none of these unless source maps lead to it.  If no source is loaded under the path,
nothing is sent, and so the two send the same exactly if a toggle by URL sends nothing either. -/
theorem toggle_by_path_iff {w : World} (hw : Reachable w) {j : JobId} {k : Listener} {s : Skipper}
    (hs : w.sessions.get? k = some s) (hidle : s.line = []) (hj : w.jobs.contains j = false)
    {source : Source} {path : String} (hsource : s.graph.sourceByUrl? source.url = some source)
    (hpath : FileUrl.toPath? source.url = some path) (hplain : IsPlainUrl source.url)
    (hlower : LowersByLetter s.policy.pathCase source.url)
    (hfile : s.policy.isNodeInternal source.url = false)
    (hfile' : s.policy.isNodeInternal path = false) :
    let byUrl := w.toggleNow j k source.url
    let byPath := w.toggleNow j k path
    let other := s.graph.sourceByUrl? path
    byUrl.1.stateOf? k source.url = some (!s.policy.isSkipped source.url) ∧
    (byPath.1.stateOf? k source.url = byUrl.1.stateOf? k source.url ↔
      SkipChange.bundles s.graph other = [] ∧
        s.policy.isSkipped path = s.policy.isSkipped source.url ∧
        (SkipChange.ListedBelow s.graph s.policy other source.url ∨
          s.policy.overrideFor source.url = none ∧
            s.policy.authored.isMatch (s.policy.normalize source.url) = false)) ∧
    (sentTo k byPath.2 = sentTo k byUrl.2 ↔
      (s.carryOut (World.turning s path)).1 = (s.carryOut (World.turning s source.url)).1) ∧
    (∀ batch ∈ sentTo k byPath.2, ∀ x ps, batch.get? x = some ps →
      ∃ a ∈ (World.turning s path).origins s.graph, ∃ t, s.graph.LeadsTo a t ∧
        x ∈ s.graph.scriptsOf t ∧
        ps = Ranges.compute ((World.turning s path).revise s.graph s.policy) s.graph t) ∧
    (other = none → sentTo k byPath.2 = [] ∧
      (sentTo k byPath.2 = sentTo k byUrl.2 ↔
        (s.carryOut (World.turning s source.url)).1.entries = [])) := by
  intro byUrl byPath other
  have hlawful := hw.lawful hs
  obtain ⟨⟨t, ht, hturned⟩, hsent⟩ :=
    World.toggleNow_spec hw.inLine hw.seated hs hidle hj source.url
  obtain ⟨⟨t', ht', hturned'⟩, hsent'⟩ := World.toggleNow_spec hw.inLine hw.seated hs hidle hj path
  have hurl : byUrl.1.stateOf? k source.url = some (!s.policy.isSkipped source.url) := by
    rw [World.stateOf?, ht, Option.map_some, hturned, World.turning, hsource]
    exact congrArg some (SkipChange.isSkipped_revise_decide_of_isWritable s.graph hlawful
      (isWritable_of_isPlainUrl hplain hlower) hfile _ _)
  refine ⟨hurl, ?_, ?_, fun batch hbatch x ps hx => ?_, fun hunloaded => ?_⟩
  · rw [hurl, World.stateOf?, ht', Option.map_some, hturned', Option.some_inj, World.turning]
    exact SkipChange.isSkipped_revise_path_iff hpath hlower hlawful hfile hfile' s.graph other
  · rw [hsent, hsent']
    exact World.ite_isEmpty_eq_iff _ _
  · rw [hsent'] at hbatch
    split at hbatch
    · cases hbatch
    · exact World.get?_carryOut (List.mem_singleton.mp hbatch ▸ hx)
  · have hnone : sentTo k byPath.2 = [] := by
      rw [hsent', World.entries_carryOut_of_unloaded hunloaded]
      rfl
    refine ⟨hnone, ?_⟩
    rw [hnone, hsent, eq_comm, ite_eq_left_iff, ← List.isEmpty_iff]
    simp

/-! ## A file of a script -/

/-- A script that bundles one file. -/
def packed : SourceGraph :=
  (SourceGraph.empty.addScript ⟨1, "file:///app/a.js"⟩ ⟨"10"⟩).addMapped ⟨1, "file:///app/a.js"⟩
    ⟨⟨3, "file:///app/lib.ts"⟩, ⟨9, 0⟩⟩ .start ⟨9, 0⟩

/-- A session loads the script. -/
def unpacking : List Action :=
  [.openSession ⟨⟨"page"⟩, ⟨"page"⟩, lenient, packed, 500, false⟩,
    .begin ⟨0⟩ (.load ⟨0⟩ ⟨1, "file:///app/a.js"⟩), .proceed ⟨0⟩ [], .proceed ⟨0⟩ []]

theorem reachable_unpacking (n : Nat) : Reachable (World.start.before unpacking n) := by
  refine Reachable.start.run fun a ha => ?_
  have hmem := List.mem_of_mem_take ha
  simp only [unpacking, List.mem_cons, List.not_mem_nil, or_false] at hmem
  rcases hmem with rfl | rfl | rfl | rfl
  · exact lawful_ofGlobs _ _ _
  all_goals trivial

/-- The paths of the script and of its file. -/
theorem toPath?_packed :
    FileUrl.toPath? "file:///app/a.js" = some "/app/a.js" ∧
      FileUrl.toPath? "file:///app/lib.ts" = some "/app/lib.ts" := by
  decide +kernel

theorem walk_packed : packed.walk ⟨1, "file:///app/a.js"⟩ = .node ⟨1, "file:///app/a.js"⟩
    [(⟨⟨3, "file:///app/lib.ts"⟩, ⟨9, 0⟩⟩, .node ⟨3, "file:///app/lib.ts"⟩ [])] := by
  cbv

theorem collect_packed (p : SkipPolicy) : Ranges.collect p packed ⟨1, "file:///app/a.js"⟩ =
    [⟨⟨1, "file:///app/a.js"⟩, Ranges.compute p packed ⟨1, "file:///app/a.js"⟩⟩] := by
  rw [Ranges.collect, walk_packed]
  rfl

theorem isMatch_lenient (text : String) : lenient.authored.isMatch text = false :=
  rfl

theorem isSkipped_lenient {url : String} (hfile : lenient.isNodeInternal url = false) :
    lenient.isSkipped url = false := by
  have hrecord : lenient.overrideFor url = none := rfl
  rw [SkipPolicy.isSkipped_of_not_internal hfile, hrecord, Option.getD_none,
    SkipPolicy.testAuthored, SkipPolicy.matchesEitherForm, isMatch_lenient, Bool.false_or]
  cases FileUrl.toPath? url with
  | none => rfl
  | some path => exact isMatch_lenient _

/-- The session as it has opened. -/
theorem exists_opened : ∃ s, (World.start.before unpacking 1).sessions.get? ⟨0⟩ = some s ∧
    s.line = [] ∧ s.policy = lenient ∧ s.graph = packed ∧ s.skipping = [] :=
  ⟨_, rfl, rfl, rfl, rfl, rfl⟩

/-- The policy once the script is loaded. -/
def unpacked : SkipPolicy :=
  lenient.setOverride "file:///app/lib.ts" false

/-- The session once the script is loaded. -/
theorem exists_unpacked : ∃ s, (World.start.before unpacking 4).sessions.get? ⟨0⟩ = some s ∧
    s.line = [] ∧ s.policy = unpacked ∧ s.graph = packed := by
  have hpropagate : Ranges.propagate lenient packed ⟨1, "file:///app/a.js"⟩ = unpacked := by
    rw [Ranges.propagate, walk_packed]
    rfl
  exact ⟨_, rfl, rfl, hpropagate, rfl⟩

/-- There are no ranges where the file agrees with its script; where it alone is skipped, they cover
the whole script. -/
theorem compute_packed :
    Ranges.compute ((lenient.setExplicitSkip "file:///app/a.js" true).setOverride
        "file:///app/lib.ts" true) packed ⟨1, "file:///app/a.js"⟩ = [] ∧
      Ranges.compute (unpacked.setOverride "file:///app/lib.ts" true) packed
        ⟨1, "file:///app/a.js"⟩ = [⟨0, 0⟩, ⟨9, 0⟩] := by
  decide +kernel

/-- The whole script is skipped with its file, so there are no ranges to send. -/
theorem entries_carryOut_opened {s : Skipper} (hpolicy : s.policy = lenient)
    (hgraph : s.graph = packed) (hskipping : s.skipping = []) :
    (s.carryOut (World.turning s "file:///app/a.js")).1.entries = [] := by
  have hwas : lenient.isSkipped "file:///app/a.js" = false := isSkipped_lenient (by decide)
  have hsource : packed.sourceByUrl? "file:///app/a.js" = some ⟨1, "file:///app/a.js"⟩ := by decide
  have hroot : SkipChange.bundles packed (some ⟨1, "file:///app/a.js"⟩) = [] := by decide
  have hforce : ∀ p : SkipPolicy, Ranges.force p packed ⟨1, "file:///app/a.js"⟩ true =
      p.setOverride "file:///app/lib.ts" true := by
    intro p
    rw [Ranges.force, walk_packed]
    rfl
  rw [carryOut, World.turning, hgraph, hpolicy, hskipping, hwas, hsource]
  simp only [SkipChange.revise, SkipChange.updates, SkipChange.origins, hroot, List.isEmpty_nil,
    if_true, Option.toList_some, List.flatMap_cons, List.flatMap_nil, hforce, collect_packed,
    compute_packed.1, Bool.not_false]
  rfl

/-- The script itself, which no map lists and for which nothing is recorded, may be named by its
path. -/
theorem toggle_by_path_iff_script :
    ((World.start.before unpacking 1).toggleNow ⟨1⟩ ⟨0⟩ "/app/a.js").1.stateOf? ⟨0⟩
        "file:///app/a.js" = some true ∧
      ((World.start.before unpacking 1).toggleNow ⟨1⟩ ⟨0⟩ "file:///app/a.js").1.stateOf? ⟨0⟩
        "file:///app/a.js" = some true ∧
      sentTo ⟨0⟩ ((World.start.before unpacking 1).toggleNow ⟨1⟩ ⟨0⟩ "/app/a.js").2 =
        sentTo ⟨0⟩ ((World.start.before unpacking 1).toggleNow ⟨1⟩ ⟨0⟩ "file:///app/a.js").2 := by
  obtain ⟨s, hs, hidle, hpolicy, hgraph, hskipping⟩ := exists_opened
  have hfree : (World.start.before unpacking 1).jobs.contains ⟨1⟩ = false := rfl
  have hsource : s.graph.sourceByUrl? (Source.mk 1 "file:///app/a.js").url =
      some (Source.mk 1 "file:///app/a.js") := by rw [hgraph]; decide
  have hplain : IsPlainUrl "file:///app/a.js" := by constructor <;> decide
  have hlower : LowersByLetter s.policy.pathCase "file:///app/a.js" :=
    lowersByLetter_of_sensitive (by rw [hpolicy]; rfl) _
  obtain ⟨hurl, hstate, -, -, hranges⟩ := toggle_by_path_iff (reachable_unpacking 1) hs hidle hfree
    hsource toPath?_packed.1 hplain hlower (by rw [hpolicy]; decide) (by rw [hpolicy]; decide)
  have hunloaded : s.graph.sourceByUrl? "/app/a.js" = none := by rw [hgraph]; decide
  have hwas : s.policy.isSkipped "file:///app/a.js" = false := by
    rw [hpolicy]
    exact isSkipped_lenient (by decide)
  have hwas' : s.policy.isSkipped "/app/a.js" = false := by
    rw [hpolicy]
    exact isSkipped_lenient (by decide)
  have hglobs : s.policy.overrideFor "file:///app/a.js" = none ∧
      s.policy.authored.isMatch (s.policy.normalize "file:///app/a.js") = false := by
    rw [hpolicy]
    exact ⟨rfl, isMatch_lenient _⟩
  rw [hwas] at hurl
  have hroot : SkipChange.bundles s.graph (s.graph.sourceByUrl? "/app/a.js") = [] := by
    rw [hunloaded]
    rfl
  have hpathState := hstate.mpr ⟨hroot, hwas'.trans hwas.symm, Or.inr hglobs⟩
  have hbatch := entries_carryOut_opened hpolicy hgraph hskipping
  exact ⟨hpathState.trans hurl, hurl, (hranges hunloaded).2.mpr hbatch⟩

theorem sourceByUrl?_packed :
    packed.sourceByUrl? "file:///app/lib.ts" = some ⟨3, "file:///app/lib.ts"⟩ ∧
      packed.sourceByUrl? "/app/lib.ts" = none := by
  decide

/-- The decision about the file that is named by its URL is recorded. -/
theorem revise_turning_unpacked {s : Skipper} (hpolicy : s.policy = unpacked)
    (hgraph : s.graph = packed) : (World.turning s "file:///app/lib.ts").revise s.graph s.policy =
      unpacked.setOverride "file:///app/lib.ts" true := by
  have hwas : unpacked.isSkipped "file:///app/lib.ts" = false :=
    SkipPolicy.isSkipped_setOverride_self (by decide) false
  have hbundles : SkipChange.bundles packed (some ⟨3, "file:///app/lib.ts"⟩) =
      [⟨1, "file:///app/a.js"⟩] := by decide
  rw [World.turning, hgraph, hpolicy, sourceByUrl?_packed.1, SkipChange.revise, hbundles, hwas]
  rfl

/-- The ranges of the script follow. -/
theorem batch_carryOut_unpacked {s : Skipper} (hpolicy : s.policy = unpacked)
    (hgraph : s.graph = packed) : (s.carryOut (World.turning s "file:///app/lib.ts")).1 =
      ⟨[(⟨"10"⟩, [⟨0, 0⟩, ⟨9, 0⟩])]⟩ := by
  have hbundles : SkipChange.bundles packed (some ⟨3, "file:///app/lib.ts"⟩) =
      [⟨1, "file:///app/a.js"⟩] := by decide
  rw [carryOut, revise_turning_unpacked hpolicy hgraph, World.turning, hgraph,
    sourceByUrl?_packed.1, SkipChange.updates, SkipChange.origins, hbundles]
  simp only [List.isEmpty_cons, Bool.false_eq_true, if_false, List.flatMap_cons, List.flatMap_nil,
    collect_packed, compute_packed.2]
  rfl

/-- The decision about the path leaves the file out, as there is a record for it. -/
theorem isSkipped_turning_unpacked {s : Skipper} (hpolicy : s.policy = unpacked)
    (hgraph : s.graph = packed) : ((World.turning s "/app/lib.ts").revise s.graph
      s.policy).isSkipped "file:///app/lib.ts" = false := by
  have hlawful : unpacked.Lawful := (lawful_ofGlobs _ _ _).setOverride _ false
  have hrecord : unpacked.overrideFor "file:///app/lib.ts" = some false :=
    (SkipPolicy.overrideFor_setOverride _ _).trans (if_pos rfl)
  rw [World.turning, hgraph, hpolicy, sourceByUrl?_packed.2]
  refine (SkipPolicy.isSkipped_setExplicitSkip_path toPath?_packed.2
    (lowersByLetter_of_sensitive rfl _) hlawful (by decide) _ (by decide)).trans ?_
  rw [hrecord, Option.getD_some]

/-- **A file of a bundle has to be named by its URL.**  Its state is on record since the script was
loaded, so a toggle by its path has no effect on the file, and no ranges are sent; a toggle by its
URL turns its state, and the ranges of the script are sent. -/
theorem path_misses_listed_file :
    FileUrl.toPath? "file:///app/lib.ts" = some "/app/lib.ts" ∧
    (∃ s, (World.start.before unpacking 4).sessions.get? ⟨0⟩ = some s ∧ s.line = [] ∧
      s.graph.sourceByUrl? "file:///app/lib.ts" = some ⟨3, "file:///app/lib.ts"⟩ ∧
      s.policy.isNodeInternal "file:///app/lib.ts" = false ∧
      s.policy.isNodeInternal "/app/lib.ts" = false) ∧
    (((World.start.before unpacking 4).toggleNow ⟨1⟩ ⟨0⟩ "file:///app/lib.ts").1.stateOf? ⟨0⟩
        "file:///app/lib.ts" = some true ∧
      sentTo ⟨0⟩ ((World.start.before unpacking 4).toggleNow ⟨1⟩ ⟨0⟩ "file:///app/lib.ts").2 =
        [⟨[(⟨"10"⟩, [⟨0, 0⟩, ⟨9, 0⟩])]⟩]) ∧
    ((World.start.before unpacking 4).toggleNow ⟨1⟩ ⟨0⟩ "/app/lib.ts").1.stateOf? ⟨0⟩
        "file:///app/lib.ts" = some false ∧
      sentTo ⟨0⟩ ((World.start.before unpacking 4).toggleNow ⟨1⟩ ⟨0⟩ "/app/lib.ts").2 = [] := by
  obtain ⟨s, hs, hidle, hpolicy, hgraph⟩ := exists_unpacked
  have hw := reachable_unpacking 4
  have hspec := World.toggleNow_spec hw.inLine hw.seated hs hidle
    (rfl : (World.start.before unpacking 4).jobs.contains ⟨1⟩ = false)
  refine ⟨toPath?_packed.2, ⟨s, hs, hidle, hgraph ▸ sourceByUrl?_packed.1, ?_, ?_⟩, ?_, ?_⟩
  · rw [hpolicy]
    decide
  · rw [hpolicy]
    decide
  · obtain ⟨⟨t, ht, hturned⟩, hsent⟩ := hspec "file:///app/lib.ts"
    refine ⟨?_, ?_⟩
    · rw [World.stateOf?, ht, Option.map_some, hturned, revise_turning_unpacked hpolicy hgraph]
      exact congrArg some (isSkipped_setOverride_self (by decide) true)
    · rw [hsent, batch_carryOut_unpacked hpolicy hgraph]
      rfl
  · obtain ⟨⟨t, ht, hturned⟩, hsent⟩ := hspec "/app/lib.ts"
    refine ⟨?_, ?_⟩
    · rw [World.stateOf?, ht, Option.map_some, hturned, isSkipped_turning_unpacked hpolicy hgraph]
    · rw [hsent, World.entries_carryOut_of_unloaded (hgraph ▸ sourceByUrl?_packed.2)]
      rfl

end Skipper
end DebugTree
