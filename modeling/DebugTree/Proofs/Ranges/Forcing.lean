import DebugTree.Proofs.Policy.Explicit
import DebugTree.Proofs.Ranges.Coverage
import DebugTree.Proofs.Source.Descent

/-!
# A source that is decided about as a whole

Whoever skips a source that is not listed by any other, or takes it out, decides about everything
below it as well: the globs are edited for the source, and one state is recorded for every file that
a walk from the source finds, whatever was on record for it.  The walk may come round to the source
where it began and records the same state there, so the edit and the records agree.

As one state is recorded everywhere, no file below differs from the source that lists it, at
any level.  So no level has a range (`forced_spec`).
-/

namespace DebugTree
namespace Ranges

open SkipPolicy SourceGraph

variable {p : SkipPolicy} {g : SourceGraph} {c s : Source} {skipped : Bool}

/-! ## One record after the other -/

theorem forceAll_eq_foldl (p : SkipPolicy) (skipped : Bool)
    (below : List (AuthoredSource × SourceTree)) :
    forceAll p skipped below =
      (listedAll below).foldl (fun q a => q.setOverride a.url skipped) p := by
  induction below using below_induction generalizing p with
  | nil => rw [forceAll, listedAll, List.foldl_nil]
  | seen a s rest ih =>
    rw [forceAll, forceTree, ih, listedAll, listed, List.nil_append, List.foldl_cons]
  | node a s below rest ihbelow ihrest =>
    rw [forceAll, forceTree, ihrest, ihbelow, listedAll, listed, List.foldl_cons,
      List.foldl_append]

theorem force_eq_foldl (p : SkipPolicy) (g : SourceGraph) (c : Source) (skipped : Bool) :
    force p g c skipped =
      (listed (g.walk c)).foldl (fun q a => q.setOverride a.url skipped) p := by
  rw [force]
  cases g.walk c with
  | seen s => rw [forceTree, listed, List.foldl_nil]
  | node s below => rw [forceTree, listed, forceAll_eq_foldl]

/-- The last record under a URL is one of these records, if there is one. -/
theorem overrideFor_foldl_setOverride (p : SkipPolicy) (skipped : Bool)
    (files : List AuthoredSource) (url : String) :
    (files.foldl (fun q a => q.setOverride a.url skipped) p).overrideFor url =
      if ∃ a ∈ files, p.normalize a.url = p.normalize url then some skipped
      else p.overrideFor url := by
  induction files generalizing p with
  | nil => simp
  | cons a files ih =>
    have hnormalize : ∀ url, (p.setOverride a.url skipped).normalize url = p.normalize url :=
      fun _ => rfl
    rw [List.foldl_cons, ih, overrideFor_setOverride]
    simp only [hnormalize, List.exists_mem_cons_iff]
    by_cases hfiles : ∃ b ∈ files, p.normalize b.url = p.normalize url
    · rw [if_pos hfiles, if_pos (Or.inr hfiles)]
    · simp only [hfiles, or_false, if_false]

/-- A file that has none of these records is decided about as before. -/
theorem isSkipped_foldl_setOverride {files : List AuthoredSource} {url : String}
    (hother : ∀ a ∈ files, p.normalize a.url ≠ p.normalize url) (skipped : Bool) :
    (files.foldl (fun q a => q.setOverride a.url skipped) p).isSkipped url = p.isSkipped url := by
  induction files generalizing p with
  | nil => rfl
  | cons a files ih =>
    rw [List.forall_mem_cons] at hother
    rw [List.foldl_cons, ← isSkipped_setOverride_of_ne hother.1 skipped]
    exact ih hother.2

/-! ## Everything below a source -/

/-- A file that is listed by a forced source or below it has the state on record. -/
theorem overrideFor_force_of_mem {a : AuthoredSource} (hs : g.LeadsTo c s)
    (ha : a ∈ g.authoredOf s) (p : SkipPolicy) (skipped : Bool) :
    (force p g c skipped).overrideFor a.url = some skipped := by
  rw [force_eq_foldl, overrideFor_foldl_setOverride, if_pos]
  exact ⟨a, mem_listed_walk_iff.mpr ⟨s, hs, ha⟩, rfl⟩

/-- All other records are as they were. -/
theorem overrideFor_force_of_ne {url : String}
    (h : ∀ s a, g.LeadsTo c s → a ∈ g.authoredOf s → p.normalize a.url ≠ p.normalize url)
    (skipped : Bool) : (force p g c skipped).overrideFor url = p.overrideFor url := by
  rw [force_eq_foldl, overrideFor_foldl_setOverride, if_neg]
  rintro ⟨a, ha, hk⟩
  obtain ⟨s, hs, has⟩ := mem_listed_walk_iff.mp ha
  exact h s a hs has hk

/-- All other files are decided about as before. -/
theorem isSkipped_force_of_ne {url : String}
    (h : ∀ s a, g.LeadsTo c s → a ∈ g.authoredOf s → p.normalize a.url ≠ p.normalize url)
    (skipped : Bool) : (force p g c skipped).isSkipped url = p.isSkipped url := by
  rw [force_eq_foldl]
  refine isSkipped_foldl_setOverride (fun a ha => ?_) skipped
  obtain ⟨s, hs, has⟩ := mem_listed_walk_iff.mp ha
  exact h s a hs has

/-- A script all of whose files are in its own state has no range. -/
theorem compute_of_not_differs (h : ∀ a ∈ g.authoredOf c, ¬ Differs p c a) :
    compute p g c = [] := by
  have hnone : rangesOf p g c (g.authoredOf c) = [] := by
    refine List.eq_nil_iff_forall_not_mem.mpr fun r hr => ?_
    obtain ⟨⟨t, ht, -⟩, -⟩ := hasEnds_of_mem_rangesOf hr
    obtain ⟨a, ha, hdiffers, -⟩ := mem_joined_iff.mp ht
    exact h a ha hdiffers
  rw [compute, spans_eq_rangesOf, hnone]
  rfl

/-! ## A decision about a whole source -/

/-- After an explicit choice about a source, with its state forced on everything below it, all of
them are in the chosen state. -/
theorem isSkipped_force_setExplicitSkip (hp : p.Lawful) (hcase : p.pathCase.isInsensitive = false)
    (hurl : IsPlainUrl c.url) (hfiles : ∀ s, g.LeadsTo c s → p.isNodeInternal s.url = false)
    (skipped : Bool) (hs : g.LeadsTo c s) :
    (force (p.setExplicitSkip c.url skipped) g c skipped).isSkipped s.url = skipped := by
  have hint : (p.setExplicitSkip c.url skipped).isNodeInternal s.url = false := by
    rw [isNodeInternal_setExplicitSkip, hfiles s hs]
  rcases Relation.ReflTransGen.cases_tail hs with rfl | ⟨t, ht, a, ha, rfl⟩
  · have hchosen := isSkipped_setExplicitSkip hp hcase hurl (hfiles s hs) skipped
    exact isSkipped_force_of_eq hint hchosen g s
  · have hrecord := overrideFor_force_of_mem ht ha (p.setExplicitSkip c.url skipped) skipped
    rw [isSkipped_of_not_internal (by rw [isNodeInternal_force, hint])]
    exact congrArg (Option.getD · _) hrecord

/-- **A source that is decided about as a whole leaves no range below it.**  After an explicit
choice about a source, with its state forced on everything below it, the source and all sources that
its source maps lead to are in the chosen state.  The records for URLs of other sources are as they
were.  No source below is a level with ranges. -/
theorem forced_spec (hp : p.Lawful) (hcase : p.pathCase.isInsensitive = false)
    (hurl : IsPlainUrl c.url) (hfiles : ∀ s, g.LeadsTo c s → p.isNodeInternal s.url = false)
    (skipped : Bool) :
    let q := force (p.setExplicitSkip c.url skipped) g c skipped
    (∀ s, g.LeadsTo c s → q.isSkipped s.url = skipped) ∧
    (∀ url, (∀ s, g.LeadsTo c s → p.normalize s.url ≠ p.normalize url) →
      q.overrideFor url = p.overrideFor url) ∧
    ∀ u ∈ collect q g c, u.positions = [] := by
  intro q
  have hskipped : ∀ s, g.LeadsTo c s → q.isSkipped s.url = skipped := fun s hs =>
    isSkipped_force_setExplicitSkip hp hcase hurl hfiles skipped hs
  refine ⟨hskipped, fun url hother => ?_, fun u hu => ?_⟩
  · have hforced : q.overrideFor url = (p.setExplicitSkip c.url skipped).overrideFor url := by
      refine overrideFor_force_of_ne (fun s a hs ha => ?_) skipped
      rw [normalize_setExplicitSkip, normalize_setExplicitSkip]
      exact hother a.source (hs.lists ha)
    have htop : g.LeadsTo c c := Relation.ReflTransGen.refl
    rw [hforced, overrideFor_setExplicitSkip_of_ne (hfiles c htop) skipped (hother c htop)]
  · obtain ⟨d, hd, rfl⟩ := List.mem_map.mp hu
    have hto := leadsTo_of_mem_levels_walk hd
    refine compute_of_not_differs fun a ha => ?_
    have hrecord : q.overrideFor a.url = some skipped := overrideFor_force_of_mem hto ha _ skipped
    rw [Differs, effective, hrecord, hskipped d hto, Option.getD_some]
    exact not_not.mpr rfl

/-! ## Two bundles that list each other -/

/-- A bundle that lists another one. -/
def firstOfRound : AuthoredSource := ⟨⟨1, "/app/out.js"⟩, ⟨9, 0⟩⟩

/-- A bundle that lists a file, and the one that lists it. -/
def secondOfRound : AuthoredSource := ⟨⟨2, "/app/lib/in.js"⟩, ⟨9, 0⟩⟩

/-- The file that the second bundle lists. -/
def fileOfRound : AuthoredSource := ⟨⟨3, "/app/y.ts"⟩, ⟨9, 0⟩⟩

/-- Source maps that lead round in a circle. -/
def circular : SourceGraph :=
  SourceGraph.empty
    |>.addMapped firstOfRound.source secondOfRound ⟨0, 0⟩ ⟨9, 0⟩
    |>.addMapped secondOfRound.source fileOfRound ⟨0, 0⟩ ⟨4, 0⟩
    |>.addMapped secondOfRound.source firstOfRound ⟨5, 0⟩ ⟨9, 0⟩

/-- The directory of the second bundle is skipped, and its file is not. -/
def roundPolicy : SkipPolicy :=
  (SkipPolicy.ofGlobs ["**/lib/**"] none .sensitive).setOverride "/app/y.ts" false

/-- The first bundle is skipped with all that is below it, itself included. -/
theorem forced_spec_circular :
    roundPolicy.Lawful ∧ roundPolicy.pathCase.isInsensitive = false ∧ IsPlainUrl "/app/out.js" ∧
    (∀ s, circular.LeadsTo firstOfRound.source s → roundPolicy.isNodeInternal s.url = false) ∧
    (force (roundPolicy.setExplicitSkip "/app/out.js" true) circular firstOfRound.source
      true).isSkipped "/app/y.ts" = true ∧
    ∀ u ∈ collect (force (roundPolicy.setExplicitSkip "/app/out.js" true) circular
      firstOfRound.source true) circular firstOfRound.source, u.positions = [] := by
  have hlawful : roundPolicy.Lawful := (lawful_ofGlobs _ _ _).setOverride _ _
  have hurl : IsPlainUrl firstOfRound.source.url := by constructor <;> decide
  have hfiles : ∀ s, circular.LeadsTo firstOfRound.source s →
      roundPolicy.isNodeInternal s.url = false := by
    have hall : ∀ entry ∈ circular.authored.entries, ∀ a ∈ entry.2,
        roundPolicy.isNodeInternal a.source.url = false := by decide
    intro s hs
    rcases hs.eq_or_exists_entry with rfl | ⟨entry, hentry, a, ha, rfl⟩
    · decide
    · exact hall entry hentry a ha
  have hsecond : circular.Lists firstOfRound.source secondOfRound.source :=
    ⟨secondOfRound, by decide, rfl⟩
  have hfile : circular.Lists secondOfRound.source fileOfRound.source :=
    ⟨fileOfRound, by decide, rfl⟩
  obtain ⟨hskipped, -, hranges⟩ := forced_spec hlawful rfl hurl hfiles true
  exact ⟨hlawful, rfl, hurl, hfiles,
    hskipped fileOfRound.source ((Relation.ReflTransGen.single hsecond).tail hfile), hranges⟩

end Ranges
end DebugTree
