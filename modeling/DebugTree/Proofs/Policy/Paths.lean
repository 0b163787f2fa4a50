import DebugTree.Proofs.Policy.Backslashes
import DebugTree.Proofs.Policy.Bystanders

/-!
# Choices about the path of a file URL

A file URL is tested under two forms, as it stands and as its decoded path, so a choice about the
path reaches the URL by way of the globs: one of the two forms is now matched or not as chosen
(`testAuthored_setExplicitSkip_path`).  It reaches no further.  The two are recorded under different
keys, so a record for the URL outlives the choice about the path and decides as before; and what
matches the URL as it stands is not touched by an exception for the path
(`isSkipped_setExplicitSkip_path`).
-/

namespace DebugTree
namespace SkipPolicy

variable {p : SkipPolicy} {url path : String}

theorem isPlainUrl_path (hpath : FileUrl.toPath? url = some path) : IsPlainUrl path := by
  obtain ⟨⟨rest, hrest⟩, hback⟩ := FileUrl.toPath?_shape hpath
  refine ⟨?_, hback, ?_⟩
  · rintro rfl
    cases hrest
  · rw [hrest, List.head?_cons]
    decide

variable (hpath : FileUrl.toPath? url = some path)

include hpath

/-- A path is its only spelling. -/
theorem spellings_path : spellings path = [path] := by
  rw [spellings, FileUrl.toPath?_path hpath]
  rfl

theorem isWritable_path {c : PathCase} (hlower : LowersByLetter c url) : IsWritable c path := by
  refine isWritable_of_isPlainUrl (isPlainUrl_path hpath) fun hc t ht => ?_
  rw [spellings_path hpath, List.mem_singleton] at ht
  exact hlower hc t (ht ▸ List.mem_cons_of_mem url (Option.mem_toList.mpr hpath))

/-- The two are recorded under different keys: the one begins with a slash, and the other does
not. -/
theorem normalize_path_ne : p.normalize path ≠ p.normalize url := by
  intro heq
  obtain ⟨⟨rest, hrest⟩, hback⟩ := FileUrl.toPath?_shape hpath
  obtain ⟨t, ht⟩ : ∃ t, (p.normalize path).toList = '/' :: t := by
    rw [normalize, normalizeText, FileUrl.replaceChar_of_notMem hback, String.ofList_toList]
    split
    · rw [Text.lowercase, String.toList_ofList, hrest]
      exact ⟨_, rfl⟩
    · exact ⟨rest, hrest⟩
  exact normalizeText_ne_slash hpath t (heq ▸ ht)

/-- The URL is matched as it stands or as its path. -/
theorem testAuthored_of_path : p.testAuthored url =
    (p.authored.isMatch (p.normalize url) || p.authored.isMatch (p.normalize path)) := by
  rw [testAuthored, matchesEitherForm, hpath, Option.any_some, ← normalize, ← normalize]

variable (hlower : LowersByLetter p.pathCase url) (h : p.Lawful)
  (hfile : p.isNodeInternal path = false) (skipped : Bool)

include hlower h hfile

/-- **A choice about the path** settles one of the two forms under which the URL is tested. -/
theorem testAuthored_setExplicitSkip_path : (p.setExplicitSkip path skipped).testAuthored url =
    (p.authored.isMatch (p.normalize url) || skipped) := by
  have hurl : (p.setExplicitSkip path skipped).authored.isMatch (p.normalize url) =
      p.authored.isMatch (p.normalize url) := by
    rw [setExplicitSkip_of_not_internal hfile]
    refine isMatch_editLiterals h.authored ?_ ?_ skipped _
    · exact fun t ht => no_mark_of_mem_spellings (isPlainUrl_path hpath).no_mark ht
    · rw [spellings_path hpath]
      exact List.forall_mem_singleton.mpr (not_covers_path hpath)
  have hself : (p.setExplicitSkip path skipped).authored.isMatch (p.normalize path) = skipped := by
    have hobeyed := isSkipped_setExplicitSkip_of_isWritable h (isWritable_path hpath hlower) hfile
      skipped
    rw [isSkipped_setExplicitSkip_eq hfile, matchesEitherForm, FileUrl.toPath?_path hpath,
      Option.any_none, Bool.or_false] at hobeyed
    rw [setExplicitSkip_of_not_internal hfile]
    exact hobeyed
  rw [testAuthored_of_path hpath, normalize_setExplicitSkip, normalize_setExplicitSkip, hurl, hself]

/-- **A record for the URL decides as before**; without one, the globs do. -/
theorem isSkipped_setExplicitSkip_path (hfile' : p.isNodeInternal url = false) :
    (p.setExplicitSkip path skipped).isSkipped url =
      (p.overrideFor url).getD (p.authored.isMatch (p.normalize url) || skipped) := by
  rw [isSkipped_of_not_internal (by rw [isNodeInternal_setExplicitSkip, hfile']),
    overrideFor_setExplicitSkip_of_ne hfile skipped (normalize_path_ne hpath),
    testAuthored_setExplicitSkip_path hpath hlower h hfile]

end SkipPolicy
end DebugTree
