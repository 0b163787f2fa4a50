import DebugTree.Proofs.Glob.Folding
import DebugTree.Proofs.Policy.Bystanders
import DebugTree.Proofs.Policy.Kept

/-!
# Policies that decide alike

Two policies may decide the same about every URL today and not tomorrow.  As long as the builtin
modules are not known, the globs for modules have no effect, and a URL may be taken for that of a
file that turns out to be that of a module.  Policies are *alike* if they decide the same now and
will do so whichever builtin modules become known.

This is what can be seen from outside.  What it comes to inside is said by `alike_iff`: the globs
for modules match the same names, and the same is said about every URL that can be that of a file.

## A choice about a module

A choice about a module edits the globs for modules and nothing else.  The name and what is equal to
it up to case are matched afterwards as chosen, everything else as before
(`internalsMatch_chooseInternal`).  Globs do not regard case, so the edit is without effect exactly
if the name was matched as chosen already.
-/

namespace DebugTree

open Glob
open Text (EqUpToCase)

/-- The name can be written as an entry of a list of globs, and stands for itself there. -/
structure IsPlainName (name : String) : Prop where
  ne_empty : name ≠ ""
  no_star : '*' ∉ name.toList
  no_mark : name.toList.head? ≠ some '!'

namespace SkipPolicy

variable {p q : SkipPolicy} {url m : String} {skipped : Bool}

/-! ## What a decision is made of -/

/-- The URL is that of a module by its looks, whichever builtin modules there are. -/
def looksInternal (url : String) : Bool :=
  (Text.stripPrefix? nodeScheme.toList url.toList).isSome || internalModule.accepts id url.toList

/-- What the policy says about a URL if that is the URL of a file. -/
def fileState (p : SkipPolicy) (url : String) : Bool :=
  (p.overrideFor url).getD (p.testAuthored url)

theorem isNodeInternal_eq_or (p : SkipPolicy) (url : String) :
    p.isNodeInternal url = (looksInternal url || p.builtins.any (·.contains url)) :=
  rfl

theorem testNodeInternal_eq_and (p : SkipPolicy) (url : String) :
    p.testNodeInternal url = (p.builtins.isSome && p.internalsMatch (moduleName url)) :=
  rfl

theorem isSkipped_of_internal (h : p.isNodeInternal url = true) :
    p.isSkipped url = (p.builtins.isSome && p.internalsMatch (moduleName url)) := by
  rw [isSkipped, if_pos h, testNodeInternal_eq_and]

theorem isSkipped_of_file (h : p.isNodeInternal url = false) : p.isSkipped url = p.fileState url :=
  isSkipped_of_not_internal h

theorem looksInternal_append (m : String) : looksInternal (nodeScheme ++ m) = true := by
  have hstrip : Text.stripPrefix? nodeScheme.toList (nodeScheme ++ m).toList = some m.toList :=
    Text.stripPrefix?_eq_some.mpr String.toList_append
  rw [looksInternal, hstrip]
  rfl

theorem fileState_setOverride (other : String) : (p.setOverride other skipped).fileState url =
    if p.normalize other = p.normalize url then skipped else p.fileState url := by
  rw [fileState, overrideFor_setOverride]
  split <;> rfl

/-! ## Alike -/

/-- The policies decide the same now, and will do so whichever builtin modules become known. -/
def Alike (p q : SkipPolicy) : Prop :=
  ∀ url, q.isSkipped url = p.isSkipped url ∧
    ∀ names, (q.setBuiltins names).isSkipped url = (p.setBuiltins names).isSkipped url

theorem isSkipped_congr (hbuiltins : q.builtins = p.builtins)
    (hmatch : ∀ m, q.internalsMatch m = p.internalsMatch m)
    (hfiles : ∀ url, looksInternal url = false → q.fileState url = p.fileState url) (url : String) :
    q.isSkipped url = p.isSkipped url := by
  have hint : q.isNodeInternal url = p.isNodeInternal url := by
    rw [isNodeInternal_eq_or, isNodeInternal_eq_or, hbuiltins]
  cases h : p.isNodeInternal url with
  | true =>
    rw [isSkipped_of_internal h, isSkipped_of_internal (hint.trans h), hbuiltins, hmatch]
  | false =>
    have hlooks := h
    rw [isNodeInternal_eq_or, Bool.or_eq_false_iff] at hlooks
    rw [isSkipped_of_file h, isSkipped_of_file (hint.trans h), hfiles url hlooks.1]

/-- **What makes policies alike.**  The globs for modules match the same names, and every URL that
can be that of a file is in the same state as one.  That no less will do is seen when it becomes
known that there are no builtin modules: then a name is asked for under the scheme, and a file under
its URL. -/
theorem alike_iff (hbuiltins : q.builtins = p.builtins) :
    p.Alike q ↔ (∀ m, q.internalsMatch m = p.internalsMatch m) ∧
      ∀ url, looksInternal url = false → q.fileState url = p.fileState url := by
  constructor
  · intro halike
    constructor
    · intro m
      have hint : ∀ r : SkipPolicy, (r.setBuiltins []).isSkipped (nodeScheme ++ m) =
          r.internalsMatch m := by
        intro r
        have hlooks : (r.setBuiltins []).isNodeInternal (nodeScheme ++ m) = true := by
          rw [isNodeInternal_eq_or, looksInternal_append, Bool.true_or]
        rw [isSkipped_of_internal hlooks, moduleName_append]
        rfl
      rw [← hint q, ← hint p]
      exact (halike _).2 []
    · intro url hlooks
      have hfile : ∀ r : SkipPolicy, (r.setBuiltins []).isSkipped url = r.fileState url := by
        intro r
        refine isSkipped_of_file ?_
        rw [isNodeInternal_eq_or, hlooks]
        rfl
      rw [← hfile q, ← hfile p]
      exact (halike url).2 []
  · rintro ⟨hmatch, hfiles⟩ url
    refine ⟨isSkipped_congr hbuiltins hmatch hfiles url, fun names => ?_⟩
    exact isSkipped_congr (p := p.setBuiltins names) (q := q.setBuiltins names) rfl hmatch hfiles
      url

/-! ## A choice about a module -/

theorem internalsMatch_eq_of_eqUpToCase (p : SkipPolicy) {m m' : String}
    (h : EqUpToCase m.toList m'.toList) : p.internalsMatch m = p.internalsMatch m' := by
  rw [internalsMatch, internalsMatch]
  cases p.nodeInternals with
  | none => rfl
  | some globs => exact globs.isMatch_eq_of_eqUpToCase h

/-- A list that is edited to match a name matches it. -/
theorem isMatch_editLiterals_take {l : GlobList} (h : l.Sound) (hsp : l.spelling = .exact)
    {name : String} (hmark : name.toList.head? ≠ some '!') :
    (editLiterals l [name] true (·.isMatch name)).isMatch name = true := by
  have hrest : (withoutLiterals l [name]).Sound := h.retain _
  have hrsp : (withoutLiterals l [name]).spelling = .exact := hsp
  have hpos : isPositive name = true := bne_iff_ne.mpr hmark
  unfold editLiterals
  simp only
  split
  · assumption
  · refine (hrest.isMatch_push_positive hpos name).mpr (Or.inr ?_)
    rw [hrsp]
    exact covers_self name

variable (h : p.Lawful) (hc : p.pathCase.isInsensitive = false)
  (hname : IsPlainName (moduleName url))

include h hc hname

/-- **What a choice about a module does to the globs.** -/
theorem internalsMatch_chooseInternal (skipped : Bool) (m : String) :
    (p.chooseInternal url skipped).internalsMatch m =
      if EqUpToCase m.toList (moduleName url).toList then skipped else p.internalsMatch m := by
  obtain ⟨hsound, hspelling⟩ := h.internals_getD
  have hexact := hspelling.trans (Spelling.ofCase_of_sensitive hc)
  split
  · next hcase =>
    rw [internalsMatch_eq_of_eqUpToCase _ hcase]
    cases skipped with
    | true => exact isMatch_editLiterals_take hsound hexact hname.no_mark
    | false => exact isMatch_editLiterals_keep hsound hexact hname.ne_empty
  · next hother =>
    have hfree : ∀ t ∈ [moduleName url], ¬ Covers .exact t.toList m := by
      rw [List.forall_mem_singleton, covers_iff_eqUpToCase hname.no_star]
      exact hother
    have hmarks : ∀ t ∈ [moduleName url], t.toList.head? ≠ some '!' :=
      List.forall_mem_singleton.mpr hname.no_mark
    refine (isMatch_editLiterals hsound hmarks (hexact ▸ hfree) skipped _).trans ?_
    -- without a list nothing is matched, and the empty list matches nothing either
    rw [internalsMatch]
    cases p.nodeInternals <;> rfl

/-- The edit is without effect exactly if the name was matched as chosen already. -/
theorem internalsMatch_chooseInternal_eq_iff (skipped : Bool) :
    (∀ m, (p.chooseInternal url skipped).internalsMatch m = p.internalsMatch m) ↔
      p.internalsMatch (moduleName url) = skipped := by
  simp only [internalsMatch_chooseInternal h hc hname]
  constructor
  · intro hall
    have hself := hall (moduleName url)
    rw [if_pos (EqUpToCase.refl _)] at hself
    exact hself.symm
  · intro hmatch m
    split
    · next hcase => rw [internalsMatch_eq_of_eqUpToCase p hcase, hmatch]
    · rfl

end SkipPolicy
end DebugTree
