import Mathlib.Tactic.Common
import DebugTree.Text.CaseMapping
import DebugTree.Text.SimpleFolding

/-!
# What case leaves alone

A character that is no letter is the same in upper and lower case, folds to itself, and is what no
other character folds to or is mapped to.  Outside ASCII this is a fact about the tables: no run of
letters reaches the character (`CaseRun.reaches`).
-/

namespace DebugTree
namespace Text

/-! ## Tables -/

/-- The letters of the run move to an interval that has this code point. -/
def CaseRun.reaches (r : CaseRun) (n : Nat) : Bool :=
  decide ((r.first : Int) + r.offset ≤ n) && decide ((n : Int) ≤ r.last + r.offset)

theorem CaseRun.reaches_of_image? {r : CaseRun} {m n : Nat} (h : r.image? m = some n)
    (hn : n ≠ 0) : r.reaches n = true := by
  unfold CaseRun.image? at h
  split at h
  · next hm =>
    rw [Option.some.injEq] at h
    simp only [CaseRun.reaches, Bool.and_eq_true, decide_eq_true_eq]
    omega
  · exact absurd h (by simp)

theorem toNat_ofNat_eq_or (n : Nat) : (Char.ofNat n).toNat = n ∨ (Char.ofNat n).toNat = 0 := by
  by_cases hn : n.isValidChar
  · rw [Char.ofNat, dif_pos hn]
    exact Or.inl rfl
  · rw [Char.ofNat, dif_neg hn]
    exact Or.inr rfl

/-- No run reaches the character, so only the character itself can come to be it. -/
theorem moveBy_ne {table : List CaseRun} {c d : Char} (hd : d.toNat ≠ 0)
    (ht : table.all (fun r => !r.reaches d.toNat) = true) (hc : c ≠ d) : moveBy table c ≠ d := by
  unfold moveBy
  split
  · next n hn =>
    intro heq
    obtain ⟨r, hr, him⟩ := List.exists_of_findSome?_eq_some hn
    have hnd : n = d.toNat := by
      rcases toNat_ofNat_eq_or n with h | h
      · rw [heq] at h
        exact h.symm
      · rw [heq] at h
        exact absurd h hd
    have hreach := CaseRun.reaches_of_image? him (hnd ▸ hd)
    have hnot := List.all_eq_true.mp ht r hr
    rw [← hnd, hreach] at hnot
    exact absurd hnot (by decide)
  · exact hc

/-! ## ASCII -/

/-- The letters of ASCII in both cases. -/
theorem isAlpha_eq_decide (c : Char) : c.isAlpha =
    (decide (65 ≤ c.val.toNat ∧ c.val.toNat ≤ 90) ||
      (decide (97 ≤ c.val.toNat) && decide (c.val.toNat ≤ 122))) :=
  rfl

theorem toLower_ne {c d : Char} (hd : d.isAlpha = false) (hc : c ≠ d) : c.toLower ≠ d := by
  rintro rfl
  by_cases hupper : c.val ≥ 'A'.val ∧ c.val ≤ 'Z'.val
  · have hfirst : 65 ≤ c.val.toNat := hupper.1
    have hlast : c.val.toNat ≤ 90 := hupper.2
    have hval : c.toLower.val.toNat = c.val.toNat + 32 := by
      have hshift : ('a'.val - 'A'.val).toNat = 32 := by decide
      unfold Char.toLower
      rw [dif_pos hupper, UInt32.toNat_add, hshift]
      omega
    rw [isAlpha_eq_decide, hval, Bool.or_eq_false_iff, Bool.and_eq_false_iff] at hd
    rcases hd.2 with h | h <;> have hout := of_decide_eq_false h <;> omega
  · unfold Char.toLower at hc
    exact hc (by rw [dif_neg hupper])

theorem toUpper_ne {c d : Char} (hd : d.isAlpha = false) (hc : c ≠ d) : c.toUpper ≠ d := by
  rintro rfl
  by_cases hlower : 'a'.val ≤ c.val ∧ c.val ≤ 'z'.val
  · have hfirst : 97 ≤ c.val.toNat := hlower.1
    have hlast : c.val.toNat ≤ 122 := hlower.2
    have hval : c.toUpper.val.toNat = c.val.toNat - 32 := by
      have hshift : ('A'.val - 'a'.val).toNat = 4294967264 := by decide
      unfold Char.toUpper
      rw [dif_pos hlower, UInt32.toNat_add, hshift]
      omega
    rw [isAlpha_eq_decide, hval, Bool.or_eq_false_iff] at hd
    have hout := of_decide_eq_false hd.1
    omega
  · unfold Char.toUpper at hc
    exact hc (by rw [dif_neg hlower])

/-! ## Slashes and hyphens -/

/-- What is no letter, and is not reached by letters, only it folds to. -/
theorem eq_of_simpleFold_eq {c d : Char} (hself : simpleFold d = d) (halpha : d.isAlpha = false)
    (hd : d.toNat ≠ 0) (htable : foldingRuns.all (fun r => !r.reaches d.toNat) = true)
    (h : simpleFold c = simpleFold d) : c = d := by
  rw [hself] at h
  by_contra hc
  unfold simpleFold at h
  split at h
  · exact toLower_ne halpha hc h
  · exact moveBy_ne hd htable hc h

/-- Only a slash folds to what a slash folds to. -/
theorem eq_slash_of_simpleFold {c : Char} (h : simpleFold c = simpleFold '/') : c = '/' :=
  eq_of_simpleFold_eq rfl (by decide) (by decide) (by decide) h

theorem eq_backslash_of_simpleFold {c : Char} (h : simpleFold c = simpleFold '\\') : c = '\\' :=
  eq_of_simpleFold_eq rfl (by decide) (by decide) (by decide) h

theorem eq_lineFeed_of_simpleFold {c : Char} (h : simpleFold c = simpleFold '\n') : c = '\n' :=
  eq_of_simpleFold_eq rfl (by decide) (by decide) (by decide) h

/-- Only a hyphen has a hyphen as its lower case. -/
theorem lowercaseChar_ne_hyphen {c : Char} (hc : c ≠ '-') : lowercaseChar c ≠ ['-'] := by
  unfold lowercaseChar
  split
  · simpa using toLower_ne (by decide) hc
  · split
    · decide
    · simpa using moveBy_ne (by decide) (by decide) hc

/-- Only a hyphen has a hyphen as its upper case. -/
theorem uppercaseChar_ne_hyphen {c : Char} (hc : c ≠ '-') : uppercaseChar c ≠ ['-'] := by
  have hlong : uppercaseSequences.all (fun e => decide (e.2.length ≠ 1)) = true := by decide
  unfold uppercaseChar
  split
  · simpa using toUpper_ne (by decide) hc
  · split
    · next ns hns =>
      intro heq
      have hlen : ns.length = 1 := by simpa using congrArg List.length heq
      obtain ⟨e, he, hsnd⟩ := List.lookup_eq_some_iff.mp hns
      have := List.all_eq_true.mp hlong (c.toNat, ns) (by simp [hsnd])
      simp [hlen] at this
    · simpa using moveBy_ne (by decide) (by decide) hc

end Text
end DebugTree
