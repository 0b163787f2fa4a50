import DebugTree.Proofs.Text.Folding

/-!
# Lowering and folding

A text is lowered by the full mapping of its letters, and compared by their simple folding.  These
are two tables, but they agree: a letter and its lower case fold to one letter
(`exists_lowercaseChar_eq`).  There is one exception.  The lower case of `İ` is two characters, so
no folding of one letter leads to it.

That the tables agree is checked for every letter that is lowered at all (`agrees_lowercaseRuns`).
It is looked up in those runs of the other table that come near it, as nearly all of them are far
away (`moveCode_filter_meets`).
-/

namespace DebugTree
namespace Text

/-! ## Code points -/

/-- Where the first run that has the code point sends it; a code point in no run stays. -/
def moveCode (table : List CaseRun) (n : Nat) : Nat :=
  (table.findSome? (·.image? n)).getD n

theorem moveBy_eq_ofNat (table : List CaseRun) (c : Char) :
    moveBy table c = Char.ofNat (moveCode table c.toNat) := by
  rw [moveBy, moveCode]
  cases table.findSome? (·.image? c.toNat) with
  | none => exact (Char.ofNat_toNat c).symm
  | some n => rfl

namespace CaseRun

variable {r : CaseRun} {m n first last : Nat}

/-- The code point to which the run sends one of its own. -/
def imageCode (r : CaseRun) (n : Nat) : Nat :=
  (n + r.offset).toNat

/-- The code points of the run. -/
def members (r : CaseRun) : List Nat :=
  (List.range ((r.last - r.first) / r.step + 1)).map fun i => r.first + r.step * i

/-- The run begins before the end of an interval and ends after its beginning. -/
def meets (first last : Nat) (r : CaseRun) : Bool :=
  Nat.ble r.first last && Nat.ble first r.last

theorem image?_eq_some_iff : r.image? n = some m ↔
    (r.first ≤ n ∧ n ≤ r.last ∧ (n - r.first) % r.step = 0) ∧ r.imageCode n = m := by
  rw [image?, imageCode]
  split
  · next h => simp [h]
  · next h => simp [h]

theorem mem_members_of_image? (h : r.image? n = some m) : n ∈ r.members := by
  obtain ⟨⟨hfirst, hlast, hstep⟩, -⟩ := image?_eq_some_iff.mp h
  have hindex : (n - r.first) / r.step ≤ (r.last - r.first) / r.step :=
    Nat.div_le_div_right (Nat.sub_le_sub_right hlast _)
  have hdistance := Nat.div_add_mod (n - r.first) r.step
  refine List.mem_map.mpr ⟨(n - r.first) / r.step, List.mem_range.mpr ?_, ?_⟩
  · omega
  · omega

theorem meets_of_image? (h : r.image? n = some m) (hfirst : first ≤ n) (hlast : n ≤ last) :
    r.meets first last = true := by
  obtain ⟨⟨hbefore, hafter, -⟩, -⟩ := image?_eq_some_iff.mp h
  rw [meets, Bool.and_eq_true, Nat.ble_eq, Nat.ble_eq]
  omega

end CaseRun

/-- Only the runs that come near a code point have to be looked at. -/
theorem moveCode_filter_meets {first last n : Nat} (hfirst : first ≤ n) (hlast : n ≤ last)
    (table : List CaseRun) :
    moveCode (table.filter (·.meets first last)) n = moveCode table n := by
  have hfind : (table.filter (·.meets first last)).findSome? (·.image? n) =
      table.findSome? (·.image? n) := by
    induction table with
    | nil => rfl
    | cons r table ih =>
      rw [List.filter_cons, List.findSome?_cons]
      cases hr : r.image? n with
      | none =>
        split
        · rw [List.findSome?_cons, hr, ih]
        · exact ih
      | some m => rw [if_pos (CaseRun.meets_of_image? hr hfirst hlast), List.findSome?_cons, hr]
  rw [moveCode, hfind, moveCode]

/-! ## Letters outside ASCII -/

/-- The letters of a run and those to which it sends them fold to the same code points. -/
def CaseRun.Agrees (r : CaseRun) : Prop :=
  ∀ n ∈ r.members,
    moveCode (foldingRuns.filter (·.meets (r.imageCode r.first) (r.imageCode r.last)))
        (r.imageCode n) =
      moveCode (foldingRuns.filter (·.meets r.first r.last)) n

instance (r : CaseRun) : Decidable r.Agrees :=
  inferInstanceAs (Decidable (∀ n ∈ r.members, _))

/-- A run stays outside ASCII, where folding goes by another rule.  The Kelvin sign is the only
letter that does not, and its lower case is `k`. -/
def CaseRun.StaysOutside (r : CaseRun) : Prop :=
  (128 ≤ r.imageCode r.first ∨ r.imageCode r.first = 107 ∧ r.imageCode r.last = 107) ∧
    (r.imageCode r.last < 0xD800 ∨ 0xDFFF < r.imageCode r.first ∧ r.imageCode r.last < 0x110000)

instance (r : CaseRun) : Decidable r.StaysOutside :=
  inferInstanceAs (Decidable (_ ∧ _))

theorem agrees_lowercaseRuns : ∀ r ∈ lowercaseRuns, r.Agrees := by
  decide +kernel

theorem staysOutside_lowercaseRuns : ∀ r ∈ lowercaseRuns, r.StaysOutside := by
  decide +kernel

/-- Outside ASCII, folding is a matter of code points. -/
theorem simpleFold_eq_ofNat {c : Char} (hc : ¬ c.toNat < 128) :
    simpleFold c = Char.ofNat (moveCode foldingRuns c.toNat) := by
  rw [simpleFold, if_neg hc, moveBy_eq_ofNat]

/-- The code point of `k` folds to itself, as all code points do that no letter can be moved to. -/
theorem simpleFold_ofNat {n : Nat} (hvalid : n.isValidChar) (hn : 128 ≤ n ∨ n = 107) :
    simpleFold (Char.ofNat n) = Char.ofNat (moveCode foldingRuns n) := by
  have htoNat : (Char.ofNat n).toNat = n := by
    rw [Char.ofNat, dif_pos hvalid]
    rfl
  rcases hn with hn | rfl
  · rw [simpleFold_eq_ofNat (by omega), htoNat]
  · decide +kernel

/-- Outside ASCII a letter and its lower case fold to one letter. -/
theorem simpleFold_moveBy_lowercaseRuns {c : Char} (hc : ¬ c.toNat < 128) :
    simpleFold (moveBy lowercaseRuns c) = simpleFold c := by
  unfold moveBy
  split
  case h_2 => rfl
  case h_1 m hm =>
    obtain ⟨r, hr, him⟩ := List.exists_of_findSome?_eq_some hm
    obtain ⟨⟨hfirst, hlast, -⟩, rfl⟩ := CaseRun.image?_eq_some_iff.mp him
    obtain ⟨hascii, hvalid⟩ := staysOutside_lowercaseRuns r hr
    have hfold := agrees_lowercaseRuns r hr _ (CaseRun.mem_members_of_image? him)
    have hfirst' : r.imageCode r.first ≤ r.imageCode c.toNat := by unfold CaseRun.imageCode; omega
    have hlast' : r.imageCode c.toNat ≤ r.imageCode r.last := by unfold CaseRun.imageCode; omega
    rw [moveCode_filter_meets hfirst' hlast', moveCode_filter_meets hfirst hlast] at hfold
    have hvalid' : (r.imageCode c.toNat).isValidChar := by unfold Nat.isValidChar; omega
    rw [simpleFold_ofNat hvalid' (by omega), hfold, simpleFold_eq_ofNat hc]

/-! ## All letters -/

theorem simpleFold_toLower {c : Char} (hc : c.toNat < 128) :
    simpleFold c.toLower = simpleFold c := by
  have hall : ∀ n < 128, simpleFold (Char.ofNat n).toLower = simpleFold (Char.ofNat n) := by
    decide +kernel
  simpa using hall c.toNat hc

/-- **A letter and its lower case fold to one letter**, except for `İ`. -/
theorem exists_lowercaseChar_eq {c : Char} (hc : c ≠ 'İ') :
    ∃ l, lowercaseChar c = [l] ∧ simpleFold l = simpleFold c := by
  unfold lowercaseChar
  split
  · next hascii => exact ⟨_, rfl, simpleFold_toLower hascii⟩
  · next hascii => exact ⟨_, rfl, simpleFold_moveBy_lowercaseRuns hascii⟩

/-! ## Texts -/

theorem map_simpleFold_lowercaseFrom {cs : List Char} (h : 'İ' ∉ cs) (before : List Char) :
    (lowercaseFrom before cs).map simpleFold = cs.map simpleFold := by
  induction cs generalizing before with
  | nil => rfl
  | cons c cs ih =>
    rw [List.mem_cons, not_or] at h
    rw [lowercaseFrom, List.map_append, ih h.2, List.map_cons]
    split
    · next hsigma =>
      -- both small sigmas fold to the same letter
      have hsmall : simpleFold (if endsWord before cs then 'ς' else 'σ') = simpleFold 'Σ' := by
        split <;> decide +kernel
      rw [hsigma, List.map_singleton, hsmall, List.singleton_append]
    · obtain ⟨l, hl, hfold⟩ := exists_lowercaseChar_eq (Ne.symm h.1)
      rw [hl, List.map_singleton, hfold, List.singleton_append]

/-- A text that begins with a slash when it is lowered has begun with one before. -/
theorem exists_of_lowercaseFrom_slash {cs t before : List Char}
    (h : lowercaseFrom before cs = '/' :: t) : ∃ rest, cs = '/' :: rest := by
  cases cs with
  | nil => cases h
  | cons c cs =>
    rw [lowercaseFrom] at h
    by_cases hsigma : c = 'Σ'
    · rw [if_pos hsigma] at h
      have hhead := (List.cons.inj h).1
      split at hhead <;> exact absurd hhead (by decide)
    rw [if_neg hsigma] at h
    by_cases hdot : c = 'İ'
    · rw [hdot] at h
      exact absurd (List.cons.inj h).1 (by decide)
    · obtain ⟨l, hl, hfold⟩ := exists_lowercaseChar_eq hdot
      rw [hl] at h
      obtain rfl : l = '/' := (List.cons.inj h).1
      exact ⟨cs, by rw [eq_slash_of_simpleFold hfold.symm]⟩

end Text
end DebugTree
