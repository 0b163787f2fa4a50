import DebugTree.Glob.Copies
import DebugTree.Proofs.Glob.Memory
import Mathlib.Data.List.Basic

/-!
# Copies of a glob list

Nobody can tell a list and its copies from copies that have no memory (`Agrees.run`), since all that
a copy remembers is what its globs compile to.
-/

namespace DebugTree
namespace GlobList

/-! ## Edits and questions -/

theorem globs_edit (l : GlobList) (e : Edit) : (l.edit e).globs = e.apply l.globs := by
  cases e <;> rfl

theorem spelling_edit (l : GlobList) (e : Edit) : (l.edit e).spelling = l.spelling := by
  cases e <;> rfl

theorem Sound.edit {l : GlobList} (h : l.Sound) (e : Edit) : (l.edit e).Sound := by
  cases e with
  | push glob => exact sound_push l glob
  | retain keep => exact h.retainAt keep

/-- It makes no difference to an answer whether a question has been asked before. -/
theorem answer_remember (l : GlobList) (q : Question) : l.remember.answer q = l.answer q := by
  cases q with
  | compiled => rw [answer, answer, compiled_remember]
  | isMatch text => rw [answer, answer, isMatch, isMatch, compiled_remember]

/-- A list whose memory is up to date answers like one that is made of its globs. -/
theorem Sound.answer_eq {l : GlobList} (h : l.Sound) (q : Question) :
    l.answer q = (ofList l.spelling l.globs).answer q := by
  cases q with
  | compiled =>
    rw [answer, answer, h.compiled_eq]
    rfl
  | isMatch text => rw [answer, answer, h.isMatch_congr (sound_ofList _ _) rfl rfl]

/-! ## Memory makes no difference -/

/-- Every copy has the globs that it would have without a memory, and remembers nothing but what
they compile to; and the answers have been the same. -/
structure Agrees (sp : Spelling) (w : Copies) (p : Plain) : Prop where
  sound : ∀ l ∈ w.lists, l.Sound ∧ l.spelling = sp
  globs : w.lists.map (·.globs) = p.lists
  answers : w.answers = p.answers

theorem agrees_start (sp : Spelling) (globs : List String) :
    Agrees sp (.start sp globs) (.start globs) where
  sound l hl := by
    rw [List.mem_singleton.mp hl]
    exact ⟨sound_ofList sp globs, rfl⟩
  globs := rfl
  answers := rfl

/-- What holds of all lists still does if one of them is replaced by one of which it holds. -/
theorem forall_mem_modify {α : Type} {P : α → Prop} {xs : List α} (h : ∀ x ∈ xs, P x) {f : α → α}
    (hf : ∀ x, P x → P (f x)) (i : Nat) : ∀ x ∈ xs.modify i f, P x := by
  intro x hx
  obtain ⟨j, hj, rfl⟩ := List.getElem_of_mem hx
  rw [List.getElem_modify]
  split
  · exact hf _ (h _ (List.getElem_mem _))
  · exact h _ (List.getElem_mem _)

theorem map_globs_modify (lists : List GlobList) (i : Nat) {f : GlobList → GlobList}
    {f' : List String → List String} (hf : ∀ l, (f l).globs = f' l.globs) :
    (lists.modify i f).map (·.globs) = (lists.map (·.globs)).modify i f' := by
  refine List.ext_getElem? fun j => ?_
  rw [List.getElem?_map, List.getElem?_modify, List.getElem?_modify, List.getElem?_map]
  cases lists[j]? with
  | none => rfl
  | some l => by_cases hij : i = j <;> simp [hij, hf]

namespace Agrees

variable {sp : Spelling} {w : Copies} {p : Plain}

theorem edit (h : Agrees sp w p) (i : Nat) (e : Edit) :
    Agrees sp (w.act (.edit i e)) (p.act sp (.edit i e)) where
  sound := forall_mem_modify h.sound (fun l hl => ⟨hl.1.edit e, (spelling_edit l e).trans hl.2⟩) i
  globs := by
    rw [Copies.act, Plain.act, ← h.globs]
    exact map_globs_modify w.lists i fun l => globs_edit l e
  answers := h.answers

/-- The answer comes from the memory, and the list that would be made for the question gives the
same one. -/
theorem answer_eq (h : Agrees sp w p) (i : Nat) (q : Question) :
    w.lists[i]?.map (·.answer q) = p.lists[i]?.map fun globs => (ofList sp globs).answer q := by
  rw [← h.globs, List.getElem?_map, Option.map_map]
  cases hi : w.lists[i]? with
  | none => rfl
  | some l =>
    obtain ⟨hsound, rfl⟩ := h.sound l (List.mem_of_getElem? hi)
    exact congrArg some (hsound.answer_eq q)

theorem ask (h : Agrees sp w p) (i : Nat) (q : Question) :
    Agrees sp (w.act (.ask i q)) (p.act sp (.ask i q)) where
  sound := forall_mem_modify h.sound (fun _ hl => ⟨hl.1.remember, hl.2⟩) i
  globs := by
    have hsame : (w.lists.modify i remember).map (·.globs) =
        (w.lists.map (·.globs)).modify i id :=
      map_globs_modify w.lists i globs_remember
    rw [Copies.act, hsame, List.modify_id]
    exact h.globs
  answers := by rw [Copies.act, Plain.act, h.answers, h.answer_eq]

theorem clone (h : Agrees sp w p) (i : Nat) :
    Agrees sp (w.act (.clone i)) (p.act sp (.clone i)) where
  sound l hl := by
    rcases List.mem_append.mp hl with hl | hl
    · exact h.sound l hl
    · exact h.sound l (List.mem_of_getElem? (Option.mem_toList.mp hl))
  globs := by
    rw [Copies.act, Plain.act, ← h.globs, List.map_append, List.getElem?_map]
    cases w.lists[i]? <;> rfl
  answers := h.answers

theorem act (h : Agrees sp w p) (u : Use) : Agrees sp (w.act u) (p.act sp u) := by
  cases u with
  | edit i e => exact h.edit i e
  | ask i q => exact h.ask i q
  | clone i => exact h.clone i

theorem run (h : Agrees sp w p) (uses : List Use) : Agrees sp (w.run uses) (p.run sp uses) := by
  induction uses generalizing w p with
  | nil => exact h
  | cons u uses ih => exact ih (h.act u)

end Agrees

/-! ## Copies do not disturb each other -/

namespace Copies

variable {w : Copies} {l : GlobList} {i : Nat}

/-- Whatever is done, a copy that is not edited goes on answering as before. -/
theorem exists_answer_act (hl : w.lists[i]? = some l) {u : Use} (hu : ¬ u.IsEditOf i) :
    ∃ l', (w.act u).lists[i]? = some l' ∧ l'.globs = l.globs ∧ ∀ q, l'.answer q = l.answer q := by
  cases u with
  | edit j e =>
    refine ⟨l, ?_, rfl, fun _ => rfl⟩
    rw [act, List.getElem?_modify, hl]
    exact congrArg some (if_neg hu)
  | ask j q =>
    rw [act, List.getElem?_modify, hl]
    by_cases hj : j = i
    · exact ⟨l.remember, congrArg some (if_pos hj), rfl, l.answer_remember⟩
    · exact ⟨l, congrArg some (if_neg hj), rfl, fun _ => rfl⟩
  | clone j =>
    exact ⟨l, (List.getElem?_append_left (List.getElem?_eq_some_iff.mp hl).1).trans hl, rfl,
      fun _ => rfl⟩

theorem exists_answer_run (hl : w.lists[i]? = some l) {uses : List Use}
    (huses : ∀ u ∈ uses, ¬ u.IsEditOf i) :
    ∃ l', (w.run uses).lists[i]? = some l' ∧ l'.globs = l.globs ∧
      ∀ q, l'.answer q = l.answer q := by
  induction uses generalizing w l with
  | nil => exact ⟨l, hl, rfl, fun _ => rfl⟩
  | cons u uses ih =>
    obtain ⟨hu, huses⟩ := List.forall_mem_cons.mp huses
    obtain ⟨l₁, hl₁, hglobs₁, hsame₁⟩ := exists_answer_act hl hu
    obtain ⟨l₂, hl₂, hglobs₂, hsame₂⟩ := ih hl₁ huses
    exact ⟨l₂, hl₂, hglobs₂.trans hglobs₁, fun q => (hsame₂ q).trans (hsame₁ q)⟩

/-- **The memory of a list cannot be noticed**, whatever is done with the list and its copies.
Every copy remembers nothing or what its globs compile to, and answers like a list that is made of
these globs; its globs, and all answers that anybody got on the way, are those of copies that have
no memory.  What a copy answers can only change by an edit of this very copy: neither questions nor
copying nor edits of other copies make a difference. -/
theorem memory_spec (sp : Spelling) (globs : List String) (uses : List Use) :
    let w := (start sp globs).run uses
    let p := (Plain.start globs).run sp uses
    (∀ l ∈ w.lists,
      (l.memory = none ∨ l.memory = some (Glob.compile sp l.globs)) ∧
        ∀ q, l.answer q = (ofList sp l.globs).answer q) ∧
      w.lists.map (·.globs) = p.lists ∧ w.answers = p.answers ∧
      ∀ i l, w.lists[i]? = some l → ∀ later : List Use, (∀ u ∈ later, ¬ u.IsEditOf i) →
        ∃ l', (w.run later).lists[i]? = some l' ∧ l'.globs = l.globs ∧
          ∀ q, l'.answer q = l.answer q := by
  intro w p
  have h : Agrees sp w p := (agrees_start sp globs).run uses
  refine ⟨fun l hl => ?_, h.globs, h.answers, fun i l hl later => exists_answer_run hl⟩
  obtain ⟨hsound, rfl⟩ := h.sound l hl
  refine ⟨?_, hsound.answer_eq⟩
  cases hmemory : l.memory with
  | none => exact Or.inl rfl
  | some patterns => exact Or.inr (congrArg some (hsound patterns hmemory))

/-- A list is asked, copied, and edited, and then both are asked.  The copy is edited too, but keeps
all its globs. -/
def askedAndCopied : List Use :=
  [.ask 0 (.isMatch "/x/a.js"), .clone 0, .edit 0 (.push "/x/b.js"),
    .edit 1 (.retain fun _ glob => glob != "/x/b.js"), .ask 0 (.isMatch "/x/b.js"),
    .ask 1 (.isMatch "/x/b.js")]

/-- The list goes on being edited, and the copy is asked and copied. -/
def editedElsewhere : List Use :=
  [.edit 0 (.push "**/b.js"), .ask 1 .compiled, .clone 1]

/-- The copy has kept the memory that it came with, and answers from it as it should; it goes on
doing so when the list is edited again. -/
theorem memory_spec_copied :
    let w := (start .exact ["**/a.js"]).run askedAndCopied
    w.answers = [.verdict true, .verdict true, .verdict false] ∧
      ∃ l ∈ w.lists, w.lists[1]? = some l ∧ l.memory ≠ none ∧
        l.memory = some (Glob.compile .exact l.globs) ∧
        l.answer .compiled = (ofList .exact ["**/a.js"]).answer .compiled ∧
        (∀ u ∈ editedElsewhere, ¬ u.IsEditOf 1) ∧
        ∃ l', (w.run editedElsewhere).lists[1]? = some l' ∧
          l'.answer (.isMatch "/x/b.js") = .verdict false := by
  intro w
  obtain ⟨hcopies, -, hanswers, halone⟩ := memory_spec .exact ["**/a.js"] askedAndCopied
  obtain ⟨l, hl, hglobs, hfilled⟩ :
      ∃ l, w.lists[1]? = some l ∧ l.globs = ["**/a.js"] ∧ l.memory ≠ none :=
    ⟨_, rfl, rfl, Option.some_ne_none _⟩
  have hmem : l ∈ w.lists := List.mem_of_getElem? hl
  obtain ⟨hmemory, hsame⟩ := hcopies l hmem
  have hothers : ∀ u ∈ editedElsewhere, ¬ u.IsEditOf 1 := by
    simp [editedElsewhere, Use.IsEditOf]
  obtain ⟨l', hl', -, hstill⟩ := halone 1 l hl _ hothers
  refine ⟨?_, l, hmem, hl, hfilled, hmemory.resolve_left hfilled, hglobs ▸ hsame .compiled, hothers,
    l', hl', ?_⟩
  · rw [hanswers]
    decide +kernel
  · rw [hstill, hsame, hglobs]
    decide +kernel

end Copies
end GlobList
end DebugTree
