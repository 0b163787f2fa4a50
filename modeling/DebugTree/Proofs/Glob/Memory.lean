import DebugTree.Glob.List

/-!
# What a glob list remembers

The memory of a list is empty or holds what its globs compile to.  Every list that is made of globs
is such a list, and no question and no edit makes it another one, so what a list answers is
a function of its globs.
-/

namespace DebugTree
namespace GlobList

/-- The memory is empty or up to date. -/
def Sound (l : GlobList) : Prop :=
  ∀ patterns, l.memory = some patterns → patterns = Glob.compile l.spelling l.globs

theorem sound_ofList (sp : Spelling) (globs : List String) : (ofList sp globs).Sound := by
  intro patterns h
  exact absurd h (by simp [ofList])

/-- The patterns of a list are those of its globs. -/
theorem Sound.compiled_eq {l : GlobList} (h : l.Sound) :
    l.compiled = Glob.compile l.spelling l.globs := by
  unfold compiled
  cases hm : l.memory with
  | none => rfl
  | some patterns => exact h patterns hm

theorem Sound.remember {l : GlobList} (h : l.Sound) : l.remember.Sound := by
  intro patterns hp
  have hp' : l.compiled = patterns := by simpa [GlobList.remember] using hp
  rw [← hp', h.compiled_eq]
  rfl

theorem sound_push (l : GlobList) (glob : String) : (l.push glob).Sound := by
  intro patterns h
  exact absurd h (by simp [push])

theorem passing_sublist (keep : Nat → String → Bool) (globs : List String) :
    (passing keep globs).Sublist globs := by
  have hsub := (List.filter_sublist (p := fun entry : String × Nat => keep entry.2 entry.1)
    (l := globs.zipIdx)).map Prod.fst
  rwa [List.zipIdx_map_fst] at hsub

theorem passing_eq_filter (keep : String → Bool) (globs : List String) :
    passing (fun _ glob => keep glob) globs = globs.filter keep := by
  calc passing (fun _ glob => keep glob) globs
      = (globs.zipIdx.map Prod.fst).filter keep := List.filter_map.symm
    _ = globs.filter keep := by rw [List.zipIdx_map_fst]

/-- A test that goes by the globs alone is one that may go by their places. -/
theorem retainAt_eq_retain (l : GlobList) (keep : String → Bool) :
    (l.retainAt fun _ glob => keep glob) = l.retain keep := by
  rw [retainAt, retain, passing_eq_filter]

/-- An edit that takes nothing out may keep the memory. -/
theorem Sound.retainAt {l : GlobList} (h : l.Sound) (keep : Nat → String → Bool) :
    (l.retainAt keep).Sound := by
  intro patterns hp
  simp only [GlobList.retainAt] at hp
  split at hp
  · next hlen =>
    have hall : passing keep l.globs = l.globs :=
      (passing_sublist keep l.globs).eq_of_length hlen
    rw [h patterns hp]
    simp only [GlobList.retainAt, hall]
  · exact absurd hp (by simp)

theorem Sound.retain {l : GlobList} (h : l.Sound) (keep : String → Bool) :
    (l.retain keep).Sound := by
  rw [← retainAt_eq_retain]
  exact h.retainAt _

/-- What a list answers depends on its globs alone. -/
theorem Sound.isMatch_congr {l m : GlobList} (hl : l.Sound) (hm : m.Sound)
    (hglobs : l.globs = m.globs) (hsp : l.spelling = m.spelling) (text : String) :
    l.isMatch text = m.isMatch text := by
  rw [isMatch, isMatch, hl.compiled_eq, hm.compiled_eq, hglobs, hsp]

@[simp] theorem spelling_ofList (sp : Spelling) (globs : List String) :
    (ofList sp globs).spelling = sp := rfl

@[simp] theorem spelling_push (l : GlobList) (glob : String) :
    (l.push glob).spelling = l.spelling := rfl

@[simp] theorem spelling_retain (l : GlobList) (keep : String → Bool) :
    (l.retain keep).spelling = l.spelling := rfl

end GlobList
end DebugTree
