import DebugTree.Glob.Compiled

/-!
# Glob lists

An ordered list of globs that remembers what it compiled to.  The memory is filled by the first
question and emptied by every edit that changes the list; an edit that turns out to change nothing
keeps it.  What a list answers does not depend on whether its memory is filled.
-/

namespace DebugTree

/-- An ordered list of globs. -/
structure GlobList where
  globs : List String
  spelling : Spelling
  /-- What the globs compiled to, once somebody asked. -/
  memory : Option (List CompiledGlob)
  deriving DecidableEq

namespace GlobList

/-- A list about which nobody has asked. -/
def ofList (spelling : Spelling) (globs : List String) : GlobList :=
  ⟨globs, spelling, none⟩

def isEmpty (l : GlobList) : Bool :=
  l.globs.isEmpty

/-! ## Questions -/

/-- The patterns of the list. -/
def compiled (l : GlobList) : List CompiledGlob :=
  l.memory.getD (Glob.compile l.spelling l.globs)

/-- Some pattern of the list matches the text. -/
def isMatch (l : GlobList) (text : String) : Bool :=
  l.compiled.any (·.isMatch text)

/-- The list after a question has been asked. -/
def remember (l : GlobList) : GlobList :=
  { l with memory := some l.compiled }

/-! ## Edits -/

/-- The list with one more glob at its end. -/
def push (l : GlobList) (glob : String) : GlobList :=
  { l with globs := l.globs ++ [glob], memory := none }

/-- The list with only those globs that pass a test. -/
def retain (l : GlobList) (keep : String → Bool) : GlobList :=
  let kept := l.globs.filter keep
  { l with globs := kept, memory := if kept.length = l.globs.length then l.memory else none }

/-- Those globs that pass a test which may go by their places too, as a test does that changes while
it is applied. -/
def passing (keep : Nat → String → Bool) (globs : List String) : List String :=
  (globs.zipIdx.filter fun entry => keep entry.2 entry.1).map Prod.fst

/-- `retain`, for a test that may go by the places of the globs. -/
def retainAt (l : GlobList) (keep : Nat → String → Bool) : GlobList :=
  let kept := passing keep l.globs
  { l with globs := kept, memory := if kept.length = l.globs.length then l.memory else none }

@[simp] theorem globs_ofList (sp : Spelling) (gs : List String) : (ofList sp gs).globs = gs := rfl

@[simp] theorem globs_remember (l : GlobList) : l.remember.globs = l.globs := rfl

@[simp] theorem globs_push (l : GlobList) (g : String) : (l.push g).globs = l.globs ++ [g] := rfl

@[simp] theorem globs_retain (l : GlobList) (keep : String → Bool) :
    (l.retain keep).globs = l.globs.filter keep := rfl

@[simp] theorem compiled_remember (l : GlobList) : l.remember.compiled = l.compiled := by
  simp [remember, compiled]

end GlobList
end DebugTree
