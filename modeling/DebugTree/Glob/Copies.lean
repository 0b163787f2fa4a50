import DebugTree.Glob.List

/-!
# A glob list and its copies

A list can be copied at any time, and a copy takes along what the list remembers.  From then on each
of the two is edited and asked by itself, so a memory that was filled by a question about one of
them may be used by the other one, and kept by an edit that changed nothing.

`Copies` is a list with everything that has been copied from it, and `Use` is what can be done with
them, in any order.  Beside it stands `Plain`, the same copies without any memory: a copy is no more
than its globs, and whoever asks it gets the answer of a list that is made of these globs there and
then.
-/

namespace DebugTree
namespace GlobList

/-! ## Edits and questions -/

/-- Something that changes a list. -/
inductive Edit where
  | push (glob : String)
  /-- Globs are kept if they pass a test, which may go by their places too. -/
  | retain (keep : Nat → String → Bool)

/-- Something that a list can be asked. -/
inductive Question where
  | compiled
  | isMatch (text : String)
  deriving DecidableEq

/-- What comes of a question. -/
inductive Answer where
  | patterns (patterns : List CompiledGlob)
  | verdict (isMatch : Bool)
  deriving DecidableEq

/-- The list after an edit. -/
def edit (l : GlobList) : Edit → GlobList
  | .push glob => l.push glob
  | .retain keep => l.retainAt keep

/-- What the list answers. -/
def answer (l : GlobList) : Question → Answer
  | .compiled => .patterns l.compiled
  | .isMatch text => .verdict (l.isMatch text)

/-- What an edit makes of the globs. -/
def Edit.apply (globs : List String) : Edit → List String
  | .push glob => globs ++ [glob]
  | .retain keep => passing keep globs

/-! ## Several copies -/

/-- Something that is done with one of several copies, which are numbered as they are made. -/
inductive Use where
  | edit (copy : Nat) (e : Edit)
  | ask (copy : Nat) (q : Question)
  | clone (copy : Nat)

/-- It is an edit of a given copy. -/
def Use.IsEditOf (i : Nat) : Use → Prop
  | .edit j _ => j = i
  | .ask _ _ => False
  | .clone _ => False

/-- A list with everything that has been copied from it. -/
structure Copies where
  lists : List GlobList
  /-- What has been answered. -/
  answers : List Answer

namespace Copies

/-- A list that is made of globs and has not been copied. -/
def start (sp : Spelling) (globs : List String) : Copies := ⟨[ofList sp globs], []⟩

/-- One thing is done. -/
def act (w : Copies) : Use → Copies
  | .edit i e => { w with lists := w.lists.modify i (·.edit e) }
  | .ask i q =>
    { lists := w.lists.modify i remember
      answers := w.answers ++ (w.lists[i]?.map (·.answer q)).toList }
  | .clone i => { w with lists := w.lists ++ w.lists[i]?.toList }

/-- One thing is done after the other. -/
def run (w : Copies) (uses : List Use) : Copies :=
  uses.foldl act w

end Copies

/-- The same without any memory. -/
structure Plain where
  lists : List (List String)
  answers : List Answer

namespace Plain

/-- Globs of which there is one copy. -/
def start (globs : List String) : Plain := ⟨[globs], []⟩

/-- One thing is done; a question is answered by a list that is made for it. -/
def act (sp : Spelling) (p : Plain) : Use → Plain
  | .edit i e => { p with lists := p.lists.modify i e.apply }
  | .ask i q =>
    { p with
      answers := p.answers ++ (p.lists[i]?.map fun globs => (ofList sp globs).answer q).toList }
  | .clone i => { p with lists := p.lists ++ p.lists[i]?.toList }

/-- One thing is done after the other. -/
def run (sp : Spelling) (p : Plain) (uses : List Use) : Plain :=
  uses.foldl (act sp) p

end Plain

end GlobList
end DebugTree
