import DebugTree.Glob.Basic
import DebugTree.Pattern.Matching
import DebugTree.Text.SimpleFolding

/-!
# Compiled globs

A list of globs becomes a list of patterns, one for each positive glob.  A negation `!n` yields no
pattern of its own: it makes every pattern declared *before* it refuse what `n` matches.  So

    **/foo/**   !**/foo/bar/**

is one pattern, and a negation listed first has nothing to carve from.  A negation does not
override what comes after it, and a bare `!` negates nothing.
-/

namespace DebugTree

/-- One pattern of a skip list. -/
structure CompiledGlob where
  /-- The positive glob that the pattern came from. -/
  glob : String
  /-- The pattern, with the negations that followed the glob. -/
  pattern : Pattern
  deriving DecidableEq

namespace CompiledGlob

/-- The text of the pattern without its anchor. -/
def body (g : CompiledGlob) : String :=
  String.ofList g.pattern.body

/-- The text of the anchored pattern, as the runtime takes it. -/
def source (g : CompiledGlob) : String :=
  String.ofList g.pattern.source

/-- The pattern matches a text, without regard to case. -/
def isMatch (g : CompiledGlob) (text : String) : Bool :=
  g.pattern.accepts Text.simpleFold text.toList

/-- The pattern no longer matches what an exception matches. -/
def except (exception : Pattern) (g : CompiledGlob) : CompiledGlob :=
  { g with pattern := .seq (.notAhead exception) g.pattern }

end CompiledGlob

namespace Glob

/-- The patterns so far, after one more entry of the list. -/
def addEntry (sp : Spelling) (done : List CompiledGlob) (entry : String) : List CompiledGlob :=
  match entry.toList with
  | '!' :: [] => done
  | '!' :: negated => done.map (·.except (pattern sp negated))
  | positive => done ++ [⟨entry, pattern sp positive⟩]

/-- The patterns of a list of globs. -/
def compile (sp : Spelling) (entries : List String) : List CompiledGlob :=
  entries.foldl (addEntry sp) []

@[simp] theorem compile_nil (sp : Spelling) : compile sp [] = [] := rfl

/-- One more entry at the end acts on what the list compiles to. -/
theorem compile_append_singleton (sp : Spelling) (entries : List String) (entry : String) :
    compile sp (entries ++ [entry]) = addEntry sp (compile sp entries) entry := by
  simp [compile]

end Glob
end DebugTree
