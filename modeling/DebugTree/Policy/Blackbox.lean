import DebugTree.Policy.Basic

/-!
# Blackbox patterns

The runtime has a list of patterns of its own, for whole targets, and does not ask back.  The list
holds the patterns of the authored globs and then, if there are globs for runtime modules and the
builtins are known, the shape of unnamed internal modules and both spellings of every builtin that
the globs match, in the order of their names.
-/

namespace DebugTree
namespace SkipPolicy

/-- The patterns of one builtin module: its name, and its name under the scheme. -/
def builtinPatterns (name : String) : List Pattern :=
  [.seq (.literal name.toList) .finish,
   .seq (.literal (nodeScheme.toList ++ name.toList)) .finish]

/-- The patterns for modules inside the runtime. -/
def internalPatterns (globs : GlobList) (names : List String) : List Pattern :=
  internalModule :: (names.filter globs.isMatch).flatMap builtinPatterns

/-- The target-wide list of patterns. -/
def blackbox (p : SkipPolicy) : List Pattern :=
  p.authored.compiled.map (·.pattern) ++
    match p.nodeInternals, p.builtins with
    | some globs, some names => if globs.isEmpty then [] else internalPatterns globs names
    | _, _ => []

/-- The target-wide list of patterns as the runtime takes it. -/
def blackboxSources (p : SkipPolicy) : List String :=
  p.blackbox.map fun q => String.ofList q.source

end SkipPolicy
end DebugTree
