import DebugTree.Policy.Basic

/-!
# Explicit choices

A user who skips or un-skips one file edits the list of globs.  Entries that name the file go
first, positive and negated ones alike; then an entry is appended only if the rest of the list
does not already decide as the user wants.  So toggling to and fro does not make the list grow,
and a list that already agrees stays as it was.

One file has several spellings, the URL and the decoded path.  One positive entry is enough to
skip it under either, but each spelling needs a negation of its own.
-/

namespace DebugTree
namespace SkipPolicy

/-- The entry without its negation mark. -/
def unmarked (entry : String) : String :=
  match entry.toList with
  | '!' :: rest => String.ofList rest
  | _ => entry

/-- The entry that takes a literal out. -/
def negation (literal : String) : String :=
  String.ofList ('!' :: literal.toList)

/-- The list without entries that name one of the spellings. -/
def withoutLiterals (globs : GlobList) (literals : List String) : GlobList :=
  globs.retain fun entry => !literals.contains (unmarked entry)

/-- The list after an explicit choice.  `matches` asks a list about the file. -/
def editLiterals (globs : GlobList) (literals : List String) (skipped : Bool)
    (isMatch : GlobList → Bool) : GlobList :=
  let rest := withoutLiterals globs literals
  if isMatch rest = skipped then rest
  else if skipped then (literals.take 1).foldl GlobList.push rest
  else (literals.map negation).foldl GlobList.push rest

/-- The spellings of a file. -/
def spellings (url : String) : List String :=
  url :: (FileUrl.toPath? url).toList

/-- The policy after an explicit choice about a module inside the runtime. -/
def chooseInternal (p : SkipPolicy) (url : String) (skipped : Bool) : SkipPolicy :=
  let name := moduleName url
  let globs := p.nodeInternals.getD (.ofList (.ofCase p.pathCase) [])
  { p with nodeInternals := some (editLiterals globs [name] skipped (·.isMatch name)) }

/-- The policy after an explicit choice about a file. -/
def chooseAuthored (p : SkipPolicy) (url : String) (skipped : Bool) : SkipPolicy :=
  { p.clearOverride url with
    authored :=
      editLiterals p.authored (spellings url) skipped (matchesEitherForm p.pathCase · url) }

/-- The policy after an explicit choice about a URL. -/
def setExplicitSkip (p : SkipPolicy) (url : String) (skipped : Bool) : SkipPolicy :=
  if p.isNodeInternal url then p.chooseInternal url skipped else p.chooseAuthored url skipped

/-- The policy after one choice after the other about a URL. -/
def chooseAll (p : SkipPolicy) (url : String) (choices : List Bool) : SkipPolicy :=
  choices.foldl (fun q wish => q.setExplicitSkip url wish) p

/-- The globs that a choice about a URL edits. -/
def editedGlobs (p : SkipPolicy) (url : String) : List String :=
  if p.isNodeInternal url then (p.nodeInternals.map (·.globs)).getD [] else p.authored.globs

/-- An explicit choice changes the list of globs. -/
def explicitSkipChanges (p : SkipPolicy) (url : String) (skipped : Bool) : Bool :=
  (p.setExplicitSkip url skipped).editedGlobs url != p.editedGlobs url

end SkipPolicy
end DebugTree
