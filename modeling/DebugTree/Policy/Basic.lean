import DebugTree.FileUrl
import DebugTree.Glob.List
import DebugTree.Index

/-!
# Skip policies

A skip policy says which URLs the stepping engine steps over.  It answers in this order:

1. a URL that names a module inside the runtime is tested against the globs for such modules,
   and against nothing else;
2. a decision recorded for the URL wins outright;
3. otherwise the URL is skipped exactly if an authored glob matches it.

Two lists of globs are kept apart throughout.  Entries marked `<node_internals>/` go to the list
for runtime modules, all others to the authored list, and no entry of one list has any effect on
what the other decides.

As long as the names of the runtime's builtin modules are not known, no runtime module is skipped.
-/

namespace DebugTree

/-- The current skip configuration of one target. -/
structure SkipPolicy where
  /-- Globs for files. -/
  authored : GlobList
  /-- Globs for modules inside the runtime, if there are any. -/
  nodeInternals : Option GlobList
  /-- Decisions under normalized URLs. -/
  overrides : Index String Bool
  /-- The names of the runtime's builtin modules in ascending order, once they are known. -/
  builtins : Option (List String)
  pathCase : PathCase

namespace SkipPolicy

/-- Marks a glob as one for modules inside the runtime. -/
def nodeInternalsMarker : String := "<node_internals>/"

/-- The scheme of URLs of builtin modules. -/
def nodeScheme : String := "node:"

/-! ## Construction -/

/-- The policy with these globs and nothing else. -/
def ofGlobs (authored : List String) (nodeInternals : Option (List String))
    (pathCase : PathCase) : SkipPolicy where
  authored := .ofList (.ofCase pathCase) authored
  nodeInternals := nodeInternals.map (.ofList (.ofCase pathCase))
  overrides := .empty
  builtins := none
  pathCase := pathCase

/-- What a skip entry is for: a glob for runtime modules without its marker, or the entry as it
stands.  A negation stays a negation. -/
def route (entry : String) : String ⊕ String :=
  match entry.toList with
  | '!' :: body =>
    match Text.stripPrefix? nodeInternalsMarker.toList body with
    | some glob => .inl (String.ofList ('!' :: glob))
    | none => .inr entry
  | body =>
    match Text.stripPrefix? nodeInternalsMarker.toList body with
    | some glob => .inl (String.ofList glob)
    | none => .inr entry

/-- The globs for runtime modules among skip entries. -/
def nodeInternalEntries (entries : List String) : List String :=
  entries.filterMap fun e => (route e).getLeft?

/-- The globs for files among skip entries. -/
def authoredEntries (entries : List String) : List String :=
  entries.filterMap fun e => (route e).getRight?

/-- The policy that a user's skip entries make. -/
def ofSkipFiles (entries : List String) (pathCase : PathCase) : SkipPolicy :=
  let internals := nodeInternalEntries entries
  ofGlobs (authoredEntries entries) (if internals.isEmpty then none else some internals) pathCase

/-! ## URLs -/

/-- The URL with forward slashes, and in lower case where case does not count. -/
def normalizeText (pathCase : PathCase) (url : String) : String :=
  let url := String.ofList (Text.replaceChar '\\' '/' url.toList)
  if pathCase.isInsensitive then Text.lowercase url else url

/-- The form of a URL under which decisions are recorded. -/
def normalize (p : SkipPolicy) (url : String) : String :=
  normalizeText p.pathCase url

/-- The name of a module without the scheme. -/
def moduleName (url : String) : String :=
  match Text.stripPrefix? nodeScheme.toList url.toList with
  | some name => String.ofList name
  | none => url

/-- The shape of a module inside the runtime that has no name of its own. -/
def internalModule : Pattern :=
  .sequence [.literal "internal/".toList, .atLeastOne .inLine, .literal ".js".toList, .finish]

/-- The URL names a module inside the runtime. -/
def isNodeInternal (p : SkipPolicy) (url : String) : Bool :=
  (Text.stripPrefix? nodeScheme.toList url.toList).isSome
    || internalModule.accepts id url.toList
    || p.builtins.any (·.contains url)

/-! ## Decisions -/

/-- Some glob of the list matches the URL, or the decoded path of a file URL. -/
def matchesEitherForm (pathCase : PathCase) (globs : GlobList) (url : String) : Bool :=
  globs.isMatch (normalizeText pathCase url)
    || (FileUrl.toPath? url).any fun path => globs.isMatch (normalizeText pathCase path)

/-- The authored globs match the URL, whatever has been recorded for it. -/
def testAuthored (p : SkipPolicy) (url : String) : Bool :=
  matchesEitherForm p.pathCase p.authored url

/-- The globs for runtime modules match the module; never before the builtins are known. -/
def testNodeInternal (p : SkipPolicy) (url : String) : Bool :=
  p.builtins.isSome && p.nodeInternals.any (·.isMatch (moduleName url))

/-- The decision recorded for a URL. -/
def overrideFor (p : SkipPolicy) (url : String) : Option Bool :=
  p.overrides.get? (p.normalize url)

/-- The stepping engine steps over the URL. -/
def isSkipped (p : SkipPolicy) (url : String) : Bool :=
  if p.isNodeInternal url then p.testNodeInternal url
  else match p.overrideFor url with
    | some skipped => skipped
    | none => p.testAuthored url

/-! ## Records -/

/-- The policy with a decision recorded for a URL. -/
def setOverride (p : SkipPolicy) (url : String) (skipped : Bool) : SkipPolicy :=
  { p with overrides := p.overrides.insert (p.normalize url) skipped }

/-- The policy without a decision for a URL. -/
def clearOverride (p : SkipPolicy) (url : String) : SkipPolicy :=
  { p with overrides := p.overrides.erase (p.normalize url) }

/-- A name in its place among ascending names, once. -/
def insertName (name : String) : List String → List String
  | [] => [name]
  | n :: ns =>
    if name < n then name :: n :: ns
    else if n < name then n :: insertName name ns
    else n :: ns

/-- The policy once the builtin modules are known. -/
def setBuiltins (p : SkipPolicy) (names : List String) : SkipPolicy :=
  { p with builtins := some (names.foldl (fun ns n => insertName n ns) []) }

/-- What is written into a policy after it has been made. -/
inductive Note where
  /-- A decision is recorded for a URL. -/
  | decide (url : String) (skipped : Bool)
  | clear (url : String)
  /-- The names of the builtin modules become known. -/
  | discover (names : List String)

/-- The policy with one more note. -/
def note (p : SkipPolicy) : Note → SkipPolicy
  | .decide url skipped => p.setOverride url skipped
  | .clear url => p.clearOverride url
  | .discover names => p.setBuiltins names

/-- The policy after several notes. -/
def noted (p : SkipPolicy) (notes : List Note) : SkipPolicy :=
  notes.foldl note p

end SkipPolicy
end DebugTree
