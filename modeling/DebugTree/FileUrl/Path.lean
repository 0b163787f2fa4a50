import DebugTree.FileUrl.Host

/-!
# Paths of file URLs

A path is built up segment by segment.  `.` is dropped and `..` takes the last segment back, both
also where their dots are percent-encoded; a backslash separates segments as a slash does.  A
segment that is a drive letter at the root is never taken back, is written with a colon even where
the URL has a bar, and makes the URL a local one whatever host it names.

The path under construction is a list of characters, as later segments look at earlier ones.
-/

namespace DebugTree
namespace FileUrl

/-! ## Drive letters -/

def isLetter (c : Char) : Bool :=
  c.isAlpha

/-- A letter and a colon or bar. -/
def isDrive : List Char → Bool
  | [a, b] => isLetter a && (b == ':' || b == '|')
  | _ => false

/-- A letter and a colon. -/
def isPlainDrive : List Char → Bool
  | [a, b] => isLetter a && b == ':'
  | _ => false

/-- A drive letter that is the whole of a segment. -/
def startsWithDrive : List Char → Bool
  | [a, b] => isDrive [a, b]
  | a :: b :: c :: _ => isDrive [a, b] && ['/', '\\', '?', '#'].contains c
  | _ => false

/-! ## Taking a segment back -/

/-- A list cut before its last slash: the front, and the rest with the slash. -/
def cutAtLastSlash (cs : List Char) : Option (List Char × List Char) :=
  let after := (cs.reverse.takeWhile (· != '/')).reverse
  let front := cs.take (cs.length - after.length)
  if front.isEmpty then none else some (front.dropLast, '/' :: after)

/-- The final slash of a path may go: there is another one before it, and no drive letter
between the two. -/
def finalSlashMayGo (path : List Char) : Bool :=
  match cutAtLastSlash path.dropLast with
  | some (_, _ :: after) => !startsWithDrive (after ++ ['/'])
  | _ => false

/-- The path without its last segment, unless that is a drive letter. -/
def dropSegment (path : List Char) : List Char :=
  if isPlainDrive path then path
  else match cutAtLastSlash path with
    | some (front, _ :: after) => if isPlainDrive after then path else front ++ ['/']
    | _ => path

/-! ## Segments -/

/-- A percent-encoded dot counts as a dot. -/
def plainDots : List Char → List Char
  | '%' :: '2' :: 'e' :: rest => '.' :: plainDots rest
  | '%' :: '2' :: 'E' :: rest => '.' :: plainDots rest
  | c :: rest => c :: plainDots rest
  | [] => []

/-- A path under construction. -/
structure Walk where
  path : List Char
  /-- A drive letter has been met at the root. -/
  drive : Bool

/-- A slash at the end, if there is none. -/
def withSlash (path : List Char) : List Char :=
  if path.getLast? = some '/' then path else path ++ ['/']

/-- One more segment, with the slash after it if there is one. -/
def Walk.segment (w : Walk) (seg : List Char) (slash : Bool) : Walk :=
  let tail := if slash then ['/'] else []
  if plainDots seg = ['.', '.'] then
    let shorter := w.path.getLast? = some '/' && finalSlashMayGo w.path
    let path := dropSegment (if shorter then w.path.dropLast else w.path)
    { w with path := if slash then withSlash path else path }
  else if plainDots seg = ['.'] then { w with path := withSlash w.path }
  else if w.path.length = 1 && isDrive seg then
    ⟨w.path ++ seg.take 1 ++ [':'] ++ tail, true⟩
  else { w with path := w.path ++ seg ++ tail }

def isSlash (c : Char) : Bool :=
  c == '/' || c == '\\'

/-- The characters that end a path: a query or a fragment follows. -/
def endsPath (c : Char) : Bool :=
  c == '?' || c == '#'

/-- All segments of a text, the first of which has begun with `seg`. -/
def Walk.segments (w : Walk) (seg : List Char) : List Char → Walk
  | [] => w.segment seg false
  | c :: rest =>
    if isSlash c then (w.segment seg true).segments [] rest
    else if endsPath c then w.segment seg false
    else w.segments (seg ++ [c]) rest

/-- The path that a walk over a text comes to: it begins with exactly one slash. -/
def walk (start : List Char) (cs : List Char) : Walk :=
  let w := (Walk.mk start false).segments [] cs
  { w with path := '/' :: w.path.dropWhile (· == '/') }

end FileUrl
end DebugTree
