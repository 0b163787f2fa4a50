import DebugTree.Text.Splitting
import DebugTree.Text.Utf8

/-!
# Directories and files

As much of a file system as the opening of a log file can show: which directories there are below
some directory, and which regular files.  A place is a path of names below it, and a path that
leads out of it is taken to lead to directories that are there.

A file is opened for appending in two steps: the directories on the way to it are created where
they are missing, and then the file is, unless it is there.  Nothing can be created below a
regular file, and a path that ends in a slash or in dots names no regular file.
-/

namespace DebugTree

/-- A place below a directory, outermost name first. -/
abbrev Place := List String

/-- What is there. -/
structure FileTree where
  directories : List Place
  files : List Place
  deriving DecidableEq

namespace FileTree

/-- Where a path leads out of the tree. -/
def outside : String := ".."

def isDirectory (t : FileTree) (p : Place) : Bool :=
  p.all (· == outside) || t.directories.contains p

def isFile (t : FileTree) (p : Place) : Bool :=
  t.files.contains p

/-- The longest name in octets. -/
def nameLimit : Nat := 255

/-- A name that something can have. -/
def isName (name : List Char) : Bool :=
  !name.contains '\x00' && (Text.Utf8.encode name).length ≤ nameLimit

/-- One part of a path followed from a place, creating a directory that is missing. -/
def enter (t : FileTree) (here : Place) (part : List Char) : Option (FileTree × Place) :=
  if part = [] ∨ part = ['.'] then some (t, here)
  else if part = ['.', '.'] then
    some (t, if here.all (· == outside) then here ++ [outside] else here.dropLast)
  else
    let there := here ++ [String.ofList part]
    if !isName part || t.isFile there then none
    else if t.isDirectory there then some (t, there)
    else some ({ t with directories := t.directories ++ [there] }, there)

/-- Several parts of a path, one after the other. -/
def enterAll : FileTree → Place → List (List Char) → Option (FileTree × Place)
  | t, here, [] => some (t, here)
  | t, here, part :: parts => do
    let (t, here) ← t.enter here part
    enterAll t here parts

/-- The last name of a path; nothing if it ends in a slash or in dots. -/
def lastName? (path : List Char) : Option (List Char) :=
  (Text.splitOn '/' path).getLast?.filter fun p => !(p = [] ∨ p = ['.'] ∨ p = ['.', '.'])

/-- The directories on the way to a path: those before its last part that says anything. -/
def wayTo (path : List Char) : List (List Char) :=
  let said := (Text.splitOn '/' path).reverse.dropWhile fun p => p = [] ∨ p = ['.']
  (said.drop 1).reverse

/-- A file opened for appending: whether that works, and what is there afterwards. -/
def append (t : FileTree) (path : String) : Bool × FileTree :=
  match t.enterAll [] (wayTo path.toList) with
  | none => (false, t)
  | some (t, here) =>
    match lastName? path.toList with
    | none => (false, t)
    | some name =>
      let there := here ++ [String.ofList name]
      if !isName name || t.isDirectory there then (false, t)
      else if t.isFile there then (true, t)
      else (true, { t with files := t.files ++ [there] })

end FileTree
end DebugTree
