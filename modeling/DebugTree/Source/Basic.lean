import DebugTree.Identity

/-!
# Sources

A source is either a script that the runtime runs (a *compiled* source) or a file that a source
map of such a script mentions (an *authored* source).  Source maps nest: an authored source may
have a source map of its own.
-/

namespace DebugTree

/-- A place in a text, lines and columns counted from zero.  Both fit into 32 bits. -/
structure Position where
  line : Nat
  column : Nat
  deriving DecidableEq

namespace Position

/-- The first place of a text. -/
def start : Position := ⟨0, 0⟩

/-- One place is not after another: by line, then by column. -/
def le (a b : Position) : Bool :=
  decide (a.line < b.line) || (decide (a.line = b.line) && decide (a.column ≤ b.column))

/-- The later of two places. -/
def later (a b : Position) : Position :=
  if a.le b then b else a

theorem le_iff {a b : Position} :
    a.le b = true ↔ a.line < b.line ∨ (a.line = b.line ∧ a.column ≤ b.column) := by
  simp [le]

theorem le_refl (a : Position) : a.le a = true := by
  simp [le_iff]

theorem le_trans {a b c : Position} (hab : a.le b = true) (hbc : b.le c = true) :
    a.le c = true := by
  rw [le_iff] at *
  omega

theorem le_total (a b : Position) : a.le b = true ∨ b.le a = true := by
  rw [le_iff, le_iff]
  omega

theorem le_antisymm {a b : Position} (hab : a.le b = true) (hba : b.le a = true) : a = b := by
  rw [le_iff] at *
  cases a
  cases b
  simp only [Position.mk.injEq] at *
  omega

end Position

/-- A source, known by its number and its URL. -/
structure Source where
  reference : SourceReference
  url : String
  deriving DecidableEq

/-- A source as a source map lists it. -/
structure AuthoredSource where
  source : Source
  /-- The last place of the file; the first one is always the start. -/
  finish : Position
  deriving DecidableEq

/-- The URL of the file. -/
def AuthoredSource.url (a : AuthoredSource) : String :=
  a.source.url

end DebugTree
