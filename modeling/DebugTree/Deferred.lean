/-!
# Deferred values

A value that somebody else will supply, once.  Any number of callers may wait for it.  The first
settlement counts, later ones are without effect, and giving up the deferred value before it is
settled lets every caller down instead of keeping them waiting.

What a caller gets is a function of the deferred value alone (`outcome?`), so it cannot matter
whether the caller came before the settlement or after it.
-/

namespace DebugTree

/-- What has become of a deferred value. -/
inductive Settlement (α : Type) where
  | pending
  | resolved (value : α)
  | rejected (reason : String)
  deriving DecidableEq

/-- A value to be supplied once. -/
structure Deferred (α : Type) where
  settlement : Settlement α
  /-- Nobody can settle it any more. -/
  dropped : Bool
  deriving DecidableEq

namespace Deferred

variable {α : Type}

/-- A deferred value that is open. -/
def pending : Deferred α := ⟨.pending, false⟩

instance : Inhabited (Deferred α) := ⟨pending⟩

/-- Something has become of it. -/
def isSettled (d : Deferred α) : Bool :=
  match d.settlement with
  | .pending => false
  | _ => true

/-- The value after an attempt to settle it; with whether the attempt counted. -/
def settle (d : Deferred α) (s : Settlement α) : Bool × Deferred α :=
  if d.isSettled then (false, d) else (true, { d with settlement := s })

/-- Supply the value. -/
def resolve (d : Deferred α) (value : α) : Bool × Deferred α :=
  d.settle (.resolved value)

/-- Refuse the value. -/
def reject (d : Deferred α) (reason : String) : Bool × Deferred α :=
  d.settle (.rejected reason)

/-- Give the value up. -/
def drop (d : Deferred α) : Deferred α :=
  { d with dropped := true }

/-- The reason that callers get for a value given up. -/
def droppedReason : String := "dropped before settling"

/-- What a waiting caller gets, as soon as there is something to get. -/
def outcome? (d : Deferred α) : Option (Except String α) :=
  match d.settlement with
  | .resolved value => some (.ok value)
  | .rejected reason => some (.error reason)
  | .pending => if d.dropped then some (.error droppedReason) else none

end Deferred

/-! ## Callers -/

/-- A deferred value together with the callers that still wait for it. -/
structure Awaited (α : Type) where
  deferred : Deferred α
  callers : List String

namespace Awaited

variable {α : Type}

/-- An open value for which nobody waits. -/
def pending : Awaited α := ⟨.pending, []⟩

/-- One more caller waits. -/
def wait (a : Awaited α) (caller : String) : Awaited α :=
  { a with callers := a.callers ++ [caller] }

/-- The callers that get something now, and what is left. -/
def serve (a : Awaited α) : List (String × Except String α) × Awaited α :=
  match a.deferred.outcome? with
  | some o => (a.callers.map fun c => (c, o), { a with callers := [] })
  | none => ([], a)

end Awaited
end DebugTree
