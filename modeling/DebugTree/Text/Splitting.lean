/-!
# Splitting a text

A text is split at every separator, so that there is always one part more than there are
separators and a text without any is its own only part.
-/

namespace DebugTree
namespace Text

variable {α : Type} [DecidableEq α]

/-- The parts of a list between its separators. -/
def splitOn (sep : α) : List α → List (List α)
  | [] => [[]]
  | c :: cs =>
    if c = sep then [] :: splitOn sep cs
    else match splitOn sep cs with
      | [] => [[c]]
      | part :: parts => (c :: part) :: parts

/-- The parts put together again, a separator between every two of them. -/
def joinWith (sep : α) : List (List α) → List α
  | [] => []
  | [part] => part
  | part :: parts => part ++ sep :: joinWith sep parts

theorem splitOn_ne_nil (sep : α) (cs : List α) : splitOn sep cs ≠ [] := by
  cases cs with
  | nil => simp [splitOn]
  | cons c cs =>
    simp only [splitOn]
    split
    · simp
    · split <;> simp

@[simp] theorem joinWith_splitOn (sep : α) (cs : List α) :
    joinWith sep (splitOn sep cs) = cs := by
  induction cs with
  | nil => rfl
  | cons c cs ih =>
    simp only [splitOn]
    split
    · rename_i h
      subst h
      cases hs : splitOn c cs with
      | nil => exact absurd hs (splitOn_ne_nil c cs)
      | cons part parts => simp [joinWith, ← hs, ih]
    · cases hs : splitOn sep cs with
      | nil => exact absurd hs (splitOn_ne_nil sep cs)
      | cons part parts =>
        rw [hs] at ih
        cases parts with
        | nil => simp [joinWith] at ih ⊢; exact ih
        | cons p ps => simp [joinWith] at ih ⊢; exact ih

omit [DecidableEq α] in
theorem joinWith_cons (sep : α) (part : List α) {parts : List (List α)} (h : parts ≠ []) :
    joinWith sep (part :: parts) = part ++ sep :: joinWith sep parts := by
  cases parts with
  | nil => exact absurd rfl h
  | cons p ps => rfl

/-- Every occurrence of a character becomes another character. -/
def replaceChar (old new : Char) (cs : List Char) : List Char :=
  cs.map fun c => if c = old then new else c

/-- The rest of a list after a given beginning. -/
def stripPrefix? : List α → List α → Option (List α)
  | [], cs => some cs
  | p :: ps, c :: cs => if p = c then stripPrefix? ps cs else none
  | _ :: _, [] => none

theorem stripPrefix?_eq_some {ps cs rest : List α} :
    stripPrefix? ps cs = some rest ↔ cs = ps ++ rest := by
  induction ps generalizing cs with
  | nil => simp [stripPrefix?, eq_comm]
  | cons p ps ih =>
    cases cs with
    | nil => simp [stripPrefix?]
    | cons c cs =>
      by_cases h : p = c
      · simp [stripPrefix?, h, ih]
      · simp [stripPrefix?, h, Ne.symm h]

end Text
end DebugTree
