import DebugTree.Run

/-!
# Moments of a run

What is known of a run is known step by step: the first actions lead to a state, the next one leads
on from there, and what is seen of it is added to what was seen before.  All of this is stated once,
for whatever acts; the machines only give a name to the state that their first actions lead to.
-/

namespace DebugTree

variable {σ α ε : Type} {act : σ → α → σ × List ε} {w : σ} {actions : List α} {n : Nat} {a : α}

theorem runOf_append (act : σ → α → σ × List ε) (w : σ) (first second : List α) :
    runOf act w (first ++ second) =
      ((runOf act (runOf act w first).1 second).1,
        (runOf act w first).2 ++ (runOf act (runOf act w first).1 second).2) := by
  induction first generalizing w with
  | nil => rfl
  | cons a rest ih => simp only [List.cons_append, runOf, ih, List.append_assoc]

/-- One action more leads one step on. -/
theorem fst_runOf_take_succ (hn : actions[n]? = some a) :
    (runOf act w (actions.take (n + 1))).1 = (act (runOf act w (actions.take n)).1 a).1 := by
  rw [List.take_add_one, hn, Option.toList_some, runOf_append]
  rfl

/-- What is seen of one action more is added to what was seen. -/
theorem snd_runOf_take_succ (hn : actions[n]? = some a) :
    (runOf act w (actions.take (n + 1))).2 =
      (runOf act w (actions.take n)).2 ++ (act (runOf act w (actions.take n)).1 a).2 := by
  rw [List.take_add_one, hn, Option.toList_some, runOf_append]
  exact congrArg ((runOf act w (actions.take n)).2 ++ ·) (List.append_nil _)

/-- After the last action nothing happens. -/
theorem runOf_take_succ_of_none (hn : actions[n]? = none) :
    runOf act w (actions.take (n + 1)) = runOf act w (actions.take n) := by
  rw [List.take_add_one, hn, Option.toList_none, List.append_nil]

/-- **What every action keeps, every run keeps.** -/
theorem runOf_induction {P : σ → Prop} (hw : P w) (hstep : ∀ w a, P w → P (act w a).1)
    (actions : List α) : P (runOf act w actions).1 := by
  induction actions generalizing w with
  | nil => exact hw
  | cons a rest ih => exact ih (hstep w a hw)

end DebugTree
