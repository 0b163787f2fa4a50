import DebugTree.Deferred.Scene
import Mathlib.Data.List.Basic

/-!
# What becomes of a deferred value

A caller that is asleep has to be woken by somebody.  So nobody may be asleep when there is
something to get (`Caller.Suits`), and this is where it matters that an attempt to settle tells the
truth about having counted.

What everybody gets is fixed by what the owner does first.  Each step keeps the value, the answers
to the owner and the callers consistent with it (`Consistent.act`).
-/

namespace DebugTree
namespace Deferred

variable {α : Type} {d : Deferred α}

/-! ## Attempts to settle -/

theorem settle_of_isSettled (h : d.isSettled = true) (s : Settlement α) :
    d.settle s = (false, d) := by
  rw [settle, if_pos h]

theorem settle_of_not_isSettled (h : ¬ d.isSettled = true) (s : Settlement α) :
    d.settle s = (true, { d with settlement := s }) := by
  rw [settle, if_neg h]

theorem isSettled_iff : d.isSettled = true ↔ d.settlement ≠ .pending := by
  unfold isSettled
  cases d.settlement <;> simp

theorem isSettled_settle (d : Deferred α) {s : Settlement α} (hs : s ≠ .pending) :
    (d.settle s).2.isSettled = true := by
  rw [settle]
  split
  · assumption
  · exact isSettled_iff.mpr hs

theorem settlement_resolve_of_pending (h : d.settlement = .pending) (value : α) :
    (d.resolve value).2.settlement = .resolved value := by
  have hopen : ¬ d.isSettled = true := fun hsettled => isSettled_iff.mp hsettled h
  rw [resolve, settle, if_neg hopen]

/-! ## Outcomes -/

/-- The settlement that gives callers an outcome. -/
def settlementOf : Except String α → Settlement α
  | .ok value => .resolved value
  | .error reason => .rejected reason

theorem isSettled_settlementOf (d : Deferred α) (o : Except String α) :
    isSettled { d with settlement := settlementOf o } = true := by
  cases o <;> rfl

theorem outcome?_settlementOf (d : Deferred α) (o : Except String α) :
    outcome? { d with settlement := settlementOf o } = some o := by
  cases o <;> rfl

/-- There is nothing to get as long as the value is open. -/
theorem outcome?_eq_none_iff : d.outcome? = none ↔ d.isSettled = false ∧ d.dropped = false := by
  unfold outcome? isSettled
  cases d.settlement <;> simp

theorem isSome_outcome?_of_isSettled (h : d.isSettled = true) : d.outcome?.isSome := by
  rw [Option.isSome_iff_ne_none, Ne, outcome?_eq_none_iff, h]
  exact fun hopen => Bool.noConfusion hopen.1

theorem isSome_outcome?_of_dropped (h : d.dropped = true) : d.outcome?.isSome := by
  rw [Option.isSome_iff_ne_none, Ne, outcome?_eq_none_iff, h]
  exact fun hopen => Bool.noConfusion hopen.2

/-- Giving the value up takes nothing away from callers. -/
theorem outcome?_drop (d : Deferred α) :
    d.drop.outcome? = d.outcome?.or (some (.error droppedReason)) := by
  unfold drop outcome?
  cases d.settlement with
  | pending => cases d.dropped <;> rfl
  | resolved | rejected => rfl

/-! ## Callers -/

namespace Caller

/-- The caller does as it should, given what there is to get: it sleeps only if there is nothing,
and what it has got is this. -/
def Suits (o? : Option (Except String α)) : Caller α → Prop
  | .ready => True
  | .asleep => o? = none
  | .finished o => o? = some o

variable {c : Caller α} {o? : Option (Except String α)} {o : Except String α}

theorem Suits.wake (h : c.Suits o?) (hlater : o? = none ∨ o? = some o) : c.wake.Suits (some o) := by
  cases c with
  | ready | asleep => trivial
  | finished o' => exact hlater.elim (fun hnone => by cases hnone.symm.trans h) fun ho => ho ▸ h

theorem Suits.look (h : c.Suits d.outcome?) : (c.look d).Suits d.outcome? := by
  cases c with
  | ready =>
    rw [Caller.look]
    split
    · next ho => exact ho
    · next hnone => exact hnone
  | asleep | finished => exact h

theorem suits_none_iff : c.Suits none ↔ c = .ready ∨ c = .asleep := by
  cases c <;> simp [Suits]

theorem suits_some_iff : c.Suits (some o) ↔ c = .ready ∨ c = .finished o := by
  cases c <;> simp [Suits, eq_comm]

/-- Whoever is run has finished, as soon as there is something to get. -/
theorem Suits.look_eq (h : c.Suits (some o)) (ho : d.outcome? = some o) :
    c.look d = .finished o := by
  rcases suits_some_iff.mp h with rfl | rfl
  · rw [Caller.look, ho]
  · rfl

end Caller

/-! ## Steps -/

namespace Scene

theorem run_append (w : Scene α) (actions later : List (Action α)) :
    w.run (actions ++ later) = (w.run actions).run later :=
  List.foldl_append

theorem attempt_of_dropped {w : Scene α} (h : w.deferred.dropped = true)
    (settle : Deferred α → Bool × Deferred α) : w.attempt settle = w := by
  rw [attempt, if_pos h]

theorem attempt_of_isSettled {w : Scene α} (hdropped : ¬ w.deferred.dropped = true)
    (h : w.deferred.isSettled = true) (s : Settlement α) :
    w.attempt (·.settle s) = { w with verdicts := w.verdicts ++ [false] } := by
  rw [attempt, if_neg hdropped, settle_of_isSettled h]
  rfl

theorem attempt_of_not_isSettled {w : Scene α} (hdropped : ¬ w.deferred.dropped = true)
    (h : ¬ w.deferred.isSettled = true) (s : Settlement α) :
    w.attempt (·.settle s) =
      ⟨{ w.deferred with settlement := s }, w.callers.map .wake, w.verdicts ++ [true]⟩ := by
  rw [attempt, if_neg hdropped, settle_of_not_isSettled h]
  rfl

theorem act_of_offer {a : Action α} {o : Except String α} (ha : a.offer? = some o) (w : Scene α) :
    w.act a = w.attempt (·.settle (settlementOf o)) := by
  cases a <;> cases ha <;> rfl

end Scene

/-! ## What the owner has done -/

theorem ending?_append (actions later : List (Action α)) :
    ending? (actions ++ later) = (ending? actions).or (ending? later) := by
  induction actions with
  | nil => rfl
  | cons a actions ih =>
    cases a with
    | resolve | reject | drop => rfl
    | wait | look => exact ih

theorem whileOwned_concat (actions : List (Action α)) (a : Action α) :
    whileOwned (actions ++ [a]) =
      whileOwned actions ++ if actions.any Action.isDrop || a.isDrop then [] else [a] := by
  induction actions with
  | nil => cases a <;> rfl
  | cons b actions ih =>
    cases hb : b.isDrop with
    | true => simp [whileOwned, hb]
    | false => simpa [whileOwned, hb] using ih

theorem attempts_concat (actions : List (Action α)) (a : Action α) :
    attempts (actions ++ [a]) =
      attempts actions + if actions.any Action.isDrop then 0 else a.offer?.isSome.toNat := by
  rw [attempts, attempts, whileOwned_concat, List.countP_append]
  cases actions.any Action.isDrop <;> cases a <;> rfl

theorem waits_concat (actions : List (Action α)) (a : Action α) :
    waits (actions ++ [a]) =
      waits actions + if actions.any Action.isDrop then 0 else a.isWait.toNat := by
  rw [waits, waits, whileOwned_concat, List.countP_append]
  cases actions.any Action.isDrop <;> cases a <;> rfl

section Offers

variable {actions : List (Action α)} {a : Action α} {o : Except String α}

theorem attempts_concat_of_offer (ha : a.offer? = some o)
    (howned : actions.any Action.isDrop = false) :
    attempts (actions ++ [a]) = attempts actions + 1 := by
  rw [attempts_concat, howned, ha]
  rfl

theorem waits_concat_of_offer (ha : a.offer? = some o) :
    waits (actions ++ [a]) = waits actions := by
  have hwait : a.isWait = false := by cases a <;> cases ha <;> rfl
  simp [waits_concat, hwait]

theorem any_isDrop_concat_of_offer (ha : a.offer? = some o) :
    (actions ++ [a]).any Action.isDrop = actions.any Action.isDrop := by
  have hdrop : a.isDrop = false := by cases a <;> cases ha <;> rfl
  simp [hdrop]

theorem ending?_concat_of_offer (ha : a.offer? = some o) :
    ending? (actions ++ [a]) = (ending? actions).or (some o) := by
  have hone : ending? [a] = some o := by cases a <;> cases ha <;> rfl
  rw [ending?_append, hone]

end Offers

/-! ## Consistency -/

/-- The value, the answers to the owner and the callers are as they should be after what has been
done. -/
structure Consistent (done : List (Action α)) (w : Scene α) : Prop where
  outcome : w.deferred.outcome? = ending? done
  dropped : w.deferred.dropped = done.any Action.isDrop
  settled : w.deferred.isSettled = true ↔ attempts done ≠ 0
  verdicts : w.verdicts = (List.replicate (attempts done) false).set 0 true
  callers : w.callers.length = waits done
  suits : ∀ c ∈ w.callers, c.Suits (ending? done)

theorem consistent_start : Consistent [] (Scene.start : Scene α) where
  outcome := rfl
  dropped := rfl
  settled := by simp [Scene.start, pending, isSettled, attempts, whileOwned]
  verdicts := rfl
  callers := rfl
  suits := by simp [Scene.start]

namespace Consistent

variable {done : List (Action α)} {w : Scene α}

/-- After the value has been given up, everything that the owner might do is without effect. -/
theorem of_dropped (h : Consistent done w) (hdropped : w.deferred.dropped = true) (a : Action α) :
    Consistent (done ++ [a]) w := by
  have hany : done.any Action.isDrop = true := h.dropped ▸ hdropped
  have hattempts : attempts (done ++ [a]) = attempts done := by simp [attempts_concat, hany]
  have hending : ending? (done ++ [a]) = ending? done := by
    rw [ending?_append, ← h.outcome]
    exact Option.or_of_isSome (isSome_outcome?_of_dropped hdropped)
  exact
    { outcome := h.outcome.trans hending.symm
      dropped := by simp [hdropped, hany]
      settled := hattempts ▸ h.settled
      verdicts := hattempts ▸ h.verdicts
      callers := by simp [h.callers, waits_concat, hany]
      suits := hending ▸ h.suits }

section Attempts

variable {a : Action α} {o : Except String α}

/-- An attempt to settle what is settled already leaves everything as it is. -/
theorem attempt_again (h : Consistent done w) (ha : a.offer? = some o)
    (hdropped : ¬ w.deferred.dropped = true) (hsettled : w.deferred.isSettled = true) :
    Consistent (done ++ [a]) { w with verdicts := w.verdicts ++ [false] } := by
  have hattempts : attempts (done ++ [a]) = attempts done + 1 :=
    attempts_concat_of_offer ha (h.dropped ▸ Bool.eq_false_iff.mpr hdropped)
  have hpositive : attempts done ≠ 0 := h.settled.mp hsettled
  have hending : ending? (done ++ [a]) = ending? done := by
    rw [ending?_concat_of_offer ha, ← h.outcome]
    exact Option.or_of_isSome (isSome_outcome?_of_isSettled hsettled)
  exact
    { outcome := h.outcome.trans hending.symm
      dropped := h.dropped.trans (any_isDrop_concat_of_offer ha).symm
      settled := by simp [hsettled, hattempts]
      verdicts := by
        rw [h.verdicts, hattempts, List.replicate_succ', List.set_append_left]
        simpa [Nat.pos_iff_ne_zero] using hpositive
      callers := h.callers.trans (waits_concat_of_offer ha).symm
      suits := hending ▸ h.suits }

/-- The first attempt to settle settles, and whoever sleeps is woken. -/
theorem attempt_first (h : Consistent done w) (ha : a.offer? = some o)
    (hdropped : ¬ w.deferred.dropped = true) (hsettled : ¬ w.deferred.isSettled = true) :
    Consistent (done ++ [a]) ⟨{ w.deferred with settlement := settlementOf o },
      w.callers.map .wake, w.verdicts ++ [true]⟩ := by
  have hattempts : attempts (done ++ [a]) = attempts done + 1 :=
    attempts_concat_of_offer ha (h.dropped ▸ Bool.eq_false_iff.mpr hdropped)
  have hzero : attempts done = 0 := by simpa [hsettled] using h.settled
  have hnone : ending? done = none := by
    rw [← h.outcome, outcome?_eq_none_iff]
    exact ⟨Bool.eq_false_iff.mpr hsettled, Bool.eq_false_iff.mpr hdropped⟩
  have hending : ending? (done ++ [a]) = some o := by
    rw [ending?_concat_of_offer ha, hnone, Option.none_or]
  exact
    { outcome := (outcome?_settlementOf _ o).trans hending.symm
      dropped := h.dropped.trans (any_isDrop_concat_of_offer ha).symm
      settled := by simp [isSettled_settlementOf, hattempts]
      verdicts := by simp [h.verdicts, hattempts, hzero]
      callers := by
        rw [List.length_map, waits_concat_of_offer ha]
        exact h.callers
      suits := by
        rw [hending, List.forall_mem_map]
        exact fun c hc => (hnone ▸ h.suits c hc).wake (Or.inl rfl) }

theorem attempt (h : Consistent done w) (ha : a.offer? = some o) :
    Consistent (done ++ [a]) (w.act a) := by
  rw [Scene.act_of_offer ha]
  by_cases hdropped : w.deferred.dropped = true
  · rw [Scene.attempt_of_dropped hdropped]
    exact h.of_dropped hdropped a
  · by_cases hsettled : w.deferred.isSettled = true
    · rw [Scene.attempt_of_isSettled hdropped hsettled]
      exact h.attempt_again ha hdropped hsettled
    · rw [Scene.attempt_of_not_isSettled hdropped hsettled]
      exact h.attempt_first ha hdropped hsettled

end Attempts

theorem wait (h : Consistent done w) : Consistent (done ++ [.wait]) (w.act .wait) := by
  rw [Scene.act]
  split
  · next hdropped => exact h.of_dropped hdropped .wait
  · next hdropped =>
    have hany : done.any Action.isDrop = false := h.dropped ▸ Bool.eq_false_iff.mpr hdropped
    have hattempts : attempts (done ++ [.wait]) = attempts done := by
      simp [attempts_concat, Action.offer?]
    have hending : ending? (done ++ [.wait]) = ending? done :=
      (ending?_append done _).trans Option.or_none
    exact
      { outcome := h.outcome.trans hending.symm
        dropped := by simp [h.dropped, Action.isDrop]
        settled := hattempts ▸ h.settled
        verdicts := hattempts ▸ h.verdicts
        callers := by simp [h.callers, waits_concat, hany, Action.isWait]
        suits := by
          rw [hending, List.forall_mem_append]
          exact ⟨h.suits, by simp [Caller.Suits]⟩ }

/-- Giving the value up settles nothing, but it gives an outcome to those who have none. -/
theorem drop (h : Consistent done w) : Consistent (done ++ [.drop]) (w.act .drop) := by
  have hattempts : attempts (done ++ [.drop]) = attempts done := by
    simp [attempts_concat, Action.offer?]
  have hending : ending? (done ++ [.drop]) = (ending? done).or (some (.error droppedReason)) :=
    ending?_append done _
  exact
    { outcome := by
        rw [hending, ← h.outcome]
        exact outcome?_drop w.deferred
      dropped := by simp [Scene.act, Deferred.drop, Action.isDrop]
      settled := hattempts ▸ h.settled
      verdicts := hattempts ▸ h.verdicts
      callers := by simp [Scene.act, h.callers, waits_concat, Action.isWait]
      suits := by
        rw [hending, Scene.act, List.forall_mem_map]
        intro c hc
        have hsuits := h.suits c hc
        cases hbefore : ending? done with
        | none => exact hsuits.wake (Or.inl hbefore)
        | some o => exact hsuits.wake (Or.inr hbefore) }

theorem look (h : Consistent done w) (i : Nat) :
    Consistent (done ++ [.look i]) (w.act (.look i)) := by
  have hattempts : attempts (done ++ [.look i]) = attempts done := by
    simp [attempts_concat, Action.offer?]
  have hending : ending? (done ++ [.look i]) = ending? done :=
    (ending?_append done _).trans Option.or_none
  exact
    { outcome := h.outcome.trans hending.symm
      dropped := by simp [Scene.act, h.dropped, Action.isDrop]
      settled := hattempts ▸ h.settled
      verdicts := hattempts ▸ h.verdicts
      callers := by simp [Scene.act, h.callers, waits_concat, Action.isWait]
      suits := by
        intro c hc
        obtain ⟨j, hj, rfl⟩ := List.getElem_of_mem hc
        have hsuits := h.suits _ (List.getElem_mem (by simpa [Scene.act] using hj))
        rw [← h.outcome] at hsuits
        rw [hending, ← h.outcome]
        simp only [Scene.act, List.getElem_modify]
        split
        · exact hsuits.look
        · exact hsuits }

theorem act (h : Consistent done w) (a : Action α) : Consistent (done ++ [a]) (w.act a) := by
  cases a with
  | resolve value => exact h.attempt (o := .ok value) rfl
  | reject reason => exact h.attempt (o := .error reason) rfl
  | wait => exact h.wait
  | drop => exact h.drop
  | look i => exact h.look i

theorem run (h : Consistent done w) (later : List (Action α)) :
    Consistent (done ++ later) (w.run later) := by
  induction later generalizing done w with
  | nil => rwa [List.append_nil]
  | cons a later ih =>
    rw [List.append_cons]
    exact ih (h.act a)

end Consistent

/-! ## Every caller finishes -/

theorem Scene.exists_caller_attempt {w : Scene α} {i : Nat} {c : Caller α}
    (hc : w.callers[i]? = some c) (settle : Deferred α → Bool × Deferred α) :
    ∃ c', (w.attempt settle).callers[i]? = some c' ∧ ∀ o, c = .finished o → c' = .finished o := by
  rw [attempt]
  split
  · exact ⟨c, hc, fun _ => id⟩
  · obtain ⟨counts, d⟩ := settle w.deferred
    cases counts with
    | true => exact ⟨c.wake, (List.getElem?_map ..).trans (congrArg _ hc), by rintro o rfl; rfl⟩
    | false => exact ⟨c, hc, fun _ => id⟩

/-- Callers come and do not leave, and who has finished has finished for good. -/
theorem Scene.exists_caller_act {w : Scene α} {i : Nat} {c : Caller α}
    (hc : w.callers[i]? = some c) (a : Action α) :
    ∃ c', (w.act a).callers[i]? = some c' ∧ ∀ o, c = .finished o → c' = .finished o := by
  cases a with
  | resolve value => exact exists_caller_attempt hc _
  | reject reason => exact exists_caller_attempt hc _
  | wait =>
    rw [act]
    split
    · exact ⟨c, hc, fun _ => id⟩
    · have hi : i < w.callers.length := (List.getElem?_eq_some_iff.mp hc).1
      exact ⟨c, (List.getElem?_append_left hi).trans hc, fun _ => id⟩
  | drop => exact ⟨c.wake, (List.getElem?_map ..).trans (congrArg _ hc), by rintro o rfl; rfl⟩
  | look j =>
    rw [act, List.getElem?_modify, hc]
    by_cases hj : j = i
    · exact ⟨c.look w.deferred, congrArg some (if_pos hj), by rintro o rfl; rfl⟩
    · exact ⟨c, congrArg some (if_neg hj), fun _ => id⟩

theorem Scene.exists_caller_run {w : Scene α} {i : Nat} {c : Caller α}
    (hc : w.callers[i]? = some c) (later : List (Action α)) :
    ∃ c', (w.run later).callers[i]? = some c' ∧ ∀ o, c = .finished o → c' = .finished o := by
  induction later generalizing w c with
  | nil => exact ⟨c, hc, fun _ => id⟩
  | cons a later ih =>
    obtain ⟨c₁, hc₁, hkept₁⟩ := exists_caller_act hc a
    obtain ⟨c₂, hc₂, hkept₂⟩ := ih hc₁
    exact ⟨c₂, hc₂, fun o ho => hkept₂ o (hkept₁ o ho)⟩

/-- Once there is something to get, whoever is run afterwards has finished with it. -/
theorem Consistent.finished {done later : List (Action α)} {w : Scene α} (h : Consistent done w)
    {o : Except String α} (ho : ending? done = some o) {i : Nat} (hi : i < w.callers.length)
    (hlook : .look i ∈ later) : (w.run later).callers[i]? = some (.finished o) := by
  obtain ⟨before, after, rfl⟩ := List.append_of_mem hlook
  obtain ⟨c, hc, -⟩ := Scene.exists_caller_run (List.getElem?_eq_getElem hi) before
  have hbefore := h.run before
  have hending : ending? (done ++ before) = some o := by rw [ending?_append, ho, Option.some_or]
  have hsuits : c.Suits (some o) := hending ▸ hbefore.suits c (List.mem_of_getElem? hc)
  have hrun : ((w.run before).act (.look i)).callers[i]? = some (.finished o) := by
    rw [Scene.act, List.getElem?_modify, hc]
    refine congrArg some ((if_pos rfl).trans (hsuits.look_eq ?_))
    rw [hbefore.outcome, hending]
  obtain ⟨c', hc', hkept⟩ := Scene.exists_caller_run hrun after
  rw [Scene.run_append]
  exact hc'.trans (congrArg some (hkept o rfl))

/-- **A deferred value is settled once**, whatever is done with it and with those who wait for it.
Of all attempts to settle it the first one counts, and no other.  As long as it has neither been
settled nor given up, nobody has finished.  Afterwards nobody sleeps, and whoever has been let wait,
early or late, has finished as soon as it has been run, with what came first: the value, the reason,
or that the value was given up.  Serving all callers at once gives the same. -/
theorem settlement_spec (actions : List (Action α)) :
    let w := Scene.start.run actions
    w.verdicts = (List.replicate (attempts actions) false).set 0 true ∧
      w.callers.length = waits actions ∧
      (ending? actions = none → ∀ c ∈ w.callers, c = .ready ∨ c = .asleep) ∧
      (∀ o, ending? actions = some o →
        (∀ c ∈ w.callers, c = .ready ∨ c = .finished o) ∧
          ∀ i < waits actions, ∀ later, .look i ∈ later →
            (w.run later).callers[i]? = some (.finished o)) ∧
      ∀ callers : List String, (Awaited.serve ⟨w.deferred, callers⟩).1 =
        match ending? actions with
        | some o => callers.map fun c => (c, o)
        | none => [] := by
  intro w
  have h : Consistent actions w := consistent_start.run actions
  refine ⟨h.verdicts, h.callers, fun hnone c hc => ?_, fun o ho => ⟨fun c hc => ?_, ?_⟩,
    fun callers => ?_⟩
  · exact Caller.suits_none_iff.mp (hnone ▸ h.suits c hc)
  · exact Caller.suits_some_iff.mp (ho ▸ h.suits c hc)
  · intro i hi later hlook
    exact h.finished ho (h.callers ▸ hi) hlook
  · rw [Awaited.serve, h.outcome]
    cases ending? actions <;> rfl

/-- One caller sleeps before the value is settled, one comes afterwards, and neither is run before
it has been given up. -/
def belated : List (Action Nat) :=
  [.wait, .look 0, .resolve 7, .wait, .reject "too late", .drop, .wait]

/-- Both get the value all the same; and as long as it was open, the first one slept. -/
theorem settlement_spec_belated :
    let w := Scene.start.run belated
    w.verdicts = [true, false] ∧ ending? belated = some (.ok 7) ∧
      (∀ c ∈ w.callers, c = .ready ∨ c = .finished (.ok 7)) ∧
      (0 < waits belated ∧ (w.run [.look 1, .look 0]).callers[0]? = some (.finished (.ok 7))) ∧
      (1 < waits belated ∧ (w.run [.look 1, .look 0]).callers[1]? = some (.finished (.ok 7))) ∧
      (Awaited.serve ⟨w.deferred, ["first", "second"]⟩).1 =
        [("first", .ok 7), ("second", .ok 7)] ∧
      ending? (belated.take 2) = none ∧
        ∀ c ∈ (Scene.start.run (belated.take 2)).callers, c = .ready ∨ c = .asleep := by
  intro w
  obtain ⟨hverdicts, -, -, hending, hserve⟩ := settlement_spec belated
  obtain ⟨hawake, hfinish⟩ := hending (.ok 7) rfl
  obtain ⟨-, -, hopen, -, -⟩ := settlement_spec (belated.take 2)
  exact ⟨hverdicts, rfl, hawake,
    ⟨by decide, hfinish 0 (by decide) [.look 1, .look 0] (by simp)⟩,
    ⟨by decide, hfinish 1 (by decide) [.look 1, .look 0] (by simp)⟩,
    hserve ["first", "second"], rfl, hopen rfl⟩

example :
    let w : Scene Nat := Scene.start.run [.wait, .look 0, .drop, .resolve 7, .look 0]
    w.callers = [.finished (.error "dropped before settling")] ∧ w.verdicts = [] :=
  ⟨rfl, rfl⟩

end Deferred
end DebugTree
