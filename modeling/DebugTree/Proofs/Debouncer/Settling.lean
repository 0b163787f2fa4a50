import DebugTree.Proofs.Debouncer.Timeline
import Mathlib.Algebra.GroupWithZero.Nat

/-!
# What a debouncer does when it is left to itself

Whoever settles a debouncer lets everything happen that can, and whoever sleeps does so again and
again until the time is over.  Both are rows of moves (`exists_row_settle`, `exists_row_sleep`), so
all that holds after every row of moves holds after them too; and both leave nothing to be done
(`isSettled_settle`, `isSettled_sleep`), because a request takes part in at most two steps.

The main statement is about every life of a debouncer, whatever was done with it and in whichever
order (`IsOrderly`): the works take turns, none of them starts too early or after it was overtaken,
none is stopped, and the last one is not forgotten.
-/

namespace DebugTree
namespace Debouncer

section Fuel

variable {α : Type} {d d' : Debouncer α} {now : Instant} {duration : α → Nat}

/-! ## Nothing is left to be done -/

/-- In how many steps a request can still take part. -/
def Stage.stepsLeft : Stage → Nat
  | .running _ => 1
  | _ => 2

/-- How many steps are possible without a new request. -/
def stepsLeft (d : Debouncer α) : Nat :=
  (d.calls.map (·.stage.stepsLeft)).sum

theorem Stage.stepsLeft_le (s : Stage) : s.stepsLeft ≤ 2 := by
  cases s <;> simp [stepsLeft]

theorem stepsLeft_le (d : Debouncer α) : d.stepsLeft ≤ 2 * d.calls.length := by
  unfold stepsLeft
  induction d.calls with
  | nil => exact le_rfl
  | cons c rest ih =>
    have hc := c.stage.stepsLeft_le
    simp only [List.map_cons, List.sum_cons, List.length_cons]
    omega

theorem stepsLeft_lt_of_step? {es : List (Event α)} (h : d.step? now duration = some (es, d')) :
    d'.stepsLeft < d.stepsLeft := by
  obtain ⟨c, rest, hcalls, ⟨due, hstage, -, -, hd'⟩ | ⟨due, hstage, -, -, -, hd'⟩ |
    ⟨until_, hstage, -, -, hd'⟩⟩ := step?_spec h
  all_goals
    simp only [stepsLeft, hcalls, hd', List.map_cons, List.sum_cons, hstage, Stage.stepsLeft]
    omega

/-- **There is always fuel enough.** -/
theorem step?_settleFrom {fuel : Nat} (h : d.stepsLeft ≤ fuel) :
    (settleFrom now duration fuel d).2.step? now duration = none := by
  induction fuel generalizing d with
  | zero =>
    rw [settleFrom]
    cases hstep : d.step? now duration with
    | none => rfl
    | some r => exact absurd (stepsLeft_lt_of_step? hstep) (by omega)
  | succ fuel ih =>
    rw [settleFrom]
    cases hstep : d.step? now duration with
    | none => exact hstep
    | some r => exact ih (by have := stepsLeft_lt_of_step? hstep; omega)

theorem settleFrom_of_step?_eq_none (h : d.step? now duration = none) (fuel : Nat) :
    settleFrom now duration fuel d = ([], d) := by
  cases fuel with
  | zero => rfl
  | succ fuel => rw [settleFrom, h]

/-- No request waits to be looked at. -/
def IsSeen (d : Debouncer α) : Prop :=
  ∀ c ∈ d.calls, c.stage ≠ .fresh

theorem isSeen_arm (now : Instant) (d : Debouncer α) : (d.arm now).IsSeen := by
  intro c hc
  obtain ⟨x, -, rfl⟩ := List.mem_map.mp hc
  cases hstage : x.stage <;> simp [Call.arm, hstage]

theorem IsSeen.arm_eq (h : d.IsSeen) (now : Instant) : d.arm now = d := by
  have hsame : ∀ c ∈ d.calls, c.arm now = c := by
    intro c hc
    unfold Call.arm
    split
    · next hfresh => exact absurd hfresh (h c hc)
    · rfl
  exact congrArg Debouncer.mk ((List.map_congr_left hsame).trans (List.map_id _))

theorem IsSeen.step (h : d.IsSeen) {es : List (Event α)}
    (hstep : d.step? now duration = some (es, d')) : d'.IsSeen := by
  obtain ⟨c, rest, hcalls, ⟨due, hstage, -, -, hd'⟩ | ⟨due, hstage, -, -, -, hd'⟩ |
    ⟨until_, hstage, -, -, hd'⟩⟩ := step?_spec hstep
  all_goals
    rw [IsSeen, hcalls, List.forall_mem_cons] at h
    rw [IsSeen, hd']
  · exact h.2
  · exact List.forall_mem_cons.mpr ⟨nofun, h.2⟩
  · exact h.2

theorem IsSeen.settleFrom (h : d.IsSeen) (fuel : Nat) :
    (settleFrom now duration fuel d).2.IsSeen := by
  induction fuel generalizing d with
  | zero => exact h
  | succ fuel ih =>
    rw [Debouncer.settleFrom]
    cases hstep : d.step? now duration with
    | none => exact h
    | some r => exact ih (h.step hstep)

theorem IsSeen.settle (h : d.IsSeen) (now : Instant) (duration : α → Nat) :
    d.settle now duration = Debouncer.settleFrom now duration (2 * d.calls.length) d := by
  rw [Debouncer.settle, h.arm_eq]

theorem isSeen_settle (now : Instant) (duration : α → Nat) (d : Debouncer α) :
    (d.settle now duration).2.IsSeen :=
  (isSeen_arm now d).settleFrom _

theorem step?_settle (now : Instant) (duration : α → Nat) (d : Debouncer α) :
    (d.settle now duration).2.step? now duration = none := by
  refine step?_settleFrom ((stepsLeft_le _).trans (le_of_eq ?_))
  rw [Debouncer.arm, List.length_map]

theorem IsSeen.passFrom (h : d.IsSeen) (now : Instant) (duration : α → Nat) (until_ : Instant)
    (fuel : Nat) :
    (passFrom duration until_ fuel now d).2.IsSeen := by
  induction fuel generalizing d now with
  | zero => exact h
  | succ fuel ih =>
    have hsettled := isSeen_settle now duration d
    simp only [Debouncer.passFrom]
    split
    · split
      · exact ih hsettled _
      · exact hsettled
    · exact hsettled

/-- What is due is not yet due, or it would have happened. -/
theorem lt_of_nextDue? {due : Instant} (h : d.step? now duration = none)
    (hdue : d.nextDue? = some due) : now < due := by
  unfold step? at h
  unfold nextDue? at hdue
  split at hdue
  · cases hdue
  · next c rest hcalls =>
    simp only [hcalls] at h
    split at hdue
    · cases hdue
    · next hstage =>
      cases hdue
      simp only [hstage] at h
      split at h
      · cases h
      · split at h
        · cases h
        · next hnot => exact Nat.lt_of_not_le hnot
    · next hstage =>
      cases hdue
      simp only [hstage] at h
      split at h
      · cases h
      · next hnot => exact Nat.lt_of_not_le hnot

/-- How long works take does not matter to whether something happens now. -/
theorem isSome_step? (now : Instant) (duration duration' : α → Nat) (d : Debouncer α) :
    (d.step? now duration).isSome = (d.step? now duration').isSome := by
  cases hcalls : d.calls with
  | nil => simp only [step?, hcalls]
  | cons c rest =>
    cases hstage : c.stage with
    | fresh => simp only [step?, hcalls, hstage]
    | armed due =>
      simp only [step?, hcalls, hstage]
      by_cases hcancelled : c.cancelled = true
      · rw [if_pos hcancelled, if_pos hcancelled]
      · rw [if_neg hcancelled, if_neg hcancelled]
        by_cases hdue : due ≤ now
        · rw [if_pos hdue, if_pos hdue]
          rfl
        · rw [if_neg hdue, if_neg hdue]
    | running until_ => simp only [step?, hcalls, hstage]

/-- **Nothing can happen** exactly if all requests were looked at and the oldest cannot go on. -/
theorem canStep_eq_false_iff (duration : α → Nat) : d.canStep now = false ↔
    d.IsSeen ∧ d.step? now duration = none := by
  rw [canStep, isSome_step? now (fun _ => 0) duration, Bool.or_eq_false_iff, List.any_eq_false,
    Option.isSome_eq_false_iff, Option.isNone_iff_eq_none]
  simp only [decide_eq_true_eq, IsSeen, ne_eq]

/-- When nothing can happen, the oldest request waits for its time. -/
theorem waits_of_canStep_eq_false (h : d.canStep now = false) {c : Call α} {rest : List (Call α)}
    (hcalls : d.calls = c :: rest) :
    (∃ due, c.stage = .armed due ∧ c.cancelled = false ∧ now < due) ∨
      ∃ until_, c.stage = .running until_ ∧ now < until_ := by
  obtain ⟨hseen, hnone⟩ := (canStep_eq_false_iff fun _ => 0).mp h
  simp only [step?, hcalls] at hnone
  cases hstage : c.stage with
  | fresh => exact absurd hstage (hseen c (hcalls ▸ List.mem_cons_self))
  | armed due =>
    simp only [hstage] at hnone
    split at hnone
    · cases hnone
    · next hwanted =>
      split at hnone
      · cases hnone
      · next hnot => exact Or.inl ⟨due, rfl, Bool.not_eq_true _ ▸ hwanted, Nat.lt_of_not_le hnot⟩
  | running until_ =>
    simp only [hstage] at hnone
    split at hnone
    · cases hnone
    · next hnot => exact Or.inr ⟨until_, rfl, Nat.lt_of_not_le hnot⟩

/-! ## Looking first -/

theorem settle_arm (now : Instant) (duration : α → Nat) (d : Debouncer α) :
    (d.arm now).settle now duration = d.settle now duration := by
  rw [(isSeen_arm now d).settle, Debouncer.settle, Debouncer.arm, List.length_map]

/-- Who passes time looks at all requests first, so it does not matter if they were looked at. -/
theorem pass_arm (now until_ : Instant) (duration : α → Nat) (d : Debouncer α) :
    (d.arm now).pass duration now until_ = d.pass duration now until_ := by
  have hlength : (d.arm now).calls.length = d.calls.length := List.length_map _
  simp only [pass, passFrom, settle_arm, hlength]

end Fuel

/-! ## Settling and sleeping as rows of moves -/

section Rows

variable {p : Plan} {w : Timeline}

theorem look_all (now : Instant) (d : Debouncer Nat) : d.look now (fun _ => true) = d.arm now := by
  simp only [Debouncer.look, Debouncer.arm, if_true]

theorem arming_of_isSeen (h : w.debouncer.IsSeen) (which : Nat → Bool) : w.arming which = [] := by
  rw [Timeline.arming, List.map_eq_nil_iff, List.filter_eq_nil_iff]
  intro c hc
  simp [h c hc]

/-- As many steps as there is fuel for are what settling with this fuel does. -/
theorem foldl_replicate_step (fuel : Nat) (w : Timeline) :
    (List.replicate fuel Move.step).foldl (Timeline.act p) w =
      { w with
        debouncer := (settleFrom w.now p.duration fuel w.debouncer).2
        log := w.log ++ w.record (settleFrom w.now p.duration fuel w.debouncer).1 } := by
  induction fuel generalizing w with
  | zero => simp [settleFrom, Timeline.record]
  | succ fuel ih =>
    rw [List.replicate_succ, List.foldl_cons, ih]
    simp only [Timeline.act, Timeline.step]
    cases hstep : w.debouncer.step? w.now p.duration with
    | none =>
      simp only [settleFrom_of_step?_eq_none hstep]
    | some r =>
      simp only [settleFrom, hstep, Timeline.record, List.map_append, List.append_assoc]

theorem exists_row_settle (p : Plan) (w : Timeline) :
    ∃ row : List Move, w.settle p = row.foldl (Timeline.act p) w := by
  refine ⟨.look (fun _ => true) :: List.replicate (2 * w.debouncer.calls.length) .step, ?_⟩
  rw [List.foldl_cons, foldl_replicate_step]
  simp only [Timeline.settle, Debouncer.settle, Timeline.act, Timeline.look, look_all,
    Timeline.record]

/-- Passing time is a row of moves for a debouncer whose requests were looked at. -/
theorem exists_row_passFrom (until_ : Instant) (fuel : Nat) (hseen : w.debouncer.IsSeen)
    (hnow : w.now ≤ until_) :
    ∃ (row : List Move) (t : Instant), t ≤ until_ ∧ row.foldl (Timeline.act p) w =
      { w with
        debouncer := (passFrom p.duration until_ fuel w.now w.debouncer).2
        now := t
        log := w.log ++ (passFrom p.duration until_ fuel w.now w.debouncer).1.map fun e =>
          (.work e.1, e.2) } := by
  induction fuel generalizing w with
  | zero => exact ⟨[], w.now, hnow, by simp [passFrom]⟩
  | succ fuel ih =>
    simp only [passFrom]
    have hsettle := hseen.settle w.now p.duration
    have hseen' := isSeen_settle w.now p.duration w.debouncer
    have hnone := step?_settle w.now p.duration w.debouncer
    generalize w.debouncer.settle w.now p.duration = settled at hsettle hseen' hnone ⊢
    have hsteps : (List.replicate (2 * w.debouncer.calls.length) Move.step).foldl
        (Timeline.act p) w = { w with
          debouncer := settled.2
          log := w.log ++ (settled.1.map fun e => (e, w.now)).map fun e => (.work e.1, e.2) } := by
      rw [foldl_replicate_step, ← hsettle, List.map_map]
      rfl
    cases hdue : settled.2.nextDue? with
    | none => exact ⟨_, w.now, hnow, hsteps⟩
    | some due =>
      by_cases hle : due ≤ until_
      · have hlt : w.now < due := lt_of_nextDue? hnone hdue
        have hwait : w.now + (due - w.now) = due := Nat.add_sub_cancel' (Nat.le_of_lt hlt)
        obtain ⟨row, t, ht, hrow⟩ := ih (w := { w with
          debouncer := settled.2
          now := due
          log := w.log ++ (settled.1.map fun e => (e, w.now)).map fun e => (.work e.1, e.2) })
          hseen' hle
        refine ⟨List.replicate (2 * w.debouncer.calls.length) .step ++ .wait (due - w.now) :: row,
          t, ht, ?_⟩
        rw [List.foldl_append, hsteps, List.foldl_cons]
        simp only [Timeline.act, Timeline.wait, hwait, if_pos hle, List.map_append]
        rw [hrow, List.append_assoc]
      · simp only [if_neg hle]
        exact ⟨_, w.now, hnow, hsteps⟩

theorem exists_row_sleep (p : Plan) (ms : Nat) (w : Timeline) :
    ∃ row : List Move, w.sleep p ms = row.foldl (Timeline.act p) w := by
  have hlook : (w.look fun _ => true).debouncer = w.debouncer.arm w.now := look_all _ _
  have hseen : (w.look fun _ => true).debouncer.IsSeen := hlook ▸ isSeen_arm _ _
  obtain ⟨row, t, ht, hrow⟩ := exists_row_passFrom (p := p) (w.now + ms)
    (2 * (w.debouncer.arm w.now).calls.length + 1) hseen (Nat.le_add_right _ _)
  have hpassed := hseen.passFrom w.now p.duration (w.now + ms)
    (2 * (w.debouncer.arm w.now).calls.length + 1)
  rw [hlook] at hrow hpassed
  rw [Timeline.sleep, ← pass_arm, pass]
  dsimp only [Timeline.look] at hrow ⊢
  generalize passFrom p.duration (w.now + ms) (2 * (w.debouncer.arm w.now).calls.length + 1) w.now
    (w.debouncer.arm w.now) = passed at hrow hpassed ⊢
  obtain ⟨rest, hrest⟩ := exists_row_settle p { w with
    debouncer := passed.2
    now := w.now + ms
    log := w.log ++ w.arming (fun _ => true) ++ passed.1.map fun e => (.work e.1, e.2) }
  refine ⟨.look (fun _ => true) :: row ++ .wait (w.now + ms - t) :: rest, ?_⟩
  have hwait : t + (w.now + ms - t) = w.now + ms := Nat.add_sub_cancel' ht
  rw [List.foldl_append, List.foldl_cons, List.foldl_cons]
  simp only [Timeline.act, Timeline.look]
  rw [hrow]
  simp only [Timeline.wait, hwait]
  have hquiet : ∀ live fired now log,
      (⟨passed.2, live, fired, now, log⟩ : Timeline).arming (fun _ => true) = [] :=
    fun live fired now log => arming_of_isSeen hpassed _
  rw [← hrest, Timeline.settle, hquiet]
  simp only [Timeline.record, List.map_append, List.map_map, List.append_nil, List.append_assoc]
  rfl

theorem isSettled_settle (p : Plan) (w : Timeline) : (w.settle p).IsSettled :=
  (canStep_eq_false_iff p.duration).mpr
    ⟨isSeen_settle _ _ _, step?_settle _ _ _⟩

theorem isSettled_sleep (p : Plan) (ms : Nat) (w : Timeline) : (w.sleep p ms).IsSettled :=
  (canStep_eq_false_iff p.duration).mpr
    ⟨isSeen_settle _ _ _, step?_settle _ _ _⟩

end Rows

/-! ## What the log looks like -/

namespace Consistent

variable {p : Plan} {w : Timeline}

/-- The oldest pending work is the only one that can be under way. -/
theorem underWay_cases (h : Consistent p w) : w.debouncer.underWay = [] ∨
    ∃ c ∈ w.debouncer.calls, w.debouncer.underWay = [.started c.work] := by
  cases hcalls : w.debouncer.calls with
  | nil =>
    rw [underWay, hcalls]
    exact Or.inl rfl
  | cons c rest =>
    rw [(h.underWay_rest hcalls).1, Call.underWay]
    split
    · exact Or.inr ⟨c, List.mem_cons_self, rfl⟩
    · exact Or.inl rfl

/-- **Works never overlap, and they start in the order in which they were asked for.** -/
theorem inTurn (h : Consistent p w) :
    ∃ ns : List Nat, ns.Pairwise (· < ·) ∧ eventsOf w.log <+: bouts ns := by
  obtain ⟨ns, hns, hturns⟩ := h.turns
  rcases h.underWay_cases with hnone | ⟨c, hc, hsome⟩
  · rw [hnone, List.append_nil] at hturns
    exact ⟨ns, (List.pairwise_append.mp hns).1, hturns ▸ List.prefix_refl _⟩
  · rw [hsome] at hturns
    refine ⟨ns ++ [c.work], hns.sublist ?_, ?_⟩
    · exact (List.singleton_sublist.mpr (List.mem_map_of_mem hc)).append_left ns
    · rw [hturns, bouts_concat]
      exact List.prefix_append _ _

theorem started_of_ended (h : Consistent p w) {n : Nat} (hended : .ended n ∈ eventsOf w.log) :
    .started n ∈ eventsOf w.log := by
  obtain ⟨ns, -, hturns⟩ := h.turns
  rw [hturns, List.mem_append] at hended ⊢
  rcases hended with hmem | hmem
  · exact Or.inl (started_mem_bouts.mpr (ended_mem_bouts.mp hmem))
  · obtain ⟨c, -, heq, -⟩ := mem_underWay hmem
    cases heq

/-- **A work that has started has ended or is under way**, and it stays so for its full time. -/
theorem lasts (h : Consistent p w) {n : Nat} {t : Instant}
    (ht : (.work (.started n), t) ∈ w.log) : .ended n ∈ eventsOf w.log ∨
      ∃ c ∈ w.debouncer.calls, c.work = n ∧ c.stage = .running (t + p.duration n) := by
  obtain ⟨ns, -, hturns⟩ := h.turns
  have hstarted := mem_eventsOf.mpr ⟨t, ht⟩
  rw [hturns, List.mem_append, started_mem_bouts] at hstarted
  rcases hstarted with hmem | hmem
  · exact Or.inl (by rw [hturns]; exact List.mem_append_left _ (ended_mem_bouts.mpr hmem))
  · obtain ⟨c, hc, heq, hrunning⟩ := mem_underWay hmem
    cases heq
    have htallies := h.tallies c hc
    cases hstage : c.stage with
    | running until_ =>
      rw [hstage] at htallies
      obtain ⟨t₀, hat, rfl⟩ := htallies
      rw [(hat t).mp ht]
      exact Or.inr ⟨c, hc, rfl, hstage⟩
    | fresh | armed =>
      rw [hstage] at hrunning
      exact hrunning.elim

/-- The last request is still pending, if any is. -/
theorem exists_last (h : Consistent p w) (hne : w.debouncer.calls ≠ []) :
    ∃ c ∈ w.debouncer.calls, c.work + 1 = w.fired := by
  rcases List.eq_nil_or_concat w.debouncer.calls with hnil | ⟨elder, c, hcalls⟩
  · exact absurd hnil hne
  · rw [List.concat_eq_append] at hcalls
    have hc : c ∈ w.debouncer.calls := hcalls ▸ List.mem_concat_self
    refine ⟨c, hc, ?_⟩
    obtain ⟨forgotten, hall⟩ := h.numbered
    obtain ⟨k, hk⟩ := Nat.exists_eq_add_of_lt (h.work_lt_fired hc)
    rw [hcalls, List.map_append, ← List.append_assoc, hk, List.range_succ] at hall
    have hlast := (List.append_inj' hall rfl).2
    rw [List.map_singleton, List.cons.injEq] at hlast
    omega

theorem isPending_iff (h : Consistent p w) (hlive : w.isLive = true) :
    w.debouncer.isPending = true ↔ ∃ n, n + 1 = w.fired ∧ .ended n ∉ eventsOf w.log := by
  rw [isPending, Bool.not_eq_true', List.isEmpty_eq_false_iff]
  constructor
  · intro hne
    obtain ⟨c, hc, hlast⟩ := h.exists_last hne
    exact ⟨c.work, hlast, h.not_ended hc⟩
  · rintro ⟨n, hn, hnot⟩ hnil
    have hmem := (h.last hlive n hn).resolve_right hnot
    rw [hnil] at hmem
    cases hmem

/-- Whoever is under way is the oldest. -/
theorem eq_head_of_isRunning (h : Consistent p w) {c x : Call Nat} {rest : List (Call Nat)}
    (hcalls : w.debouncer.calls = x :: rest) (hc : c ∈ w.debouncer.calls)
    (hrunning : c.stage.IsRunning) : c = x := by
  have hwaiting := h.waiting
  rw [hcalls, List.map_cons, List.tail_cons] at hwaiting
  rcases List.mem_cons.mp (hcalls ▸ hc) with rfl | hc
  · rfl
  · have hnone := hwaiting _ (List.mem_map_of_mem hc)
    rw [Call.underWay] at hnone
    split at hnone
    · cases hnone
    · next hnot =>
      cases hstage : c.stage with
      | running until_ => exact absurd hstage (hnot until_)
      | fresh | armed =>
        rw [hstage] at hrunning
        exact hrunning.elim

/-- A work whose time is over and that has not started waits for an earlier one. -/
theorem exists_earlier_of_overdue (h : Consistent p w) (hsettled : w.IsSettled) {c : Call Nat}
    (hc : c ∈ w.debouncer.calls) (hlast : c.work + 1 = w.fired) {due : Instant}
    (hstage : c.stage = .armed due) (hdue : due ≤ w.now) :
    ∃ m < c.work, .started m ∈ eventsOf w.log ∧ .ended m ∉ eventsOf w.log := by
  obtain ⟨x, rest, hcalls⟩ := List.exists_cons_of_ne_nil (List.ne_nil_of_mem hc)
  have hx : x ∈ w.debouncer.calls := hcalls ▸ List.mem_cons_self
  rcases waits_of_canStep_eq_false hsettled hcalls with
    ⟨due', hstage', hwanted, hlater⟩ | ⟨until_, hstage', -⟩
  · -- the oldest request is the last one, and it would have started
    have hxc : x = c := h.eq_of_work_eq hx hc (by have := h.of_not_cancelled hx hwanted; omega)
    rw [hxc, hstage, Stage.armed.injEq] at hstage'
    exact absurd hdue (Nat.not_le.mpr (hstage' ▸ hlater))
  · have hne : x.work ≠ c.work := by
      intro heq
      rw [h.eq_of_work_eq hx hc heq, hstage] at hstage'
      cases hstage'
    have hlt := h.work_lt_fired hx
    refine ⟨x.work, by omega, ?_, h.not_ended hx⟩
    obtain ⟨ns, -, hturns⟩ := h.turns
    rw [hturns, (h.underWay_rest hcalls).1, Call.underWay, hstage']
    exact List.mem_concat_self

theorem exists_armed_of_started (h : Consistent p w) {n : Nat}
    (hstarted : .started n ∈ eventsOf w.log) : ∃ t₀, OnlyAt w.log (.armed n) t₀ := by
  obtain ⟨t, ht⟩ := mem_eventsOf.mp hstarted
  obtain ⟨t₀, hat, -⟩ := h.punctual n t ht
  exact ⟨t₀, hat⟩

/-- **The last work is not forgotten**: when nothing can happen, its timer runs, and it has started
if its delay is over and no other work is under way. -/
theorem starts (h : Consistent p w) (hsettled : w.IsSettled) (hlive : w.isLive = true) {n : Nat}
    (hn : n + 1 = w.fired) : ∃ t₀, OnlyAt w.log (.armed n) t₀ ∧
      (t₀ + p.delay n ≤ w.now →
        (∀ m < n, .started m ∈ eventsOf w.log → .ended m ∈ eventsOf w.log) →
          .started n ∈ eventsOf w.log) := by
  by_cases hstarted : .started n ∈ eventsOf w.log
  · obtain ⟨t₀, hat⟩ := h.exists_armed_of_started hstarted
    exact ⟨t₀, hat, fun _ _ => hstarted⟩
  · have hmem := (h.last hlive n hn).resolve_right fun hended =>
      hstarted (h.started_of_ended hended)
    obtain ⟨c, hc, rfl⟩ := List.mem_map.mp hmem
    have htallies := h.tallies c hc
    cases hstage : c.stage with
    | fresh =>
      exact absurd hstage (((canStep_eq_false_iff p.duration).mp hsettled).1 c hc)
    | armed due =>
      rw [hstage] at htallies
      obtain ⟨t₀, hat, rfl⟩ := htallies
      refine ⟨t₀, hat, fun hdue hearlier => ?_⟩
      obtain ⟨m, hm, hstarted, hnot⟩ := h.exists_earlier_of_overdue hsettled hc hn hstage hdue
      exact absurd (hearlier m hm hstarted) hnot
    | running until_ =>
      rw [hstage] at htallies
      obtain ⟨t, hat, -⟩ := htallies
      exact absurd (mem_eventsOf.mpr ⟨t, (hat t).mpr rfl⟩) hstarted

/-- A work that is under way when nothing can happen is not yet to end. -/
theorem completes (h : Consistent p w) (hsettled : w.IsSettled) {n : Nat} {t : Instant}
    (ht : (.work (.started n), t) ∈ w.log) (hover : t + p.duration n ≤ w.now) :
    .ended n ∈ eventsOf w.log := by
  rcases h.lasts ht with hended | ⟨c, hc, rfl, hstage⟩
  · exact hended
  · obtain ⟨x, rest, hcalls⟩ := List.exists_cons_of_ne_nil (List.ne_nil_of_mem hc)
    obtain rfl := h.eq_head_of_isRunning hcalls hc (by rw [hstage]; trivial)
    rcases waits_of_canStep_eq_false hsettled hcalls with
      ⟨due, hstage', -⟩ | ⟨until_, hstage', hlater⟩
    · rw [hstage] at hstage'
      cases hstage'
    · rw [hstage, Stage.running.injEq] at hstage'
      exact absurd hover (Nat.not_le.mpr (hstage' ▸ hlater))

end Consistent

/-! ## Whatever is done -/

theorem Consistent.take {p : Plan} {w : Timeline} (h : Consistent p w) (a : Action) :
    Consistent p (w.take p a) := by
  cases a with
  | move m => exact h.act m
  | settle =>
    obtain ⟨row, hrow⟩ := exists_row_settle p w
    rw [Timeline.take, hrow]
    exact h.foldl_act row
  | sleep ms =>
    obtain ⟨row, hrow⟩ := exists_row_sleep p ms w
    rw [Timeline.take, hrow]
    exact h.foldl_act row

theorem consistent_run (p : Plan) (actions : List Action) : Consistent p (.run p actions) := by
  have hfrom : ∀ w, Consistent p w → Consistent p (actions.foldl (Timeline.take p) w) := by
    induction actions with
    | nil => exact fun w h => h
    | cons a actions ih => exact fun w h => ih _ (h.take a)
  exact hfrom _ (consistent_start p)

/-! ## What was asked for -/

theorem Action.isFire_of_isDrop {a : Action} (h : a.isDrop = true) : a.isFire = false := by
  rcases a with (_ | _ | _ | _ | _) | _ | _ <;> first | rfl | cases h

theorem requests_cons (a : Action) (rest : List Action) : requests (a :: rest) =
    if a.isDrop then 0 else requests rest + if a.isFire then 1 else 0 := by
  cases hdrop : a.isDrop <;> simp [requests, List.countP_cons, hdrop]

namespace Timeline

theorem isLive_take (p : Plan) (w : Timeline) (a : Action) :
    (w.take p a).isLive = (w.isLive && !a.isDrop) := by
  rcases a with (_ | _ | _ | _ | _) | _ | _ <;>
    simp only [take, act, fire, drop, look, step, wait, settle, sleep, Action.isDrop, Bool.not_true,
      Bool.not_false, Bool.and_true, Bool.and_false]
  all_goals split <;> simp_all

theorem fired_take (p : Plan) (w : Timeline) (a : Action) :
    (w.take p a).fired = if w.isLive && a.isFire then w.fired + 1 else w.fired := by
  rcases a with (_ | _ | _ | _ | _) | _ | _ <;>
    simp only [take, act, fire, drop, look, step, wait, settle, sleep, Action.isFire, Bool.and_true,
      Bool.and_false, Bool.false_eq_true, if_false]
  all_goals split <;> rfl

/-- A debouncer is there until it is dropped. -/
theorem isLive_run (p : Plan) (actions : List Action) :
    (run p actions).isLive = actions.all fun a => !a.isDrop := by
  have hfrom : ∀ w, (actions.foldl (take p) w).isLive =
      (w.isLive && actions.all fun a => !a.isDrop) := by
    induction actions with
    | nil => exact fun w => (Bool.and_true _).symm
    | cons a rest ih =>
      intro w
      rw [List.foldl_cons, ih, isLive_take, List.all_cons, Bool.and_assoc]
  exact (hfrom start).trans (Bool.true_and _)

/-- The works that are counted are those that were asked for. -/
theorem fired_run (p : Plan) (actions : List Action) :
    (run p actions).fired = requests actions := by
  have hfrom : ∀ w, (actions.foldl (take p) w).fired =
      w.fired + if w.isLive then requests actions else 0 := by
    induction actions with
    | nil =>
      intro w
      rw [requests, List.takeWhile_nil, List.countP_nil, ite_self]
      rfl
    | cons a rest ih =>
      intro w
      rw [List.foldl_cons, ih, isLive_take, fired_take, requests_cons]
      cases hlive : w.isLive with
      | false => rfl
      | true =>
        cases hdrop : a.isDrop with
        | true => simp [Action.isFire_of_isDrop hdrop]
        | false =>
          simp only [Bool.not_false, Bool.and_true, Bool.true_and, if_true, Bool.false_eq_true,
            if_false]
          split <;> omega
  exact (hfrom start).trans (Nat.zero_add _)

/-- The log has every work that was asked for, and the drop if there was one. -/
structure Recorded (w : Timeline) : Prop where
  fired : firedOf w.log = List.range w.fired
  dropped : (∃ t, (.dropped, t) ∈ w.log) ↔ w.isLive = false

variable {p : Plan} {w : Timeline}

/-- What is about timers and works is not about requests. -/
theorem Recorded.append (h : w.Recorded) {new : List (Occurrence × Instant)}
    (hnew : ∀ x ∈ new, x.1.fired? = none ∧ x.1 ≠ .dropped) (d : Debouncer Nat) (now : Instant) :
    Recorded { w with debouncer := d, now, log := w.log ++ new } where
  fired := by
    rw [← h.fired, firedOf, List.filterMap_append,
      List.filterMap_eq_nil_iff.mpr fun x hx => (hnew x hx).1, List.append_nil]
    rfl
  dropped := by
    rw [← h.dropped]
    refine exists_congr fun t => ?_
    rw [List.mem_append, or_iff_left fun ht => (hnew _ ht).2 rfl]

theorem Recorded.fire (h : w.Recorded) : (w.fire p).Recorded := by
  unfold Timeline.fire
  split
  · refine ⟨?_, ?_⟩
    · rw [firedOf, List.filterMap_append, List.range_succ, ← h.fired]
      rfl
    · rw [← h.dropped]
      simp
  · exact h

theorem Recorded.drop (h : w.Recorded) : w.drop.Recorded := by
  unfold Timeline.drop
  split
  · refine ⟨?_, iff_of_true ⟨w.now, List.mem_concat_self⟩ rfl⟩
    rw [firedOf, List.filterMap_append, ← h.fired]
    exact List.append_nil _
  · exact h

theorem Recorded.look (h : w.Recorded) (which : Nat → Bool) : (w.look which).Recorded := by
  refine h.append (fun x hx => ?_) _ w.now
  obtain ⟨c, -, -, -, rfl⟩ := mem_arming.mp hx
  exact ⟨rfl, nofun⟩

theorem Recorded.take (h : w.Recorded) (a : Action) : (w.take p a).Recorded := by
  have hwork : ∀ es : List (Event Nat × Instant),
      ∀ x ∈ es.map fun e => (Occurrence.work e.1, e.2), x.1.fired? = none ∧ x.1 ≠ .dropped := by
    intro es x hx
    obtain ⟨e, -, rfl⟩ := List.mem_map.mp hx
    exact ⟨rfl, nofun⟩
  have hrecord : ∀ es, ∀ x ∈ w.record es, x.1.fired? = none ∧ x.1 ≠ .dropped := by
    intro es x hx
    obtain ⟨e, -, rfl⟩ := List.mem_map.mp hx
    exact ⟨rfl, nofun⟩
  cases a with
  | move m =>
    cases m with
    | fire => exact h.fire
    | drop => exact h.drop
    | look which => exact h.look which
    | step =>
      rw [Timeline.take, act, step]
      split
      · exact h
      · exact h.append (hrecord _) _ w.now
    | wait ms => exact ⟨h.fired, h.dropped⟩
  | settle => exact (h.look fun _ => true).append (hrecord _) _ w.now
  | sleep ms => exact (h.look fun _ => true).append (hwork _) _ (w.now + ms)

theorem recorded_run (p : Plan) (actions : List Action) : (run p actions).Recorded := by
  have hfrom : ∀ w : Timeline, w.Recorded → (actions.foldl (Timeline.take p) w).Recorded := by
    induction actions with
    | nil => exact fun w h => h
    | cons a rest ih => exact fun w h => ih _ (h.take a)
  exact hfrom start ⟨rfl, by simp [start]⟩

end Timeline

/-! ## Every schedule -/

/-- A debouncer keeps what it promises. -/
structure IsOrderly (p : Plan) (w : Timeline) : Prop where
  /-- The log has every work that was asked for, once and in order, and the drop if there was
  one. -/
  recorded : w.Recorded
  /-- The log is in the order of time, works are asked for in their order, and a work that has not
  started when a later one is asked for or the debouncer is dropped does not start any more. -/
  history : w.log.Pairwise Precedes
  /-- Works never overlap, and they start in the order in which they were asked for. -/
  inTurn : ∃ ns : List Nat, ns.Pairwise (· < ·) ∧ eventsOf w.log <+: bouts ns
  /-- A work starts when its timer is over or later. -/
  punctual : ∀ n t, (.work (.started n), t) ∈ w.log →
    ∃ t₀, OnlyAt w.log (.armed n) t₀ ∧ t₀ + p.delay n ≤ t
  /-- A work that has started either has run for its full time or is under way. -/
  lasts : ∀ n t, (.work (.started n), t) ∈ w.log →
    (∃ t', (.work (.ended n), t') ∈ w.log ∧ t + p.duration n ≤ t') ∨
      ∃ c ∈ w.debouncer.calls, c.work = n ∧ c.stage = .running (t + p.duration n)
  /-- It ends when its time is over, whatever became of the debouncer. -/
  completes : w.IsSettled → ∀ n t, (.work (.started n), t) ∈ w.log → t + p.duration n ≤ w.now →
    .ended n ∈ eventsOf w.log
  /-- The timer of the last work runs, and the work starts when it is over and no other work is
  under way. -/
  starts : w.IsSettled → w.isLive = true → ∀ n, n + 1 = w.fired →
    ∃ t₀, OnlyAt w.log (.armed n) t₀ ∧
      (t₀ + p.delay n ≤ w.now →
        (∀ m < n, .started m ∈ eventsOf w.log → .ended m ∈ eventsOf w.log) →
          .started n ∈ eventsOf w.log)
  /-- Somebody is waiting as long as the last work has not ended. -/
  pending : w.isLive = true →
    (w.debouncer.isPending = true ↔ ∃ n, n + 1 = w.fired ∧ .ended n ∉ eventsOf w.log)

theorem Consistent.isOrderly {p : Plan} {w : Timeline} (h : Consistent p w) (hr : w.Recorded) :
    IsOrderly p w where
  recorded := hr
  history := h.history
  inTurn := h.inTurn
  punctual := h.punctual
  lasts n t ht := by
    refine (h.lasts ht).imp_left fun hended => ?_
    obtain ⟨t', ht'⟩ := mem_eventsOf.mp hended
    exact ⟨t', ht', h.full n t t' ht ht'⟩
  completes hsettled n t ht hover := h.completes hsettled ht hover
  starts hsettled hlive n hn := h.starts hsettled hlive hn
  pending := h.isPending_iff

/-- **Whatever is done with a debouncer, it keeps what it promises.**  It is there until it is
dropped, and the works that are counted are those that were asked for until then.  Whoever settles
it or sleeps leaves it with nothing to do. -/
theorem isOrderly_run (p : Plan) (actions : List Action) :
    IsOrderly p (.run p actions) ∧
      ((Timeline.run p actions).isLive = actions.all fun a => !a.isDrop) ∧
      (Timeline.run p actions).fired = requests actions ∧
      (Timeline.run p (actions ++ [.settle])).IsSettled ∧
      ∀ ms, (Timeline.run p (actions ++ [.sleep ms])).IsSettled := by
  refine ⟨(consistent_run p actions).isOrderly (Timeline.recorded_run p actions),
    Timeline.isLive_run p actions, Timeline.fired_run p actions, ?_, fun ms => ?_⟩
  · rw [Timeline.run, List.foldl_concat]
    exact isSettled_settle p _
  · rw [Timeline.run, List.foldl_concat]
    exact isSettled_sleep p ms _

/-- Three works are asked for, each before the delay of the one before is over, and a fourth one
just before the drop. -/
def burst : List Action :=
  [.move .fire, .sleep 100, .move .fire, .sleep 100, .move .fire, .sleep 510, .move .fire,
    .move .drop, .sleep 1000, .move .fire]

/-- Four works are asked for, and the third one is done. -/
example : requests burst = 4 ∧
    eventsOf (Timeline.run ⟨fun _ => 500, fun _ => 20⟩ burst).log = [.started 2, .ended 2] := by
  decide

end Debouncer
end DebugTree
