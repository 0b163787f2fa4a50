import DebugTree.Debouncer.Timeline
import DebugTree.Proofs.Debouncer
import Mathlib.Data.List.Infix
import Mathlib.Data.List.Nodup
import Mathlib.Data.List.Pairwise

/-!
# What the log of a debouncer says

Each move keeps the log and the pending requests consistent (`Consistent.act`), and so does every
row of moves.

Three facts carry the rest.  The pending requests are the last ones that were made
(`Consistent.numbered`); a request is cancelled exactly if it is not the last or the debouncer is
gone (`Consistent.cancelled_iff`); and the works that have started did so in their order, the next
one after the one before had ended (`Consistent.turns`).
-/

namespace DebugTree
namespace Debouncer

/-! ## Logs -/

section Logs

variable {log new : List (Occurrence × Instant)} {o : Occurrence} {t : Instant}

/-- It has not occurred. -/
def Never (log : List (Occurrence × Instant)) (o : Occurrence) : Prop :=
  ∀ t, (o, t) ∉ log

/-- It has occurred, and at no other time. -/
def OnlyAt (log : List (Occurrence × Instant)) (o : Occurrence) (t : Instant) : Prop :=
  ∀ t', (o, t') ∈ log ↔ t' = t

theorem Never.append (h : Never log o) (hnew : ∀ x ∈ new, x.1 ≠ o) : Never (log ++ new) o := by
  intro t ht
  rcases List.mem_append.mp ht with ht | ht
  · exact h t ht
  · exact hnew _ ht rfl

theorem OnlyAt.append (h : OnlyAt log o t) (hnew : ∀ x ∈ new, x.1 ≠ o) :
    OnlyAt (log ++ new) o t := by
  intro t'
  rw [List.mem_append, h t', or_iff_left fun ht => hnew _ ht rfl]

/-- What occurs for the first time now has occurred now only. -/
theorem Never.onlyAt (h : Never log o) (hmem : (o, t) ∈ new) (hnew : ∀ t', (o, t') ∈ new → t' = t) :
    OnlyAt (log ++ new) o t := by
  intro t'
  rw [List.mem_append, or_iff_right (h t')]
  exact ⟨hnew t', fun ht => ht ▸ hmem⟩

theorem mem_eventsOf {e : Event Nat} : e ∈ eventsOf log ↔ ∃ t, (.work e, t) ∈ log := by
  rw [eventsOf, List.mem_filterMap]
  constructor
  · rintro ⟨⟨o, t⟩, hmem, ho⟩
    cases o with
    | work e' =>
      cases ho
      exact ⟨t, hmem⟩
    | fired | dropped | armed => cases ho
  · rintro ⟨t, hmem⟩
    exact ⟨_, hmem, rfl⟩

theorem eventsOf_append (log new : List (Occurrence × Instant)) :
    eventsOf (log ++ new) = eventsOf log ++ eventsOf new :=
  List.filterMap_append

/-- Nothing is said about works that have started. -/
def IsQuiet (new : List (Occurrence × Instant)) : Prop :=
  ∀ x ∈ new, x.1.event? = none

theorem IsQuiet.eventsOf_append (h : IsQuiet new) (log : List (Occurrence × Instant)) :
    eventsOf (log ++ new) = eventsOf log := by
  rw [Debouncer.eventsOf_append, eventsOf, eventsOf, List.filterMap_eq_nil_iff.mpr h,
    List.append_nil]

theorem IsQuiet.work_mem_append (h : IsQuiet new) {e : Event Nat} :
    (.work e, t) ∈ log ++ new ↔ (.work e, t) ∈ log := by
  rw [List.mem_append, or_iff_left fun ht => by cases h _ ht]

theorem isQuiet_singleton (ho : o.event? = none) : IsQuiet [(o, t)] := by
  intro x hx
  rwa [List.mem_singleton.mp hx]

end Logs

/-- Works one after the other, each from start to end. -/
def bouts (ns : List Nat) : List (Event Nat) :=
  ns.flatMap fun n => [.started n, .ended n]

@[simp] theorem started_mem_bouts {n : Nat} {ns : List Nat} : .started n ∈ bouts ns ↔ n ∈ ns := by
  simp [bouts]

@[simp] theorem ended_mem_bouts {n : Nat} {ns : List Nat} : .ended n ∈ bouts ns ↔ n ∈ ns := by
  simp [bouts]

theorem bouts_concat (ns : List Nat) (n : Nat) :
    bouts (ns ++ [n]) = bouts ns ++ [.started n] ++ [.ended n] := by
  simp [bouts]

/-! ## Consistency -/

/-- What may stand before what in a log. -/
structure Precedes (x y : Occurrence × Instant) : Prop where
  /-- Time does not go back. -/
  time : x.2 ≤ y.2
  /-- Works are asked for in their order. -/
  order : ∀ m n, x.1 = .fired m → y.1 = .fired n → m < n
  /-- No work starts after the drop, nor after a later one was asked for. -/
  wanted : ∀ n, y.1 = .work (.started n) → x.1 ≠ .dropped ∧ ∀ m, x.1 = .fired m → m ≤ n

/-- What has occurred was not later than now, and is about a work that was asked for. -/
def Timeline.Knows (w : Timeline) (x : Occurrence × Instant) : Prop :=
  x.2 ≤ w.now ∧
    match x.1 with
    | .fired n | .armed n | .work (.started n) | .work (.ended n) => n < w.fired
    | .dropped => w.isLive = false

/-- The log says of a pending work what its stage says. -/
def Tallies (p : Plan) (log : List (Occurrence × Instant)) (n : Nat) : Stage → Prop
  | .fresh => Never log (.armed n)
  | .armed due => ∃ t, OnlyAt log (.armed n) t ∧ due = t + p.delay n
  | .running until_ => ∃ t, OnlyAt log (.work (.started n)) t ∧ until_ = t + p.duration n

/-- The work has started, if it is under way. -/
def Call.underWay (c : Call Nat) : List (Event Nat) :=
  match c.stage with
  | .running _ => [.started c.work]
  | _ => []

/-- The works that have started and not ended. -/
def underWay (d : Debouncer Nat) : List (Event Nat) :=
  (d.calls.map Call.underWay).flatten

/-- The log and the pending requests agree with each other. -/
structure Consistent (p : Plan) (w : Timeline) : Prop where
  /-- The pending works are the last ones. -/
  numbered : w.debouncer.calls.map (·.work) <:+ List.range w.fired
  delays : ∀ c ∈ w.debouncer.calls, c.delay = p.delay c.work
  cancelled_iff : ∀ c ∈ w.debouncer.calls,
    c.cancelled = true ↔ c.work + 1 < w.fired ∨ w.isLive = false
  /-- Only the oldest work is under way. -/
  waiting : ∀ es ∈ (w.debouncer.calls.map Call.underWay).tail, es = []
  tallies : ∀ c ∈ w.debouncer.calls, Tallies p w.log c.work c.stage
  /-- The works that have started took turns. -/
  turns : ∃ ns, (ns ++ w.debouncer.calls.map (·.work)).Pairwise (· < ·) ∧
    eventsOf w.log = bouts ns ++ w.debouncer.underWay
  /-- The last work is not forgotten before it has ended. -/
  last : w.isLive = true → ∀ n, n + 1 = w.fired →
    n ∈ w.debouncer.calls.map (·.work) ∨ .ended n ∈ eventsOf w.log
  history : w.log.Pairwise Precedes
  knows : ∀ x ∈ w.log, w.Knows x
  /-- No work starts before its time. -/
  punctual : ∀ n t, (.work (.started n), t) ∈ w.log →
    ∃ t₀, OnlyAt w.log (.armed n) t₀ ∧ t₀ + p.delay n ≤ t
  /-- No work ends before its time. -/
  full : ∀ n t t', (.work (.started n), t) ∈ w.log → (.work (.ended n), t') ∈ w.log →
    t + p.duration n ≤ t'

theorem Tallies.append {p : Plan} {log new : List (Occurrence × Instant)} {n : Nat} {s : Stage}
    (h : Tallies p log n s)
    (hnew : ∀ x ∈ new, x.1 ≠ .armed n ∧ x.1 ≠ .work (.started n)) :
    Tallies p (log ++ new) n s := by
  cases s with
  | fresh => exact Never.append h fun x hx => (hnew x hx).1
  | armed due =>
    obtain ⟨t, hat, hdue⟩ := h
    exact ⟨t, hat.append fun x hx => (hnew x hx).1, hdue⟩
  | running until_ =>
    obtain ⟨t, hat, huntil⟩ := h
    exact ⟨t, hat.append fun x hx => (hnew x hx).2, huntil⟩

theorem consistent_start (p : Plan) : Consistent p .start := by
  constructor
  case turns => exact ⟨[], List.Pairwise.nil, rfl⟩
  all_goals simp [Timeline.start, idle]

section Pending

variable {p : Plan} {w : Timeline} {c c' : Call Nat}

theorem Call.underWay_of_not_isRunning (h : ¬ c.stage.IsRunning) : c.underWay = [] := by
  unfold Call.underWay
  split
  · next until_ hstage => exact absurd (by rw [hstage]; trivial) h
  · rfl

theorem Call.mem_underWay {e : Event Nat} (h : e ∈ c.underWay) :
    e = .started c.work ∧ c.stage.IsRunning := by
  unfold Call.underWay at h
  split at h
  · next until_ hstage => exact ⟨List.mem_singleton.mp h, by rw [hstage]; trivial⟩
  · cases h

theorem mem_underWay {d : Debouncer Nat} {e : Event Nat} (h : e ∈ d.underWay) :
    ∃ c ∈ d.calls, e = .started c.work ∧ c.stage.IsRunning := by
  obtain ⟨es, hes, he⟩ := List.mem_flatten.mp h
  obtain ⟨c, hc, rfl⟩ := List.mem_map.mp hes
  exact ⟨c, hc, Call.mem_underWay he⟩

theorem Consistent.eq_of_work_eq (h : Consistent p w) (hc : c ∈ w.debouncer.calls)
    (hc' : c' ∈ w.debouncer.calls) (heq : c.work = c'.work) : c = c' :=
  List.inj_on_of_nodup_map (h.numbered.sublist.nodup List.nodup_range) hc hc' heq

theorem Consistent.work_lt_fired (h : Consistent p w) (hc : c ∈ w.debouncer.calls) :
    c.work < w.fired :=
  List.mem_range.mp (h.numbered.sublist.subset (List.mem_map_of_mem hc))

/-- A request that is not cancelled is the last one of a debouncer that is still there. -/
theorem Consistent.of_not_cancelled (h : Consistent p w) (hc : c ∈ w.debouncer.calls)
    (hwanted : c.cancelled = false) : c.work + 1 = w.fired ∧ w.isLive = true := by
  have hnot := (h.cancelled_iff c hc).not.mp (by simp [hwanted])
  have hlt := h.work_lt_fired hc
  rw [not_or, Bool.not_eq_false] at hnot
  exact ⟨by omega, hnot.2⟩

theorem Consistent.not_ended (h : Consistent p w) (hc : c ∈ w.debouncer.calls) :
    .ended c.work ∉ eventsOf w.log := by
  obtain ⟨ns, hns, hevents⟩ := h.turns
  rw [hevents, List.mem_append, ended_mem_bouts]
  rintro (hmem | hmem)
  · exact Nat.lt_irrefl _ ((List.pairwise_append.mp hns).2.2 _ hmem _ (List.mem_map_of_mem hc))
  · obtain ⟨x, -, hended, -⟩ := mem_underWay hmem
    cases hended

theorem Consistent.not_started (h : Consistent p w) (hc : c ∈ w.debouncer.calls)
    (hwaits : ¬ c.stage.IsRunning) : Never w.log (.work (.started c.work)) := by
  obtain ⟨ns, hns, hevents⟩ := h.turns
  intro t ht
  have hmem := mem_eventsOf.mpr ⟨t, ht⟩
  rw [hevents, List.mem_append, started_mem_bouts] at hmem
  rcases hmem with hmem | hmem
  · exact Nat.lt_irrefl _ ((List.pairwise_append.mp hns).2.2 _ hmem _ (List.mem_map_of_mem hc))
  · obtain ⟨x, hx, hstarted, hrunning⟩ := mem_underWay hmem
    exact hwaits (h.eq_of_work_eq hc hx (Event.started.inj hstarted) ▸ hrunning)

end Pending

/-! ## Requests -/

theorem map_cancelLast {α β : Type} {f : Call α → β}
    (hf : ∀ c, f { c with cancelled := true } = f c) (d : Debouncer α) :
    d.cancelLast.calls.map f = d.calls.map f := by
  rcases List.eq_nil_or_concat d.calls with hnil | ⟨elder, c, hcalls⟩
  · simp only [cancelLast, hnil, List.getLast?_nil]
  · rw [List.concat_eq_append] at hcalls
    simp only [cancelLast, hcalls, List.getLast?_concat, List.dropLast_concat, List.map_append,
      List.map_singleton, hf]

/-- Who cancels the last request finds all others cancelled. -/
theorem Consistent.cancelled_of_mem_cancelLast {p : Plan} {w : Timeline} (h : Consistent p w)
    {c : Call Nat} (hc : c ∈ w.debouncer.cancelLast.calls) : c.cancelled = true := by
  rcases List.eq_nil_or_concat w.debouncer.calls with hnil | ⟨elder, x, hcalls⟩
  · simp [cancelLast, hnil] at hc
  · rw [List.concat_eq_append] at hcalls
    simp only [cancelLast, hcalls, List.getLast?_concat, List.dropLast_concat] at hc
    rcases List.mem_append.mp hc with hc | hc
    · have hmem : c ∈ w.debouncer.calls := hcalls ▸ List.mem_append_left _ hc
      have hsorted := List.pairwise_lt_range.sublist h.numbered.sublist
      rw [hcalls, List.map_append, List.pairwise_append] at hsorted
      have hlt := hsorted.2.2 c.work (List.mem_map_of_mem hc) x.work (by simp)
      have hx := h.work_lt_fired (hcalls ▸ List.mem_concat_self : x ∈ w.debouncer.calls)
      exact (h.cancelled_iff c hmem).mpr (Or.inl (by omega))
    · rw [List.mem_singleton.mp hc]

/-- What is said of a request whether it is cancelled or not. -/
theorem exists_of_mem_cancelLast {α : Type} {d : Debouncer α} {c : Call α}
    (hc : c ∈ d.cancelLast.calls) :
    ∃ x ∈ d.calls, x.work = c.work ∧ x.delay = c.delay ∧ x.stage = c.stage := by
  have hmem := List.mem_map_of_mem (f := fun c : Call α => (c.work, c.delay, c.stage)) hc
  rw [map_cancelLast fun _ => rfl] at hmem
  obtain ⟨x, hx, heq⟩ := List.mem_map.mp hmem
  simp only [Prod.mk.injEq] at heq
  exact ⟨x, hx, heq⟩

/-- What is known of a request is not changed when the last one is cancelled. -/
theorem Consistent.of_mem_cancelLast {p : Plan} {w : Timeline} (h : Consistent p w) {c : Call Nat}
    (hc : c ∈ w.debouncer.cancelLast.calls) :
    c.delay = p.delay c.work ∧ c.work < w.fired ∧ Tallies p w.log c.work c.stage := by
  obtain ⟨x, hx, hwork, hdelay, hstage⟩ := exists_of_mem_cancelLast hc
  rw [← hwork, ← hdelay, ← hstage]
  exact ⟨h.delays x hx, h.work_lt_fired hx, h.tallies x hx⟩

section Moves

variable {p : Plan} {w : Timeline}

theorem Consistent.knows_of_le (h : Consistent p w) {w' : Timeline} (hnow : w.now ≤ w'.now)
    (hfired : w.fired ≤ w'.fired) (hlive : w.isLive = false → w'.isLive = false) :
    ∀ x ∈ w.log, w'.Knows x := by
  intro x hx
  obtain ⟨htime, hwhat⟩ := h.knows x hx
  refine ⟨htime.trans hnow, ?_⟩
  split at hwhat
  case h_5 => exact hlive hwhat
  all_goals exact hwhat.trans_le hfired

/-- What was known stays so, and only what is new has to be looked at. -/
theorem Consistent.knows_append (h : Consistent p w) {w' : Timeline}
    {new : List (Occurrence × Instant)} (hnow : w.now ≤ w'.now) (hfired : w.fired ≤ w'.fired)
    (hlive : w.isLive = false → w'.isLive = false) (hnew : ∀ x ∈ new, w'.Knows x) :
    ∀ x ∈ w.log ++ new, w'.Knows x :=
  List.forall_mem_append.mpr ⟨h.knows_of_le hnow hfired hlive, hnew⟩

/-- Who only writes down what happens to requests need not look at what came before. -/
theorem Consistent.history_append (h : Consistent p w) {new : List (Occurrence × Instant)}
    (hnow : ∀ y ∈ new, y.2 = w.now)
    (hplain : ∀ y ∈ new, ∀ n, y.1 ≠ .fired n ∧ y.1 ≠ .work (.started n)) :
    (w.log ++ new).Pairwise Precedes := by
  have hprecedes : ∀ x : Occurrence × Instant, x.2 ≤ w.now → ∀ y ∈ new, Precedes x y :=
    fun x hx y hy =>
      { time := (hnow y hy).symm ▸ hx
        order := fun m n _ hn => absurd hn (hplain y hy n).1
        wanted := fun n hn => absurd hn (hplain y hy n).2 }
  refine List.pairwise_append.mpr ⟨h.history, ?_, fun x hx => hprecedes x (h.knows x hx).1⟩
  exact List.pairwise_of_forall_mem_list fun x hx => hprecedes x (hnow x hx).le

/-- What is said about requests leaves what is known about works as it is, as long as no timer is
set for a work that has started. -/
theorem Consistent.punctual_append (h : Consistent p w) {new : List (Occurrence × Instant)}
    (hquiet : IsQuiet new)
    (harmed : ∀ n t, (.armed n, t) ∈ new → Never w.log (.work (.started n))) :
    ∀ n t, (.work (.started n), t) ∈ w.log ++ new →
      ∃ t₀, OnlyAt (w.log ++ new) (.armed n) t₀ ∧ t₀ + p.delay n ≤ t := by
  intro n t ht
  rw [hquiet.work_mem_append] at ht
  obtain ⟨t₀, hat, hle⟩ := h.punctual n t ht
  refine ⟨t₀, hat.append ?_, hle⟩
  rintro ⟨o, t'⟩ hx rfl
  exact harmed n t' hx t ht

theorem Consistent.full_append (h : Consistent p w) {new : List (Occurrence × Instant)}
    (hquiet : IsQuiet new) : ∀ n t t', (.work (.started n), t) ∈ w.log ++ new →
      (.work (.ended n), t') ∈ w.log ++ new → t + p.duration n ≤ t' := by
  intro n t t' ht ht'
  rw [hquiet.work_mem_append] at ht ht'
  exact h.full n t t' ht ht'

theorem mem_tail_concat {α : Type} {l : List α} {x s : α} (hs : s ∈ (l ++ [x]).tail) :
    s ∈ l.tail ∨ s = x := by
  cases l with
  | nil => cases hs
  | cons y l =>
    rw [List.cons_append, List.tail_cons, List.mem_append, List.mem_singleton] at hs
    exact hs

theorem map_underWay_cancelLast (d : Debouncer Nat) :
    d.cancelLast.calls.map Call.underWay = d.calls.map Call.underWay :=
  map_cancelLast (fun _ => rfl) d

theorem map_underWay_fire (d : Debouncer Nat) (delay n : Nat) :
    (d.fire delay n).calls.map Call.underWay = d.calls.map Call.underWay ++ [[]] := by
  rw [← map_underWay_cancelLast d]
  exact List.map_append

theorem map_work_fire {α : Type} (d : Debouncer α) (delay : Nat) (work : α) :
    (d.fire delay work).calls.map (·.work) = d.calls.map (·.work) ++ [work] := by
  rw [← map_cancelLast (fun _ => rfl) d]
  exact List.map_append

/-- What holds of the requests that are pending after one more holds of those that were, once the
last one of them is cancelled, and of the new one. -/
theorem forall_mem_fire {α : Type} {d : Debouncer α} {delay : Nat} {work : α}
    {P : Call α → Prop} : (∀ c ∈ (d.fire delay work).calls, P c) ↔
      (∀ c ∈ d.cancelLast.calls, P c) ∧ P ⟨work, delay, false, .fresh⟩ :=
  List.forall_mem_append.trans (and_congr_right' List.forall_mem_singleton)

theorem Consistent.fire (h : Consistent p w) : Consistent p (w.fire p) := by
  unfold Timeline.fire
  split
  case isFalse => exact h
  case isTrue hlive =>
    have hworks := map_work_fire w.debouncer (p.delay w.fired) w.fired
    have hquiet : IsQuiet [(.fired w.fired, w.now)] := isQuiet_singleton rfl
    constructor
    case numbered =>
      obtain ⟨forgotten, hall⟩ := h.numbered
      refine ⟨forgotten, ?_⟩
      rw [hworks, ← List.append_assoc, hall, List.range_succ]
    case delays => exact forall_mem_fire.mpr ⟨fun c hc => (h.of_mem_cancelLast hc).1, rfl⟩
    case cancelled_iff =>
      refine forall_mem_fire.mpr ⟨fun c hc => ?_, by simp [hlive]⟩
      simp only [h.cancelled_of_mem_cancelLast hc, true_iff]
      exact Or.inl (Nat.succ_lt_succ (h.of_mem_cancelLast hc).2.1)
    case waiting =>
      intro es hes
      rw [map_underWay_fire] at hes
      exact (mem_tail_concat hes).elim (h.waiting es) id
    case tallies =>
      have hnever : Never w.log (.armed w.fired) := fun t ht => Nat.lt_irrefl _ (h.knows _ ht).2
      refine forall_mem_fire.mpr ⟨fun c hc => ?_, hnever.append (by simp)⟩
      exact (h.of_mem_cancelLast hc).2.2.append (by simp)
    case turns =>
      obtain ⟨ns, hns, hturns⟩ := h.turns
      have hunder : (w.debouncer.fire (p.delay w.fired) w.fired).underWay =
          w.debouncer.underWay := by
        rw [underWay, map_underWay_fire, List.flatten_append, List.flatten_singleton,
          List.append_nil, underWay]
      refine ⟨ns, ?_, by rw [hquiet.eventsOf_append, hunder, hturns]⟩
      rw [hworks, ← List.append_assoc, List.pairwise_append]
      refine ⟨hns, List.pairwise_singleton _ _, fun n hn m hm => ?_⟩
      rw [List.mem_singleton.mp hm]
      rcases List.mem_append.mp hn with hn | hn
      · have hstarted : .started n ∈ eventsOf w.log := by simp [hturns, hn]
        obtain ⟨t, ht⟩ := mem_eventsOf.mp hstarted
        exact (h.knows _ ht).2
      · obtain ⟨c, hc, rfl⟩ := List.mem_map.mp hn
        exact h.work_lt_fired hc
    case last =>
      intro _ n hn
      refine Or.inl ?_
      rw [hworks, Nat.succ.inj hn]
      exact List.mem_concat_self
    case history =>
      rw [List.pairwise_append]
      refine ⟨h.history, List.pairwise_singleton _ _, fun x hx y hy => ?_⟩
      rw [List.mem_singleton.mp hy]
      obtain ⟨htime, hwhat⟩ := h.knows x hx
      refine ⟨htime, fun m n hm hn => ?_, fun n hn => by cases hn⟩
      rw [hm] at hwhat
      cases hn
      exact hwhat
    case knows =>
      refine h.knows_append le_rfl (Nat.le_succ _) id (List.forall_mem_singleton.mpr ?_)
      exact ⟨le_rfl, Nat.lt_succ_self _⟩
    case punctual => exact h.punctual_append hquiet (by simp)
    case full => exact h.full_append hquiet

theorem Consistent.drop (h : Consistent p w) : Consistent p w.drop := by
  unfold Timeline.drop
  split
  case isFalse => exact h
  case isTrue hlive =>
    have hquiet : IsQuiet [(.dropped, w.now)] := isQuiet_singleton rfl
    have hworks : w.debouncer.cancelLast.calls.map (·.work) = w.debouncer.calls.map (·.work) :=
      map_cancelLast (fun _ => rfl) _
    constructor
    case numbered => exact hworks ▸ h.numbered
    case delays => exact fun c hc => (h.of_mem_cancelLast hc).1
    case cancelled_iff =>
      intro c hc
      simp only [h.cancelled_of_mem_cancelLast hc, or_true]
    case waiting =>
      rw [map_underWay_cancelLast]
      exact h.waiting
    case tallies => exact fun c hc => (h.of_mem_cancelLast hc).2.2.append (by simp)
    case turns =>
      obtain ⟨ns, hns, hturns⟩ := h.turns
      refine ⟨ns, hworks.symm ▸ hns, ?_⟩
      rw [hquiet.eventsOf_append, hturns, underWay, underWay, map_underWay_cancelLast]
    case last => exact fun hlive => by cases hlive
    case history => exact h.history_append (by simp) (by simp)
    case knows =>
      refine h.knows_append le_rfl le_rfl (fun _ => rfl) (List.forall_mem_singleton.mpr ?_)
      exact ⟨le_rfl, rfl⟩
    case punctual => exact h.punctual_append hquiet (by simp)
    case full => exact h.full_append hquiet

theorem Consistent.wait (h : Consistent p w) (ms : Nat) : Consistent p (w.wait ms) :=
  { h with
    knows := h.knows_of_le (Nat.le_add_right _ _) le_rfl id }

/-! ## Looking -/

theorem map_look {β : Type} {f : Call Nat → β} (hf : ∀ now c, f (Call.arm now c) = f c)
    (now : Instant) (which : Nat → Bool) (d : Debouncer Nat) :
    (d.look now which).calls.map f = d.calls.map f := by
  rw [Debouncer.look, List.map_map]
  refine List.map_congr_left fun c _ => ?_
  simp only [Function.comp_apply]
  split
  · exact hf now c
  · rfl

theorem Call.work_arm {α : Type} (now : Instant) (c : Call α) : (c.arm now).work = c.work := by
  unfold Call.arm
  split <;> rfl

theorem Call.delay_arm {α : Type} (now : Instant) (c : Call α) : (c.arm now).delay = c.delay := by
  unfold Call.arm
  split <;> rfl

theorem Call.underWay_arm (now : Instant) (c : Call Nat) : (c.arm now).underWay = c.underWay := by
  cases hstage : c.stage <;> simp only [Call.underWay, Call.arm, hstage]

theorem mem_arming {which : Nat → Bool} {x : Occurrence × Instant} :
    x ∈ w.arming which ↔ ∃ c ∈ w.debouncer.calls, c.stage = .fresh ∧ which c.work = true ∧
      x = (.armed c.work, w.now) := by
  simp only [Timeline.arming, List.mem_map, List.mem_filter, Bool.and_eq_true, decide_eq_true_eq,
    and_assoc]
  refine exists_congr fun c => and_congr_right fun _ => and_congr_right fun _ =>
    and_congr_right fun _ => eq_comm

theorem isQuiet_arming (which : Nat → Bool) : IsQuiet (w.arming which) := by
  intro x hx
  obtain ⟨c, -, -, -, rfl⟩ := mem_arming.mp hx
  rfl

/-- A fresh request that is looked at is armed now; all other requests, and what the log says about
them, stay as they are. -/
theorem Consistent.tallies_look (h : Consistent p w) (which : Nat → Bool) {c : Call Nat}
    (hc : c ∈ w.debouncer.calls) :
    Tallies p (w.log ++ w.arming which) c.work
      (if which c.work then c.arm w.now else c).stage := by
  by_cases hlook : c.stage = .fresh ∧ which c.work = true
  · obtain ⟨hfresh, hwhich⟩ := hlook
    have hnever : Never w.log (.armed c.work) := by
      have hold := h.tallies c hc
      rwa [hfresh] at hold
    have hstage : (if which c.work then c.arm w.now else c).stage = .armed (w.now + c.delay) := by
      simp [hwhich, Call.arm, hfresh]
    rw [hstage, h.delays c hc]
    refine ⟨w.now, hnever.onlyAt (mem_arming.mpr ⟨c, hc, hfresh, hwhich, rfl⟩) ?_, rfl⟩
    intro t ht
    obtain ⟨x, -, -, -, hx⟩ := mem_arming.mp ht
    exact congrArg Prod.snd hx
  · have hstage : (if which c.work then c.arm w.now else c).stage = c.stage := by
      split
      · next hwhich =>
        unfold Call.arm
        split
        · next hfresh => exact absurd ⟨hfresh, hwhich⟩ hlook
        · rfl
      · rfl
    rw [hstage]
    refine (h.tallies c hc).append fun x hx => ?_
    obtain ⟨c', hc', hfresh, hwhich, rfl⟩ := mem_arming.mp hx
    refine ⟨fun heq => hlook ?_, nofun⟩
    rw [h.eq_of_work_eq hc hc' (Occurrence.armed.inj heq).symm]
    exact ⟨hfresh, hwhich⟩

theorem Consistent.look (h : Consistent p w) (which : Nat → Bool) :
    Consistent p (w.look which) := by
  have hworks := map_look (f := Call.work) Call.work_arm w.now which w.debouncer
  have hunder := map_look (f := Call.underWay) Call.underWay_arm w.now which w.debouncer
  have hquiet := isQuiet_arming (w := w) which
  constructor
  case numbered => exact hworks ▸ h.numbered
  case delays =>
    intro c hc
    obtain ⟨x, hx, rfl⟩ := List.mem_map.mp hc
    have hdelay := h.delays x hx
    split
    · rwa [Call.delay_arm, Call.work_arm]
    · exact hdelay
  case cancelled_iff =>
    intro c hc
    obtain ⟨x, hx, rfl⟩ := List.mem_map.mp hc
    have hcancelled := h.cancelled_iff x hx
    split
    · rwa [Call.cancelled_arm, Call.work_arm]
    · exact hcancelled
  case waiting => exact hunder ▸ h.waiting
  case tallies =>
    intro c hc
    obtain ⟨x, hx, rfl⟩ := List.mem_map.mp hc
    have hwork : (if which x.work then x.arm w.now else x).work = x.work := by
      split
      · exact Call.work_arm _ _
      · rfl
    rw [hwork]
    exact h.tallies_look which hx
  case turns =>
    obtain ⟨ns, hns, hturns⟩ := h.turns
    refine ⟨ns, hworks.symm ▸ hns, ?_⟩
    rw [underWay, ← hunder] at hturns
    exact (hquiet.eventsOf_append _).trans hturns
  case last =>
    intro hlive n hn
    have hold := h.last hlive n hn
    rwa [← hquiet.eventsOf_append w.log, ← hworks] at hold
  case history =>
    refine h.history_append (fun y hy => ?_) fun y hy => ?_
    all_goals obtain ⟨c, -, -, -, rfl⟩ := mem_arming.mp hy
    · rfl
    · exact fun n => ⟨nofun, nofun⟩
  case knows =>
    refine h.knows_append le_rfl le_rfl id fun x hx => ?_
    obtain ⟨c, hc, -, -, rfl⟩ := mem_arming.mp hx
    exact ⟨le_rfl, h.work_lt_fired hc⟩
  case punctual =>
    refine h.punctual_append hquiet fun n t ht => ?_
    obtain ⟨c, hc, hfresh, -, hx⟩ := mem_arming.mp ht
    rw [Occurrence.armed.inj (congrArg Prod.fst hx)]
    exact h.not_started hc (by rw [hfresh]; exact id)
  case full => exact h.full_append hquiet

/-! ## Steps -/

/-- Once the oldest request is gone, no work is under way. -/
theorem Consistent.underWay_rest (h : Consistent p w) {c : Call Nat} {rest : List (Call Nat)}
    (hcalls : w.debouncer.calls = c :: rest) :
    w.debouncer.underWay = c.underWay ∧ (⟨rest⟩ : Debouncer Nat).underWay = [] := by
  have hwaiting := h.waiting
  rw [hcalls, List.map_cons, List.tail_cons] at hwaiting
  have hrest : (⟨rest⟩ : Debouncer Nat).underWay = [] := List.flatten_eq_nil_iff.mpr hwaiting
  refine ⟨?_, hrest⟩
  rw [underWay] at hrest
  rw [underWay, hcalls, List.map_cons, List.flatten_cons, hrest, List.append_nil]

/-- The oldest request goes, and what it leaves in the log is about its own work. -/
theorem Consistent.tail (h : Consistent p w) {c : Call Nat} {rest : List (Call Nat)}
    (hcalls : w.debouncer.calls = c :: rest) {es : List (Event Nat)}
    (hes : (es = [] ∧ c.cancelled = true ∧ ¬ c.stage.IsRunning) ∨
      (es = [.ended c.work] ∧ ∃ until_ ≤ w.now, c.stage = .running until_)) :
    Consistent p { w with debouncer := ⟨rest⟩, log := w.log ++ w.record es } := by
  have hc : c ∈ w.debouncer.calls := hcalls ▸ List.mem_cons_self
  have hrest : ∀ x ∈ rest, x ∈ w.debouncer.calls := fun x hx => hcalls ▸ List.mem_cons_of_mem c hx
  have hnew : ∀ y ∈ w.record es, y = (.work (.ended c.work), w.now) ∧
      ∃ until_ ≤ w.now, c.stage = .running until_ := by
    intro y hy
    obtain ⟨e, he, rfl⟩ := List.mem_map.mp hy
    rcases hes with ⟨rfl, -⟩ | ⟨rfl, huntil⟩
    · cases he
    · rw [List.mem_singleton.mp he]
      exact ⟨rfl, huntil⟩
  have hworks : w.debouncer.calls.map (·.work) = c.work :: rest.map (·.work) := by
    rw [hcalls, List.map_cons]
  obtain ⟨hunder, hunderRest⟩ := h.underWay_rest hcalls
  constructor
  case numbered =>
    refine List.IsSuffix.trans ?_ h.numbered
    rw [hworks]
    exact List.suffix_cons _ _
  case delays => exact fun x hx => h.delays x (hrest x hx)
  case cancelled_iff => exact fun x hx => h.cancelled_iff x (hrest x hx)
  case waiting =>
    intro es hes
    exact List.flatten_eq_nil_iff.mp hunderRest es (List.mem_of_mem_tail hes)
  case tallies =>
    refine fun x hx => (h.tallies x (hrest x hx)).append fun y hy => ?_
    rw [(hnew y hy).1]
    exact ⟨nofun, nofun⟩
  case turns =>
    obtain ⟨ns, hns, hturns⟩ := h.turns
    rw [hunder] at hturns
    rw [hworks] at hns
    rcases hes with ⟨rfl, -, hwaits⟩ | ⟨rfl, until_, -, hstage⟩
    · refine ⟨ns, hns.sublist ((List.sublist_cons_self _ _).append_left ns), ?_⟩
      rw [Call.underWay_of_not_isRunning hwaits] at hturns
      rw [hunderRest, ← hturns]
      exact congrArg eventsOf (List.append_nil _)
    · refine ⟨ns ++ [c.work], by rwa [List.append_assoc], ?_⟩
      rw [hunderRest, List.append_nil, bouts_concat]
      have hstarted : c.underWay = [.started c.work] := by simp only [Call.underWay, hstage]
      rw [← hstarted, ← hturns]
      exact eventsOf_append _ _
  case last =>
    intro hlive n hn
    rcases h.last hlive n hn with hmem | hended
    · rw [hworks, List.mem_cons] at hmem
      rcases hmem with rfl | hmem
      · rcases hes with ⟨-, hcancelled, -⟩ | ⟨rfl, -⟩
        · -- the last request of a debouncer that is still there is not cancelled
          have hcase := (h.cancelled_iff c hc).mp hcancelled
          rw [hlive, or_iff_left nofun] at hcase
          exact absurd hn (Nat.ne_of_lt hcase)
        · exact Or.inr (mem_eventsOf.mpr ⟨w.now, List.mem_concat_self⟩)
      · exact Or.inl hmem
    · exact Or.inr (eventsOf_append w.log _ ▸ List.mem_append_left _ hended)
  case history =>
    refine h.history_append (fun y hy => ?_) fun y hy => ?_
    all_goals rw [(hnew y hy).1]
    exact fun n => ⟨nofun, nofun⟩
  case knows =>
    refine h.knows_append le_rfl le_rfl id fun x hx => ?_
    rw [(hnew x hx).1]
    exact ⟨le_rfl, h.work_lt_fired hc⟩
  case punctual =>
    intro n t ht
    rcases List.mem_append.mp ht with ht | ht
    · obtain ⟨t₀, hat, hle⟩ := h.punctual n t ht
      refine ⟨t₀, hat.append fun y hy => ?_, hle⟩
      rw [(hnew y hy).1]
      exact nofun
    · exact nomatch (hnew _ ht).1
  case full =>
    intro n t t' ht ht'
    rcases List.mem_append.mp ht with ht | ht
    · rcases List.mem_append.mp ht' with ht' | ht'
      · exact h.full n t t' ht ht'
      · obtain ⟨heq, until_, huntil, hstage⟩ := hnew _ ht'
        cases heq
        have htallies := h.tallies c hc
        rw [hstage] at htallies
        obtain ⟨t₁, hat, rfl⟩ := htallies
        rwa [(hat t).mp ht]
    · exact nomatch (hnew _ ht).1

/-- The oldest request starts. -/
theorem Consistent.begin (h : Consistent p w) {c : Call Nat} {rest : List (Call Nat)}
    {due : Instant} (hcalls : w.debouncer.calls = c :: rest) (hstage : c.stage = .armed due)
    (hwanted : c.cancelled = false) (hdue : due ≤ w.now) :
    Consistent p { w with
      debouncer := ⟨{ c with stage := .running (w.now + p.duration c.work) } :: rest⟩
      log := w.log ++ w.record [.started c.work] } := by
  have hc : c ∈ w.debouncer.calls := hcalls ▸ List.mem_cons_self
  have hrest : ∀ x ∈ rest, x ∈ w.debouncer.calls := fun x hx => hcalls ▸ List.mem_cons_of_mem c hx
  obtain ⟨hlast, hlive⟩ := h.of_not_cancelled hc hwanted
  have hnever : Never w.log (.work (.started c.work)) :=
    h.not_started hc (by rw [hstage]; exact id)
  have hworks : (c :: rest).map (·.work) = w.debouncer.calls.map (·.work) := by rw [hcalls]
  obtain ⟨hunder, hunderRest⟩ := h.underWay_rest hcalls
  have hevents : eventsOf (w.log ++ w.record [.started c.work]) =
      eventsOf w.log ++ [.started c.work] := eventsOf_append _ _
  constructor
  case numbered => exact hworks ▸ h.numbered
  case delays => exact List.forall_mem_cons.mpr ⟨h.delays c hc, fun x hx => h.delays x (hrest x hx)⟩
  case cancelled_iff =>
    exact List.forall_mem_cons.mpr
      ⟨h.cancelled_iff c hc, fun x hx => h.cancelled_iff x (hrest x hx)⟩
  case waiting =>
    have hwaiting := h.waiting
    rwa [hcalls] at hwaiting
  case tallies =>
    refine List.forall_mem_cons.mpr ⟨⟨w.now, hnever.onlyAt (List.mem_singleton.mpr rfl) ?_, rfl⟩,
      fun x hx => (h.tallies x (hrest x hx)).append ?_⟩
    · intro t ht
      exact congrArg Prod.snd (List.mem_singleton.mp ht)
    · intro y hy
      rw [List.mem_singleton.mp hy]
      refine ⟨nofun, fun heq => ?_⟩
      have hwork : c.work = x.work := by simpa using heq
      have hnodup := h.numbered.sublist.nodup List.nodup_range
      rw [hcalls, List.map_cons, List.nodup_cons, hwork] at hnodup
      exact hnodup.1 (List.mem_map_of_mem hx)
  case turns =>
    obtain ⟨ns, hns, hturns⟩ := h.turns
    refine ⟨ns, hworks ▸ hns, ?_⟩
    rw [hunder, Call.underWay_of_not_isRunning (by rw [hstage]; exact id),
      List.append_nil] at hturns
    rw [hevents, hturns]
    exact congrArg _ (congrArg _ hunderRest).symm
  case last =>
    intro hlive n hn
    refine (h.last hlive n hn).imp (fun hmem => hworks ▸ hmem) fun hmem => ?_
    rw [hevents]
    exact List.mem_append_left _ hmem
  case history =>
    refine List.pairwise_append.mpr ⟨h.history, List.pairwise_singleton _ _, fun x hx y hy => ?_⟩
    rw [List.mem_singleton.mp hy]
    obtain ⟨htime, hwhat⟩ := h.knows x hx
    refine ⟨htime, fun m n _ hn => (nomatch hn), fun n hn => ⟨fun hdropped => ?_, fun m hm => ?_⟩⟩
    · rw [hdropped] at hwhat
      rw [hlive] at hwhat
      cases hwhat
    · rw [hm] at hwhat
      cases hn
      have hlt : m < w.fired := hwhat
      omega
  case knows =>
    refine h.knows_append le_rfl le_rfl id (List.forall_mem_singleton.mpr ?_)
    exact ⟨le_rfl, h.work_lt_fired hc⟩
  case punctual =>
    intro n t ht
    rcases List.mem_append.mp ht with ht | ht
    · obtain ⟨t₀, hat, hle⟩ := h.punctual n t ht
      exact ⟨t₀, hat.append (by simp [Timeline.record]), hle⟩
    · have hstarted := List.mem_singleton.mp ht
      cases hstarted
      have htallies := h.tallies c hc
      rw [hstage] at htallies
      obtain ⟨t₀, hat, rfl⟩ := htallies
      exact ⟨t₀, hat.append (by simp [Timeline.record]), hdue⟩
  case full =>
    intro n t t' ht ht'
    have hended : (.work (.ended n), t') ∈ w.log := by simpa [Timeline.record] using ht'
    rcases List.mem_append.mp ht with ht | ht
    · exact h.full n t t' ht hended
    · have hstarted := List.mem_singleton.mp ht
      cases hstarted
      exact absurd (mem_eventsOf.mpr ⟨t', hended⟩) (h.not_ended hc)

theorem Consistent.step (h : Consistent p w) : Consistent p (w.step p) := by
  unfold Timeline.step
  split
  · exact h
  · next es d hstep =>
    obtain ⟨c, rest, hcalls, ⟨due, hstage, hcancelled, rfl, hd⟩ |
      ⟨due, hstage, hwanted, hdue, rfl, hd⟩ | ⟨until_, hstage, huntil, rfl, hd⟩⟩ := step?_spec hstep
    · obtain rfl : d = ⟨rest⟩ := congrArg Debouncer.mk hd
      exact h.tail hcalls (Or.inl ⟨rfl, hcancelled, by rw [hstage]; exact id⟩)
    · obtain rfl : d = ⟨_⟩ := congrArg Debouncer.mk hd
      exact h.begin hcalls hstage hwanted hdue
    · obtain rfl : d = ⟨rest⟩ := congrArg Debouncer.mk hd
      exact h.tail hcalls (Or.inr ⟨rfl, until_, huntil, hstage⟩)

theorem Consistent.act (h : Consistent p w) (m : Move) : Consistent p (w.act p m) := by
  cases m with
  | fire => exact h.fire
  | drop => exact h.drop
  | look which => exact h.look which
  | step => exact h.step
  | wait ms => exact h.wait ms

theorem Consistent.foldl_act (h : Consistent p w) (row : List Move) :
    Consistent p (row.foldl (Timeline.act p) w) := by
  induction row generalizing w with
  | nil => exact h
  | cons m row ih => exact ih (h.act m)

end Moves

end Debouncer
end DebugTree
