import DebugTree.Debouncer
import Mathlib.Data.List.Basic

/-!
# What a debouncer loses, and what it does not

Every request cancels the one before it, so only the last one is still wanted; and every request
waits for its elder, so only the oldest one can be running (`Debouncer.Sound`).  A request that is
given up was cancelled, and one that starts was not.  So the wanted request is never given up: work
is *due* from the moment it is asked for until it starts, and when it starts nothing else is due.
-/

namespace DebugTree
namespace Debouncer

variable {α : Type} {d d' : Debouncer α} {now : Instant} {duration : α → Nat}

/-- The work is under way. -/
def Stage.IsRunning : Stage → Prop
  | .running _ => True
  | _ => False

/-- Only the last request is wanted, and only the oldest one can be running. -/
structure Sound (d : Debouncer α) : Prop where
  cancelled : ∀ c ∈ d.calls.dropLast, c.cancelled = true
  wanted : ∀ c, d.calls.getLast? = some c → c.cancelled = false
  waiting : ∀ c ∈ d.calls.tail, ¬ c.stage.IsRunning

/-- Some work is under way. -/
def IsBusy (d : Debouncer α) : Prop :=
  ∃ c, d.calls.head? = some c ∧ c.stage.IsRunning

/-- The last work that was asked for is still to start. -/
def IsDue (d : Debouncer α) : Prop :=
  ∃ c, d.calls.getLast? = some c ∧ ¬ c.stage.IsRunning

theorem sound_idle : (idle : Debouncer α).Sound := by
  constructor <;> simp [idle]

theorem not_isBusy_idle : ¬ (idle : Debouncer α).IsBusy := by
  rintro ⟨c, hc, -⟩
  cases hc

/-! ## Asking -/

theorem calls_fire_of_nil (h : d.calls = []) (delay : Nat) (work : α) :
    (d.fire delay work).calls = [⟨work, delay, false, .fresh⟩] := by
  simp [fire, cancelLast, h]

theorem calls_fire_of_concat {elder : List (Call α)} {c : Call α} (h : d.calls = elder ++ [c])
    (delay : Nat) (work : α) :
    (d.fire delay work).calls =
      elder ++ [{ c with cancelled := true }] ++ [⟨work, delay, false, .fresh⟩] := by
  simp [fire, cancelLast, h]

theorem isDue_fire (d : Debouncer α) (delay : Nat) (work : α) : (d.fire delay work).IsDue :=
  ⟨⟨work, delay, false, .fresh⟩, List.getLast?_concat, id⟩

theorem isBusy_fire (d : Debouncer α) (delay : Nat) (work : α) :
    (d.fire delay work).IsBusy ↔ d.IsBusy := by
  rcases List.eq_nil_or_concat d.calls with hnil | ⟨elder, c, hcalls⟩
  · rw [IsBusy, calls_fire_of_nil hnil, IsBusy, hnil]
    simp [Stage.IsRunning]
  · rw [List.concat_eq_append] at hcalls
    rw [IsBusy, calls_fire_of_concat hcalls, IsBusy, hcalls]
    cases elder <;> simp

theorem Sound.fire (h : d.Sound) (delay : Nat) (work : α) : (d.fire delay work).Sound := by
  rcases List.eq_nil_or_concat d.calls with hnil | ⟨elder, c, hcalls⟩
  · have hfire := calls_fire_of_nil hnil delay work
    constructor <;> rw [hfire] <;> simp
  · rw [List.concat_eq_append] at hcalls
    have hfire := calls_fire_of_concat hcalls delay work
    have hcancelled : ∀ x ∈ elder, x.cancelled = true := by
      have hold := h.cancelled
      rwa [hcalls, List.dropLast_concat] at hold
    constructor
    · rw [hfire, List.dropLast_concat]
      intro x hx
      rcases List.mem_append.mp hx with hx | hx
      · exact hcancelled x hx
      · rw [List.mem_singleton.mp hx]
    · rw [hfire, List.getLast?_concat]
      rintro x ⟨⟩
      rfl
    · have hwaiting := h.waiting
      rw [hcalls] at hwaiting
      rw [hfire]
      cases elder with
      | nil => simp [Stage.IsRunning]
      | cons x elder =>
        simp only [List.cons_append, List.tail_cons, List.mem_append,
          List.mem_singleton] at hwaiting ⊢
        rintro y ((hy | rfl) | rfl)
        · exact hwaiting y (Or.inl hy)
        · exact hwaiting c (Or.inr rfl)
        · exact id

/-! ## Looking -/

@[simp] theorem Call.cancelled_arm (now : Instant) (c : Call α) :
    (c.arm now).cancelled = c.cancelled := by
  unfold Call.arm
  split <;> rfl

@[simp] theorem Call.isRunning_arm (now : Instant) (c : Call α) :
    (c.arm now).stage.IsRunning ↔ c.stage.IsRunning := by
  unfold Call.arm
  split
  · next hfresh => simp [hfresh, Stage.IsRunning]
  · rfl

theorem Sound.arm (h : d.Sound) (now : Instant) : (d.arm now).Sound := by
  constructor
  · intro c hc
    rw [Debouncer.arm, ← List.map_dropLast] at hc
    obtain ⟨x, hx, rfl⟩ := List.mem_map.mp hc
    simpa using h.cancelled x hx
  · intro c hc
    rw [Debouncer.arm, List.getLast?_map] at hc
    obtain ⟨x, hx, rfl⟩ := Option.map_eq_some_iff.mp hc
    simpa using h.wanted x hx
  · intro c hc
    rw [Debouncer.arm, ← List.map_tail] at hc
    obtain ⟨x, hx, rfl⟩ := List.mem_map.mp hc
    simpa using h.waiting x hx

theorem isBusy_arm (d : Debouncer α) (now : Instant) : (d.arm now).IsBusy ↔ d.IsBusy := by
  simp [IsBusy, Debouncer.arm]

theorem isDue_arm (d : Debouncer α) (now : Instant) : (d.arm now).IsDue ↔ d.IsDue := by
  simp [IsDue, Debouncer.arm]

/-! ## Steps -/

/-- **All that a step can do**: the oldest request is given up, starts or ends, each under its own
condition. -/
theorem step?_spec {es : List (Event α)} (h : d.step? now duration = some (es, d')) :
    ∃ c rest, d.calls = c :: rest ∧
      ((∃ due, c.stage = .armed due ∧ c.cancelled = true ∧ es = [] ∧ d'.calls = rest) ∨
        (∃ due, c.stage = .armed due ∧ c.cancelled = false ∧ due ≤ now ∧ es = [.started c.work] ∧
          d'.calls = { c with stage := .running (now + duration c.work) } :: rest) ∨
        (∃ until_, c.stage = .running until_ ∧ until_ ≤ now ∧ es = [.ended c.work] ∧
          d'.calls = rest)) := by
  unfold step? at h
  split at h
  · cases h
  · next c rest hcalls =>
    refine ⟨c, rest, hcalls, ?_⟩
    split at h
    · cases h
    · next due hstage =>
      split at h
      · next hcancelled =>
        cases h
        exact Or.inl ⟨due, hstage, hcancelled, rfl, rfl⟩
      · next hcancelled =>
        split at h
        · next hdue =>
          cases h
          exact Or.inr (Or.inl ⟨due, hstage, Bool.not_eq_true _ ▸ hcancelled, hdue, rfl, rfl⟩)
        · cases h
    · next until_ hstage =>
      split at h
      · next huntil =>
        cases h
        exact Or.inr (Or.inr ⟨until_, hstage, huntil, rfl, rfl⟩)
      · cases h

/-- **What a step does to the oldest request**: it is given up, starts or ends. -/
theorem step?_cases {es : List (Event α)} (h : d.step? now duration = some (es, d')) :
    ∃ c rest, d.calls = c :: rest ∧
      ((es = [] ∧ c.cancelled = true ∧ ¬ c.stage.IsRunning ∧ d'.calls = rest) ∨
        (∃ until_, es = [.started c.work] ∧ c.cancelled = false ∧ ¬ c.stage.IsRunning ∧
          d'.calls = { c with stage := .running until_ } :: rest) ∨
        (es = [.ended c.work] ∧ c.stage.IsRunning ∧ d'.calls = rest)) := by
  obtain ⟨c, rest, hcalls, ⟨due, hstage, hcancelled, hes, hd'⟩ |
    ⟨due, hstage, hwanted, -, hes, hd'⟩ | ⟨until_, hstage, -, hes, hd'⟩⟩ := step?_spec h
  · exact ⟨c, rest, hcalls, Or.inl ⟨hes, hcancelled, by simp [hstage, Stage.IsRunning], hd'⟩⟩
  · exact ⟨c, rest, hcalls, Or.inr (Or.inl ⟨_, hes, hwanted, by simp [hstage, Stage.IsRunning],
      hd'⟩)⟩
  · exact ⟨c, rest, hcalls, Or.inr (Or.inr ⟨hes, by simp [hstage, Stage.IsRunning], hd'⟩)⟩

theorem not_isBusy_of_cons {c : Call α} {rest : List (Call α)} (hcalls : d.calls = c :: rest)
    (hc : ¬ c.stage.IsRunning) : ¬ d.IsBusy := by
  rintro ⟨x, hx, hrunning⟩
  rw [hcalls, List.head?_cons, Option.some.injEq] at hx
  exact hc (hx ▸ hrunning)

theorem Sound.tail (h : d.Sound) {c : Call α} {rest : List (Call α)}
    (hcalls : d.calls = c :: rest) (hd' : d'.calls = rest) : d'.Sound ∧ ¬ d'.IsBusy := by
  have hwaiting : ∀ x ∈ rest, ¬ x.stage.IsRunning := by
    have hold := h.waiting
    rwa [hcalls, List.tail_cons] at hold
  refine ⟨⟨fun x hx => h.cancelled x ?_, fun x hx => h.wanted x ?_, fun x hx =>
    hwaiting x (List.mem_of_mem_tail (hd' ▸ hx))⟩, ?_⟩
  · rw [hd'] at hx
    rw [hcalls, List.dropLast_cons_of_ne_nil (by rintro rfl; cases hx)]
    exact List.mem_cons_of_mem c hx
  · rw [hd'] at hx
    rw [hcalls, List.getLast?_cons, hx]
    rfl
  · rintro ⟨x, hx, hrunning⟩
    rw [hd'] at hx
    exact hwaiting x (List.mem_of_mem_head? hx) hrunning

/-- When the oldest request goes, and it was not the wanted one or has run, then work is due exactly
if it was. -/
theorem isDue_tail {c : Call α} {rest : List (Call α)} (hcalls : d.calls = c :: rest)
    (hd' : d'.calls = rest) (hc : rest ≠ [] ∨ c.stage.IsRunning) : d'.IsDue ↔ d.IsDue := by
  rw [IsDue, IsDue, hd', hcalls]
  cases rest with
  | nil =>
    have hrunning : c.stage.IsRunning := hc.resolve_left fun hne => hne rfl
    simp [hrunning]
  | cons x rest => rw [List.getLast?_cons_cons]

/-- **Whatever happens, the wanted request stays**: a step gives up another one; or it starts the
wanted one, and nothing else is due; or it ends one that was running. -/
theorem Sound.step (h : d.Sound) {es : List (Event α)}
    (hstep : d.step? now duration = some (es, d')) :
    d'.Sound ∧
      ((es = [] ∧ ¬ d.IsBusy ∧ ¬ d'.IsBusy ∧ (d'.IsDue ↔ d.IsDue)) ∨
        (∃ work, es = [.started work] ∧ ¬ d.IsBusy ∧ d'.IsBusy ∧ ¬ d'.IsDue) ∨
        (∃ work, es = [.ended work] ∧ d.IsBusy ∧ ¬ d'.IsBusy ∧ (d'.IsDue ↔ d.IsDue))) := by
  obtain ⟨c, rest, hcalls, hgiven | hstarted | hended⟩ := step?_cases hstep
  · obtain ⟨hes, hcancelled, hwaits, hd'⟩ := hgiven
    obtain ⟨hsound, hbusy⟩ := h.tail hcalls hd'
    have hrest : rest ≠ [] := by
      rintro rfl
      have hwanted := h.wanted c (by rw [hcalls, List.getLast?_singleton])
      rw [hcancelled] at hwanted
      cases hwanted
    exact ⟨hsound, Or.inl ⟨hes, not_isBusy_of_cons hcalls hwaits, hbusy,
      isDue_tail hcalls hd' (Or.inl hrest)⟩⟩
  · obtain ⟨until_, hes, hwanted, hwaits, hd'⟩ := hstarted
    have hrest : rest = [] := by
      by_contra hne
      have hcancelled := h.cancelled c (by
        rw [hcalls, List.dropLast_cons_of_ne_nil hne]
        exact List.mem_cons_self)
      rw [hwanted] at hcancelled
      cases hcancelled
    subst hrest
    refine ⟨⟨?_, ?_, ?_⟩, Or.inr (Or.inl ⟨c.work, hes, not_isBusy_of_cons hcalls hwaits, ?_, ?_⟩)⟩
    · rw [hd']
      exact fun x hx => absurd hx List.not_mem_nil
    · rw [hd']
      rintro x ⟨⟩
      exact hwanted
    · rw [hd']
      exact fun x hx => absurd hx List.not_mem_nil
    · exact ⟨{ c with stage := .running until_ }, by rw [hd', List.head?_cons], trivial⟩
    · rintro ⟨x, hx, hnot⟩
      rw [hd', List.getLast?_singleton, Option.some.injEq] at hx
      exact hnot (hx ▸ trivial)
  · obtain ⟨hes, hrunning, hd'⟩ := hended
    obtain ⟨hsound, hbusy⟩ := h.tail hcalls hd'
    refine ⟨hsound, Or.inr (Or.inr ⟨c.work, hes, ⟨c, ?_, hrunning⟩, hbusy,
      isDue_tail hcalls hd' (Or.inr hrunning)⟩)⟩
    rw [hcalls, List.head?_cons]

/-! ## Dropping

Whoever drops a debouncer cancels its last request, and by then all the others are cancelled. -/

/-- Every request is cancelled, and none is under way. -/
def IsVoid (d : Debouncer α) : Prop :=
  ∀ c ∈ d.calls, c.cancelled = true ∧ ¬ c.stage.IsRunning

theorem Sound.isVoid_cancelLast (h : d.Sound) (hidle : ¬ d.IsBusy) : d.cancelLast.IsVoid := by
  have hwaits : ∀ c ∈ d.calls, ¬ c.stage.IsRunning := by
    intro c hc hrunning
    cases hcalls : d.calls with
    | nil =>
      rw [hcalls] at hc
      exact absurd hc List.not_mem_nil
    | cons x rest =>
      rw [hcalls] at hc
      rcases List.mem_cons.mp hc with rfl | hc
      · exact hidle ⟨c, by rw [hcalls, List.head?_cons], hrunning⟩
      · exact h.waiting c (by rwa [hcalls, List.tail_cons]) hrunning
  rcases List.eq_nil_or_concat d.calls with hnil | ⟨elder, c, hcalls⟩
  · intro x hx
    simp only [cancelLast, hnil, List.getLast?_nil] at hx
    exact absurd hx List.not_mem_nil
  · rw [List.concat_eq_append] at hcalls
    have hcancelled := h.cancelled
    rw [hcalls, List.dropLast_concat] at hcancelled
    rw [hcalls] at hwaits
    intro x hx
    simp only [cancelLast, hcalls, List.getLast?_concat, List.dropLast_concat] at hx
    rcases List.mem_append.mp hx with hx | hx
    · exact ⟨hcancelled x hx, hwaits x (List.mem_append_left _ hx)⟩
    · rw [List.mem_singleton.mp hx]
      exact ⟨rfl, hwaits c List.mem_concat_self⟩

theorem IsVoid.arm (h : d.IsVoid) (now : Instant) : (d.arm now).IsVoid := by
  intro c hc
  obtain ⟨x, hx, rfl⟩ := List.mem_map.mp hc
  simpa using h x hx

/-- **A debouncer that was dropped starts nothing**: one request after the other is given up. -/
theorem IsVoid.step (h : d.IsVoid) {es : List (Event α)}
    (hstep : d.step? now duration = some (es, d')) : es = [] ∧ d'.IsVoid := by
  obtain ⟨c, rest, hcalls, hgiven | hstarted | hended⟩ := step?_cases hstep
  · obtain ⟨hes, -, -, hd'⟩ := hgiven
    refine ⟨hes, fun x hx => h x ?_⟩
    rw [hd'] at hx
    exact hcalls ▸ List.mem_cons_of_mem c hx
  · obtain ⟨until_, -, hwanted, -⟩ := hstarted
    have hcancelled := (h c (hcalls ▸ List.mem_cons_self)).1
    rw [hwanted] at hcancelled
    cases hcancelled
  · obtain ⟨-, hrunning, -⟩ := hended
    exact absurd hrunning (h c (hcalls ▸ List.mem_cons_self)).2

end Debouncer
end DebugTree
