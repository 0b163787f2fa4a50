import DebugTree.Proofs.Session.Connections

/-!
# What an adapter hears

A replay tells an adapter one thing after the other and waits for an answer each time.  What the
adapter has heard so far is a prefix of what there is to tell, and ends with the first thing that it
refuses (`World.Telling`).  This is a matter between the replay and the adapter: nothing that others
do in the meantime interferes with it.
-/

namespace DebugTree
namespace Session

open Protocol

/-! ## What is seen of a call -/

/-- What a call has asked adapters, oldest first. -/
def asked (c : CallId) (seen : List Event) : List AdapterCall :=
  seen.filterMap fun
    | .asked c' what => if c' = c then some what else none
    | _ => none

/-- What a call has ended with. -/
def result? (c : CallId) (seen : List Event) : Option (Except Fault Outcome) :=
  seen.findSome? fun
    | .finished c' result => if c' = c then some result else none
    | _ => none

variable {c : CallId} {seen seen' : List Event}

theorem asked_append : asked c (seen ++ seen') = asked c seen ++ asked c seen' :=
  List.filterMap_append

theorem result?_append : result? c (seen ++ seen') = (result? c seen).or (result? c seen') :=
  List.findSome?_append

theorem asked_eq_nil (hsilent : ∀ e ∈ seen, e.call ≠ c) : asked c seen = [] := by
  refine List.filterMap_eq_nil_iff.mpr fun e he => ?_
  cases e with
  | asked c' what => exact if_neg (hsilent _ he)
  | _ => rfl

theorem result?_eq_none (hsilent : ∀ e ∈ seen, e.call ≠ c) : result? c seen = none := by
  refine List.findSome?_eq_none_iff.mpr fun e he => ?_
  cases e with
  | finished c' result => exact if_neg (hsilent _ he)
  | _ => rfl

@[simp] theorem asked_asked (c : CallId) (what : AdapterCall) : asked c [.asked c what] = [what] := by
  simp [asked]

@[simp] theorem asked_finished (c c' : CallId) (result : Except Fault Outcome) :
    asked c [.finished c' result] = [] := rfl

@[simp] theorem result?_asked (c c' : CallId) (what : AdapterCall) :
    result? c [.asked c' what] = none := rfl

@[simp] theorem result?_finished (c : CallId) (result : Except Fault Outcome) :
    result? c [.finished c result] = some result := by
  simp [result?]

namespace World

variable {w : World} {actions : List Action} {m n N M k : Nat} {a : Action} {b : CallId}
  {target : TargetHandle} {id : TargetId} {h : RecordHandle} {r r' : Record}

/-- What is seen from one step on up to another. -/
def heard (w : World) (actions : List Action) (m n : Nat) : List Event :=
  (List.range' m (n - m)).flatMap (w.seenAt actions)

theorem heard_of_le (hnm : n ≤ m) : w.heard actions m n = [] := by
  rw [heard, Nat.sub_eq_zero_of_le hnm]
  rfl

theorem heard_succ (hmn : m ≤ n) :
    w.heard actions m (n + 1) = w.heard actions m n ++ w.seenAt actions n := by
  have hlast : List.range' m (n + 1 - m) = List.range' m (n - m) ++ [n] := by
    rw [Nat.sub_add_comm hmn, List.range'_1_concat, Nat.add_sub_cancel' hmn]
  rw [heard, heard, hlast, List.flatMap_append, List.flatMap_singleton]

/-- A step does nothing to a call. -/
structure IdleAt (w : World) (actions : List Action) (n : Nat) (c : CallId) : Prop where
  calls : (w.before actions (n + 1)).calls.get? c = (w.before actions n).calls.get? c
  silent : ∀ e ∈ w.seenAt actions n, e.call ≠ c

theorem idleAt_of_call? (hn : ∀ a, actions[n]? = some a → a.call? ≠ some c) :
    w.IdleAt actions n c := by
  cases ha : actions[n]? with
  | none =>
    refine ⟨by rw [before_succ_of_none ha], ?_⟩
    rw [seenAt, ha]
    exact fun _ he => absurd he List.not_mem_nil
  | some a =>
    refine ⟨by rw [before_succ ha, get?_calls_act (hn a ha)], fun e he hc => ?_⟩
    rw [seenAt_of_getElem? ha] at he
    exact hn a ha (hc ▸ call?_of_mem_act he)

theorem idleAt_of_act (hn : actions[n]? = some a)
    (ha : (w.before actions n).act a = (w.before actions n, [])) : w.IdleAt actions n c := by
  refine ⟨by rw [before_succ hn, ha], ?_⟩
  rw [seenAt_of_getElem? hn, ha]
  exact fun _ he => absurd he List.not_mem_nil

/-- A step is somebody else's, or lets a call go on, or answers it. -/
theorem idleAt_or (hstays : ∀ a, actions[n]? = some a → a.displaced? ≠ some c) :
    w.IdleAt actions n c ∨ actions[n]? = some (.resume c) ∨
      ∃ reply, actions[n]? = some (.answer c reply) := by
  by_cases hn : ∀ a, actions[n]? = some a → a.call? ≠ some c
  · exact Or.inl (idleAt_of_call? hn)
  · push Not at hn
    obtain ⟨a, ha, hc⟩ := hn
    rcases Action.eq_resume_or_answer hc (hstays a ha) with rfl | ⟨reply, rfl⟩
    · exact Or.inr (Or.inl ha)
    · exact Or.inr (Or.inr ⟨reply, ha⟩)

/-- A call that has ended does nothing. -/
theorem idleAt_of_none (hstays : ∀ a, actions[n]? = some a → a.displaced? ≠ some c)
    (hcall : (w.before actions n).calls.get? c = none) : w.IdleAt actions n c := by
  rcases idleAt_or hstays with hidle | hn | ⟨reply, hn⟩
  · exact hidle
  · exact idleAt_of_act hn (resume_of_none hcall)
  · exact idleAt_of_act hn (answer_of_none hcall reply)

theorem IdleAt.asked_heard (hidle : w.IdleAt actions n c) (hmn : m ≤ n) :
    asked c (w.heard actions m (n + 1)) = asked c (w.heard actions m n) := by
  rw [heard_succ hmn, asked_append, asked_eq_nil hidle.silent, List.append_nil]

theorem IdleAt.result?_heard (hidle : w.IdleAt actions n c) (hmn : m ≤ n) :
    result? c (w.heard actions m (n + 1)) = result? c (w.heard actions m n) := by
  rw [heard_succ hmn, result?_append, result?_eq_none hidle.silent, Option.or_none]

/-! ## What an adapter hears -/

/-- The adapter that a replay tells something refuses what it was asked last. -/
def FailsAt (w : World) (actions : List Action) (k : Nat) (c : CallId) (what : AdapterCall)
    (f : Fault) : Prop :=
  actions[k]? = some (.answer c (.error f)) ∧
    ∃ target rest, (w.before actions k).calls.get? c = some (.replaying target what rest)

theorem FailsAt.not_idleAt {what : AdapterCall} {f : Fault} (hfails : w.FailsAt actions k c what f) :
    ¬ w.IdleAt actions k c := by
  intro hidle
  obtain ⟨hk, target, rest, hcall⟩ := hfails
  have hended := hidle.calls
  rw [before_succ hk, act, answer_replaying_error hcall, get?_finish, hcall] at hended
  cases hended

/-- How far a replay has come that was begun by step `n` and has to tell `todo`: it waits for an
answer; or the adapter has heard everything; or the adapter has refused something, and has heard
what comes before it and nothing that comes after it. -/
inductive Telling (w : World) (actions : List Action) (n N : Nat) (c : CallId)
    (target : TargetHandle) (todo : List AdapterCall) : Prop
  | asks {done : List AdapterCall} {what : AdapterCall} {rest : List AdapterCall}
      (htodo : todo = done ++ what :: rest)
      (hcall : (w.before actions N).calls.get? c = some (.replaying target what rest))
      (hasked : asked c (w.heard actions n N) = done ++ [what])
      (hresult : result? c (w.heard actions n N) = none)
      (hfine : ∀ k what f, n < k → k < N → ¬ w.FailsAt actions k c what f)
  | ready (hcall : (w.before actions N).calls.get? c = none)
      (hasked : asked c (w.heard actions n N) = todo)
      (hresult : result? c (w.heard actions n N) = some (.ok (.replayed true)))
      (hfine : ∀ k what f, n < k → k < N → ¬ w.FailsAt actions k c what f)
  | failed {done : List AdapterCall} {what : AdapterCall} {rest : List AdapterCall} {f : Fault}
      {k : Nat} (htodo : todo = done ++ what :: rest)
      (hcall : (w.before actions N).calls.get? c = none)
      (hasked : asked c (w.heard actions n N) = done ++ [what])
      (hresult : result? c (w.heard actions n N) = some (.error f))
      (hnk : n < k) (hkN : k < N) (hfails : w.FailsAt actions k c what f)
      (hfirst : ∀ k' what' f', n < k' → k' < N → w.FailsAt actions k' c what' f' → k' = k)

/-- A replay that finds traffic asks the first thing. -/
theorem seenAt_of_traffic (hn : actions[n]? = some (.replay c target)) {t : Traffic}
    (hs : (w.before actions n).registry.session? ((w.before actions n).tree.idOf target) =
      some (h, r)) (ht : r.traffic = some t) :
    ∃ what rest, t.replay = what :: rest ∧ w.seenAt actions n = [.asked c what] ∧
      (w.before actions (n + 1)).calls.get? c = some (.replaying target what rest) := by
  obtain ⟨what, rest, hreplay⟩ := List.exists_cons_of_ne_nil t.replay_ne_nil
  refine ⟨what, rest, hreplay, ?_⟩
  rw [seenAt_of_getElem? hn, before_succ hn, act, replay, Registry.takeTraffic_of_session? hs]
  simp only [ht, hreplay, ask]
  exact ⟨trivial, Index.get?_insert_self _ _ _⟩

/-- A replay begins. -/
theorem telling_succ (hn : actions[n]? = some (.replay c target)) {t : Traffic}
    (hs : (w.before actions n).registry.session? ((w.before actions n).tree.idOf target) =
      some (h, r)) (ht : r.traffic = some t) : w.Telling actions n (n + 1) c target t.replay := by
  obtain ⟨what, rest, hreplay, hseen, hcall⟩ := seenAt_of_traffic hn hs ht
  have hheard : w.heard actions n (n + 1) = [.asked c what] := by
    rw [heard_succ (Nat.le_refl n), heard_of_le (Nat.le_refl n), hseen, List.nil_append]
  have htodo : t.replay = [] ++ what :: rest := hreplay
  refine .asks htodo hcall ?_ ?_ fun k what f hnk hkn => ?_
  · rw [hheard, asked_asked, List.nil_append]
  · rw [hheard, result?_asked]
  · exact absurd hkn (Nat.not_lt_of_le hnk)

theorem Telling.idle {todo : List AdapterCall} (htelling : w.Telling actions n N c target todo)
    (hnN : n ≤ N) (hidle : w.IdleAt actions N c) :
    w.Telling actions n (N + 1) c target todo := by
  have hasked' := hidle.asked_heard hnN
  have hresult' := hidle.result?_heard hnN
  have hlast {k : Nat} {what : AdapterCall} {f : Fault} (hk : k < N + 1)
      (hfails : w.FailsAt actions k c what f) : k < N := by
    rcases Nat.lt_succ_iff_lt_or_eq.mp hk with hk | rfl
    · exact hk
    · exact absurd hidle hfails.not_idleAt
  cases htelling with
  | asks htodo hcall hasked hresult hfine =>
    exact .asks htodo (hidle.calls.trans hcall) (hasked'.trans hasked) (hresult'.trans hresult)
      fun k what f hnk hk hfails => hfine k what f hnk (hlast hk hfails) hfails
  | ready hcall hasked hresult hfine =>
    exact .ready (hidle.calls.trans hcall) (hasked'.trans hasked) (hresult'.trans hresult)
      fun k what f hnk hk hfails => hfine k what f hnk (hlast hk hfails) hfails
  | failed htodo hcall hasked hresult hnk hkN hfails hfirst =>
    exact .failed htodo (hidle.calls.trans hcall) (hasked'.trans hasked) (hresult'.trans hresult)
      hnk (Nat.lt_succ_of_lt hkN) hfails
      fun k' what' f' hnk' hk' hfails' => hfirst k' what' f' hnk' (hlast hk' hfails') hfails'

/-- What a step does to a replay that waits for an answer. -/
inductive Answers (w : World) (actions : List Action) (N : Nat) (c : CallId)
    (target : TargetHandle) (rest : List AdapterCall) : Prop
  | idle (hidle : w.IdleAt actions N c)
  | next {what : AdapterCall} {rest' : List AdapterCall} (hrest : rest = what :: rest')
      (haction : actions[N]? = some (.answer c (.ok ())))
      (hcall : (w.before actions (N + 1)).calls.get? c = some (.replaying target what rest'))
      (hseen : w.seenAt actions N = [.asked c what])
  | ready (hrest : rest = []) (haction : actions[N]? = some (.answer c (.ok ())))
      (hcall : (w.before actions (N + 1)).calls.get? c = none)
      (hseen : w.seenAt actions N = [.finished c (.ok (.replayed true))])
  | failed {f : Fault} (haction : actions[N]? = some (.answer c (.error f)))
      (hcall : (w.before actions (N + 1)).calls.get? c = none)
      (hseen : w.seenAt actions N = [.finished c (.error f)])

theorem answers_of_replaying {what : AdapterCall} {rest : List AdapterCall}
    (hcall : (w.before actions N).calls.get? c = some (.replaying target what rest))
    (hstays : ∀ a, actions[N]? = some a → a.displaced? ≠ some c)
    (hs : (w.before actions N).registry.session? ((w.before actions N).tree.idOf target) ≠ none) :
    w.Answers actions N c target rest := by
  rcases idleAt_or hstays with hidle | hN | ⟨reply, hN⟩
  · exact .idle hidle
  · have hrests : (w.before actions N).act (.resume c) = (w.before actions N, []) := by
      simp only [act, resume, hcall]
    exact .idle (idleAt_of_act hN hrests)
  · have hnext := before_succ (w := w) hN
    have hseen := seenAt_of_getElem? (w := w) hN
    rw [act] at hnext hseen
    cases reply with
    | error f =>
      rw [answer_replaying_error hcall] at hnext hseen
      exact .failed hN (by rw [hnext, get?_finish]) hseen
    | ok =>
      rw [answer_replaying_ok hcall] at hnext hseen
      cases rest with
      | cons next rest =>
        refine .next rfl hN ?_ hseen
        rw [hnext]
        exact Index.get?_insert_self _ _ _
      | nil =>
        obtain ⟨⟨h, r⟩, hs⟩ := Option.ne_none_iff_exists'.mp hs
        simp only [ask, Registry.ready_of_session? hs, finish] at hnext hseen
        refine .ready rfl hN ?_ hseen
        rw [hnext]
        exact Index.get?_erase_self _ _

/-- **A replay comes one answer further, or ends.** -/
theorem Telling.succ {todo : List AdapterCall} (htelling : w.Telling actions n N c target todo)
    (hnN : n < N) (hstays : ∀ a, actions[N]? = some a → a.displaced? ≠ some c)
    (hs : (w.before actions N).registry.session? ((w.before actions N).tree.idOf target) ≠ none) :
    w.Telling actions n (N + 1) c target todo := by
  have hle := Nat.le_of_lt hnN
  have hheard : w.heard actions n (N + 1) = w.heard actions n N ++ w.seenAt actions N :=
    heard_succ hle
  cases htelling with
  | ready hcall hasked hresult hfine =>
    exact (Telling.ready hcall hasked hresult hfine).idle hle (idleAt_of_none hstays hcall)
  | failed htodo hcall hasked hresult hnk hkN hfails hfirst =>
    exact (Telling.failed htodo hcall hasked hresult hnk hkN hfails hfirst).idle hle
      (idleAt_of_none hstays hcall)
  | @asks done what rest htodo hcall hasked hresult hfine =>
    have hlast {k : Nat} {what' : AdapterCall} {f : Fault} (hnk : n < k) (hk : k < N + 1)
        (hfails : w.FailsAt actions k c what' f) : k = N := by
      rcases Nat.lt_succ_iff_lt_or_eq.mp hk with hk | hk
      · exact absurd hfails (hfine k what' f hnk hk)
      · exact hk
    have hok (hN : actions[N]? = some (.answer c (.ok ()))) (k : Nat) (what' : AdapterCall)
        (f : Fault) (hnk : n < k) (hk : k < N + 1) : ¬ w.FailsAt actions k c what' f := by
      intro hfails
      obtain rfl := hlast hnk hk hfails
      cases hN.symm.trans hfails.1
    cases answers_of_replaying hcall hstays hs with
    | idle hidle => exact (Telling.asks htodo hcall hasked hresult hfine).idle hle hidle
    | @next next rest' hrest hN hcall' hseen =>
      have htodo' : todo = (done ++ [what]) ++ next :: rest' := by
        rw [htodo, hrest, List.append_assoc, List.singleton_append]
      refine .asks htodo' hcall' ?_ ?_ (hok hN)
      · rw [hheard, hseen, asked_append, hasked, asked_asked]
      · rw [hheard, hseen, result?_append, hresult, result?_asked, Option.or_none]
    | ready hrest hN hcall' hseen =>
      refine .ready hcall' ?_ ?_ (hok hN)
      · rw [hheard, hseen, asked_append, hasked, asked_finished, List.append_nil, htodo, hrest]
      · rw [hheard, hseen, result?_append, hresult, result?_finished, Option.none_or]
    | failed hN hcall' hseen =>
      refine .failed htodo hcall' ?_ ?_ hnN (Nat.lt_succ_self N) ⟨hN, target, rest, hcall⟩
        fun k what' f' hnk hk hfails => hlast hnk hk hfails
      · rw [hheard, hseen, asked_append, hasked, asked_finished, List.append_nil]
      · rw [hheard, hseen, result?_append, hresult, result?_finished, Option.none_or]

end World
end Session
end DebugTree
