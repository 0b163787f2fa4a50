import DebugTree.Proofs.Skipper.Lines

/-!
# Toggles that cross

Several toggles of one file may be under way at once, started on several sessions of one root.
Each decides first where it was started and tells the siblings then, one after the other.  Two
of them may come to two sessions in opposite orders, if neither has reached the session of the other
one when it is decided there.  Otherwise nobody overtakes: jobs leave a line in the order in which
they joined it, visit the siblings in one order, and wait in line at each.  So toggles of *one*
session stay in order, and so does a toggle of another session behind those that were in its line
already, or done with it, when it was started.

This is what `Orderly` says: of two toggles from one session, or with different states, the earlier
one is *ahead*.  What the sessions will think of the file in the end follows from it; `Heading` says
what that is.
-/

namespace DebugTree

/-! ## Before and after in a list -/

/-- One item stands somewhere before another in a list. -/
def Before {α : Type} (l : List α) (a b : α) : Prop :=
  [a, b].Sublist l

namespace Before

variable {α : Type} {l m : List α} {a b c : α}

theorem left_mem (h : Before l a b) : a ∈ l :=
  h.mem List.mem_cons_self

theorem right_mem (h : Before l a b) : b ∈ l :=
  h.mem (List.mem_cons_of_mem a List.mem_cons_self)

theorem append (h : Before l a b) (m : List α) : Before (l ++ m) a b :=
  h.trans (List.sublist_append_left l m)

theorem append_singleton (h : a ∈ l) (b : α) : Before (l ++ [b]) a b :=
  (List.singleton_sublist.mpr h).append (List.Sublist.refl [b])

theorem of_append_singleton (h : Before (l ++ [c]) a b) : Before l a b ∨ a ∈ l ∧ b = c := by
  obtain ⟨l₁, l₂, heq, h₁, h₂⟩ := List.sublist_append_iff.mp h
  match l₁, l₂, heq, h₁, h₂ with
  | [], l₂, heq, _, h₂ =>
    rw [List.nil_append] at heq
    rw [← heq] at h₂
    exact absurd h₂.length_le (by simp)
  | [x], l₂, heq, h₁, h₂ =>
    rw [List.singleton_append, List.cons.injEq] at heq
    rw [← heq.2] at h₂
    rw [← heq.1] at h₁
    exact Or.inr ⟨List.singleton_sublist.mp h₁,
      List.mem_singleton.mp (List.singleton_sublist.mp h₂)⟩
  | x :: y :: rest, l₂, heq, h₁, _ =>
    simp only [List.cons_append, List.cons.injEq, List.nil_eq_append_iff] at heq
    obtain ⟨rfl, rfl, rfl, -⟩ := heq
    exact Or.inl h₁

theorem not_first (hnd : (b :: l).Nodup) : ¬ Before (b :: l) a b := by
  intro h
  have hb := (List.nodup_cons.mp hnd).1
  cases h with
  | cons _ h => exact hb (right_mem h)
  | cons_cons _ h => exact hb (List.singleton_sublist.mp h)

theorem of_cons (h : Before (c :: l) a b) (ha : a ≠ c) : Before l a b := by
  cases h with
  | cons _ h => exact h
  | cons_cons _ h => exact absurd rfl ha

theorem filter (h : Before l a b) {p : α → Bool} (ha : p a = true) (hb : p b = true) :
    Before (l.filter p) a b := by
  have hfilter := List.Sublist.filter p h
  rwa [List.filter_cons_of_pos ha, List.filter_cons_of_pos hb, List.filter_nil] at hfilter

theorem of_filter {p : α → Bool} (h : Before (l.filter p) a b) : Before l a b :=
  h.trans List.filter_sublist

theorem ne (hnd : l.Nodup) (h : Before l a b) : a ≠ b := by
  rintro rfl
  exact (List.nodup_cons.mp (h.nodup hnd)).1 List.mem_cons_self

end Before

/-- A part of a list that does not begin with the first item is a part of the rest. -/
theorem sublist_of_head?_ne {α : Type} {l m : List α} {a : α} (hnd : (a :: m).Nodup)
    (h : l.Sublist (a :: m)) (hhead : l.head? ≠ some a) : l.Sublist m ∧ a ∉ l := by
  cases h with
  | cons _ h => exact ⟨h, fun ha => (List.nodup_cons.mp hnd).1 (h.mem ha)⟩
  | cons_cons _ h => exact absurd List.head?_cons hhead

/-- Of two parts of a list without repetitions, one is a part of the other if the other one has all
its items. -/
theorem sublist_of_subset {α : Type} {l m p : List α} (hnd : p.Nodup) (hl : l.Sublist p)
    (hm : m.Sublist p) (hsub : l ⊆ m) : l.Sublist m := by
  induction hm generalizing l with
  | slnil => exact hl
  | cons a hm ih =>
    obtain ⟨ha, hnd⟩ := List.nodup_cons.mp hnd
    cases hl with
    | cons _ hl => exact ih hnd hl hsub
    | cons_cons _ hl => exact absurd (hm.mem (hsub List.mem_cons_self)) ha
  | @cons_cons m p a hm ih =>
    obtain ⟨ha, hnd⟩ := List.nodup_cons.mp hnd
    have hrest : ∀ l' : List α, l'.Sublist p → l' ⊆ a :: m → l' ⊆ m := fun l' hl' hsub' b hb =>
      (List.mem_cons.mp (hsub' hb)).resolve_left fun heq => ha (heq ▸ hl'.mem hb)
    cases hl with
    | cons _ hl => exact (ih hnd hl (hrest _ hl hsub)).cons a
    | cons_cons _ hl =>
      exact (ih hnd hl (hrest _ hl (List.cons_subset.mp hsub).2)).cons_cons a

namespace Skipper

/-! ## What matters about a session -/

/-- What matters about a session to the toggles of a file. -/
structure Outlook where
  root : TargetId
  target : TargetId
  skipped : Bool
  isInternal : Bool
  pathCase : PathCase
  deriving DecidableEq

/-- What matters about this session. -/
def outlook (url : String) (s : Skipper) : Outlook :=
  ⟨s.root, s.target, s.policy.isSkipped url, s.policy.isNodeInternal url, s.policy.pathCase⟩

namespace World

/-- What matters about a session, if it is alive. -/
def outlook? (w : World) (url : String) (k : Listener) : Option Outlook :=
  (w.sessions.get? k).map (·.outlook url)

/-- The line of a session. -/
def line (w : World) (k : Listener) : List JobId :=
  ((w.sessions.get? k).map (·.line)).getD []

variable {w w' : World} {url : String} {k : Listener}

theorem outlook?_update (w : World) (url : String) (k k' : Listener) (f : Skipper → Skipper) :
    (w.update k f).outlook? url k' =
      if k = k' then (w.sessions.get? k).map fun s => (f s).outlook url
      else w.outlook? url k' := by
  rw [outlook?, update, Index.get?_modify]
  split
  · rw [Option.map_map]
    rfl
  · rfl

/-- What leaves alone what matters about a session. -/
theorem outlook?_update_of_eq {f : Skipper → Skipper}
    (hf : ∀ s, w.sessions.get? k = some s → (f s).outlook url = s.outlook url) (k' : Listener) :
    (w.update k f).outlook? url k' = w.outlook? url k' := by
  rw [outlook?_update]
  split
  · next hk =>
    subst hk
    rw [outlook?]
    cases hs : w.sessions.get? k with
    | none => rfl
    | some s => exact congrArg some (hf s hs)
  · rfl

theorem line_update (w : World) (k k' : Listener) (f : Skipper → Skipper) :
    (w.update k f).line k' =
      if k = k' then ((w.sessions.get? k).map fun s => (f s).line).getD [] else w.line k' := by
  rw [line, update, Index.get?_modify]
  split
  · rw [Option.map_map]
    rfl
  · rfl

end World

/-! ## What a job carries -/

/-- The session where the toggle of a job was started and the state that the job carries. -/
def World.bearing? (w : World) : Wait → Option (TargetId × Bool)
  | .turn k _ (.announce _ was) | .ranges k _ _ (.announce _ was) =>
    (w.sessions.get? k).map fun s => (s.target, !was)
  | .turn _ _ (.deliver e _ _) | .ranges _ _ _ (.deliver e _ _) => some (e.origin, e.skipped)
  | _ => none

/-- A job is a toggle of a URL that was started on a session of a root: it decides there, has
decided there, brings the decision to a sibling, or has brought it. -/
inductive Carries (w : World) (root : TargetId) (url : String) : Wait → TargetId → Bool → Prop
  | deciding {k : Listener} {x : Outlook} (hx : w.outlook? url k = some x) (hroot : x.root = root)
      (source : Option Source) (was : Bool) :
      Carries w root url (.turn k (.decide url source !was) (.announce url was)) x.target !was
  | decided {k : Listener} {x : Outlook} (hx : w.outlook? url k = some x) (hroot : x.root = root)
      (batch : RangeBatch) (renews : Bool) (was : Bool) (hskipped : x.skipped = !was) :
      Carries w root url (.ranges k batch renews (.announce url was)) x.target !was
  | bringing {k : Listener} {rest : List Listener} {origin : TargetId}
      (hrest : k :: rest <:+ w.peers root origin) (source : Option Source) (v : Bool)
      (outcome : Outcome) :
      Carries w root url
        (.turn k (.decide url source v) (.deliver ⟨root, origin, url, v⟩ rest outcome)) origin v
  | brought {k : Listener} {rest : List Listener} {origin : TargetId}
      (hrest : k :: rest <:+ w.peers root origin) (batch : RangeBatch) (renews : Bool) (v : Bool)
      (outcome : Outcome) :
      Carries w root url (.ranges k batch renews (.deliver ⟨root, origin, url, v⟩ rest outcome))
        origin v

/-- The siblings that a job has still to do with, once it has left the session where it was
started. -/
def Wait.remaining? : Wait → Option (List Listener)
  | .turn k _ (.deliver _ rest _) | .ranges k _ _ (.deliver _ rest _) => some (k :: rest)
  | _ => none

theorem Wait.listeners_of_remaining? {wait : Wait} {l : List Listener}
    (h : wait.remaining? = some l) : wait.listeners = l := by
  match wait, h with
  | .turn k c (.deliver e rest outcome), h => exact Option.some.inj h
  | .ranges k batch renews (.deliver e rest outcome), h => exact Option.some.inj h

/-- The job has still to bring its state to a session. -/
def Wait.IsPendingAt (k : Listener) : Wait → Prop
  | .turn _ _ (.announce _ _) => True
  | .ranges k' _ _ (.announce _ _) => k ≠ k'
  | .turn k' _ (.deliver _ rest _) => k ∈ k' :: rest
  | .ranges _ _ _ (.deliver _ rest _) => k ∈ rest
  | _ => False

/-- A toggle that is started on a session crosses none of those under way.  It will carry the
opposite of the state that the session has now.  Those of other sessions that carry this state are
in the line of the session already, or are done with it. -/
def World.IsClear (w : World) (url : String) (k : Listener) : Prop :=
  ∀ s, w.sessions.get? k = some s → ∀ j job o, w.jobs.get? j = some job →
    w.bearing? job.wait = some (o, s.policy.isSkipped url) → o ≠ s.target →
    job.wait.IsPendingAt k → job.wait.place? = some k

namespace Carries

variable {w w' : World} {root : TargetId} {url : String} {wait : Wait} {o o' : TargetId}
  {v v' : Bool}

theorem bearing?_eq (h : Carries w root url wait o v) : w.bearing? wait = some (o, v) := by
  cases h with
  | deciding hx | decided hx =>
    obtain ⟨s, hs, rfl⟩ := Option.map_eq_some_iff.mp hx
    rw [World.bearing?, hs]
    rfl
  | bringing | brought => rfl

theorem unique (h : Carries w root url wait o v) (h' : Carries w root url wait o' v') :
    o = o' ∧ v = v' := by
  have heq := h.bearing?_eq.symm.trans h'.bearing?_eq
  rwa [Option.some.injEq, Prod.mk.injEq] at heq

theorem remaining_suffix (h : Carries w root url wait o v) {l : List Listener}
    (hl : wait.remaining? = some l) : l <:+ w.peers root o ∧ wait.place? = l.head? := by
  cases h with
  | deciding | decided => exact absurd hl (by simp [Wait.remaining?])
  | bringing hrest | brought hrest => exact Option.some.inj hl ▸ ⟨hrest, rfl⟩

theorem mem_of_isPendingAt (h : Carries w root url wait o v) {l : List Listener}
    (hl : wait.remaining? = some l) {k : Listener} (hk : wait.IsPendingAt k) : k ∈ l := by
  cases h with
  | deciding | decided => exact absurd hl (by simp [Wait.remaining?])
  | bringing => exact Option.some.inj hl ▸ hk
  | brought => exact Option.some.inj hl ▸ List.mem_cons_of_mem _ hk

/-- A toggle that is done with a session, and is not there either, has left the session where it was
started, and does not come back. -/
theorem exists_remaining (h : Carries w root url wait o v) {k : Listener}
    (hdone : ¬ wait.IsPendingAt k) (hplace : wait.place? ≠ some k) :
    ∃ l, wait.remaining? = some l ∧ k ∉ l := by
  cases h with
  | deciding => exact absurd trivial hdone
  | decided => exact absurd (congrArg some (not_not.mp hdone).symm) hplace
  | bringing => exact ⟨_, rfl, hdone⟩
  | brought =>
    refine ⟨_, rfl, fun hk => (List.mem_cons.mp hk).elim (fun heq => ?_) hdone⟩
    exact hplace (congrArg some heq.symm)

/-- A toggle that has not left yet is where it was started. -/
theorem exists_outlook (h : Carries w root url wait o v) (hl : wait.remaining? = none) :
    ∃ k x, wait.place? = some k ∧ w.outlook? url k = some x ∧ x.root = root ∧ x.target = o := by
  cases h with
  | deciding hx hroot | decided hx hroot => exact ⟨_, _, rfl, hx, hroot, rfl⟩
  | bringing hrest | brought hrest => exact absurd hl (by simp [Wait.remaining?])

/-- A job carries the same in every world where its session and the siblings are the same. -/
theorem transport (h : Carries w root url wait o v)
    (hlook : ∀ k x, wait.place? = some k → w.outlook? url k = some x →
      ∃ x', w'.outlook? url k = some x' ∧ x'.root = x.root ∧ x'.target = x.target ∧
        (wait.IsSent → x'.skipped = x.skipped))
    (hpeers : ∀ l, wait.remaining? = some l → l <:+ w.peers root o → l <:+ w'.peers root o) :
    Carries w' root url wait o v := by
  cases h with
  | deciding hx hroot source was =>
    obtain ⟨x', hx', hroot', htarget, -⟩ := hlook _ _ rfl hx
    exact htarget ▸ .deciding hx' (hroot'.trans hroot) source was
  | decided hx hroot batch renews was hskipped =>
    obtain ⟨x', hx', hroot', htarget, hsame⟩ := hlook _ _ rfl hx
    exact htarget ▸ .decided hx' (hroot'.trans hroot) batch renews was
      ((hsame trivial).trans hskipped)
  | bringing hrest source v outcome => exact .bringing (hpeers _ rfl hrest) source v outcome
  | brought hrest batch renews v outcome =>
    exact .brought (hpeers _ rfl hrest) batch renews v outcome

theorem congr (h : Carries w root url wait o v)
    (hlook : ∀ k, w'.outlook? url k = w.outlook? url k)
    (hpeers : w'.peers root o = w.peers root o) : Carries w' root url wait o v :=
  h.transport (fun k x _ hx => ⟨x, (hlook k).trans hx, rfl, rfl, fun _ => rfl⟩)
    fun _ _ hl => hpeers ▸ hl

end Carries

namespace World

variable {w w' : World} {root : TargetId} {url : String} {j j' : JobId} {job job' : Job}
  {k : Listener} {o : TargetId} {v v' : Bool}

/-- While nobody looks at the file differently, every job carries the same. -/
theorem carries_congr {wait : Wait} (hlook : ∀ k, w'.outlook? url k = w.outlook? url k)
    (hpeers : ∀ o, w'.peers root o = w.peers root o) :
    Carries w' root url wait o v ↔ Carries w root url wait o v :=
  ⟨fun hc => hc.congr (fun k => (hlook k).symm) (hpeers o).symm,
    fun hc => hc.congr hlook (hpeers o)⟩

theorem Seated.mem_peers_iff_outlook (h : w.Seated) (url : String) :
    k ∈ w.peers root o ↔
      ∃ x, w.outlook? url k = some x ∧ x.root = root ∧ x.target ≠ o := by
  rw [h.mem_peers_iff]
  constructor
  · rintro ⟨s, hs, hroot⟩
    exact ⟨s.outlook url, by rw [outlook?, hs]; rfl, hroot⟩
  · rintro ⟨x, hx, hroot⟩
    obtain ⟨s, hs, rfl⟩ := Option.map_eq_some_iff.mp hx
    exact ⟨s, hs, hroot⟩

/-- Where a job is, a session of the root is. -/
theorem Seated.exists_outlook (h : w.Seated) {wait : Wait} (hc : Carries w root url wait o v)
    (hk : wait.place? = some k) : ∃ x, w.outlook? url k = some x ∧ x.root = root := by
  cases hl : wait.remaining? with
  | none =>
    obtain ⟨k', x, hk', hx, hroot, -⟩ := hc.exists_outlook hl
    rw [hk] at hk'
    exact ⟨x, Option.some.inj hk' ▸ hx, hroot⟩
  | some l =>
    obtain ⟨hsuffix, hplace⟩ := hc.remaining_suffix hl
    obtain ⟨rest, rfl⟩ := List.head?_eq_some_iff.mp (hplace.symm.trans hk)
    obtain ⟨x, hx, hroot, -⟩ := (h.mem_peers_iff_outlook url).mp
      (hsuffix.mem List.mem_cons_self)
    exact ⟨x, hx, hroot⟩

/-! ## Lines -/

theorem InLine.mem_line (h : w.InLine) (hj : w.jobs.get? j = some job)
    (hk : job.wait.place? = some k) : j ∈ w.line k := by
  obtain ⟨s, hs⟩ := h.exists_of_place? hj hk
  rw [line, hs]
  exact (h.lined.mem_iff k s hs j).mpr ⟨job, hj, hk⟩

theorem InLine.nodup_line (h : w.InLine) (k : Listener) : (w.line k).Nodup := by
  rw [line]
  cases hs : w.sessions.get? k with
  | none => exact List.nodup_nil
  | some s => exact h.lined.nodup k s hs

theorem InLine.head?_line (h : w.InLine) (hj : w.jobs.get? j = some job)
    (hsent : job.wait.IsSent) (hk : job.wait.place? = some k) : (w.line k).head? = some j := by
  obtain ⟨s, hs⟩ := h.exists_of_place? hj hk
  rw [line, hs]
  exact h.lined.first j job k s hj hsent hk hs

/-- Nobody is before the first in line. -/
theorem InLine.not_before_first (h : w.InLine) (hfirst : (w.line k).head? = some j) :
    ¬ Before (w.line k) j' j := by
  obtain ⟨rest, hline⟩ := List.head?_eq_some_iff.mp hfirst
  have hnd := h.nodup_line k
  rw [hline] at hnd ⊢
  exact Before.not_first hnd

/-! ## Nobody overtakes -/

/-- A toggle is ahead of one that was started after it.  While the later one is where it was
started, the earlier one is in line there, or done.  Afterwards the earlier one has still to do with
nobody but those with whom the later one has, in the same order.  Where both are, it is before it in
line. -/
structure Ahead (w : World) (j : JobId) (wait : Wait) (j' : JobId) (wait' : Wait) : Prop where
  started : ∀ k, wait'.remaining? = none → wait'.place? = some k → wait.IsPendingAt k →
    wait.place? = some k
  remaining : ∀ l', wait'.remaining? = some l' → ∃ l, wait.remaining? = some l ∧ l.Sublist l'
  inLine : ∀ k, wait.place? = some k → wait'.place? = some k → Before (w.line k) j j'

/-- All jobs are toggles of one URL that were started under one root, and those from one session go
after one another in the order in which they were started, and so do those with different states. -/
structure Orderly (w : World) (root : TargetId) (url : String) : Prop where
  distinct : ∀ k x k' x', w.outlook? url k = some x → w.outlook? url k' = some x' →
    x.root = root → x'.root = root → x.target = x'.target → k = k'
  plain : ∀ k x, w.outlook? url k = some x → x.root = root →
    x.pathCase.isInsensitive = false ∧ x.isInternal = false
  carries : ∀ j job, w.jobs.get? j = some job → ∃ o v, Carries w root url job.wait o v
  ahead : ∀ j job j' job' o v o' v', Before w.jobs.keys j j' → w.jobs.get? j = some job →
    w.jobs.get? j' = some job' → Carries w root url job.wait o v →
    Carries w root url job'.wait o' v' → o = o' ∨ v ≠ v' → w.Ahead j job.wait j' job'.wait

/-- A toggle that has still to do with the session where it was started is there. -/
theorem Orderly.place_eq_of_isPendingAt (h : w.Orderly root url) (hseated : w.Seated)
    {wait : Wait} (hc : Carries w root url wait o v) {x : Outlook}
    (hx : w.outlook? url k = some x) (hroot : x.root = root) (htarget : x.target = o)
    (hpending : wait.IsPendingAt k) : wait.place? = some k := by
  cases hl : wait.remaining? with
  | none =>
    obtain ⟨k', x', hk', hx', hroot', htarget'⟩ := hc.exists_outlook hl
    rw [h.distinct k x k' x' hx hx' hroot hroot' (htarget.trans htarget'.symm)]
    exact hk'
  | some l =>
    have hmem := (hc.remaining_suffix hl).1.mem (hc.mem_of_isPendingAt hl hpending)
    obtain ⟨x', hx', -, hne⟩ := (hseated.mem_peers_iff_outlook url).mp hmem
    rw [hx, Option.some.injEq] at hx'
    exact absurd htarget (hx' ▸ hne)

/-- **A toggle that comes to a session has none of those before it that are ahead**: they have been
there. -/
theorem Ahead.not_pending {wait wait' : Wait} (h : w.Ahead j wait j' wait') (hin : w.InLine)
    (hseated : w.Seated) (hc : Carries w root url wait o v)
    (hc' : Carries w root url wait' o' v') (hk : wait'.place? = some k)
    (hfirst : (w.line k).head? = some j') : ¬ wait.IsPendingAt k := by
  intro hpending
  have helsewhere : wait.place? ≠ some k :=
    fun hplace => hin.not_before_first hfirst (h.inLine k hplace hk)
  cases hl' : wait'.remaining? with
  | none => exact helsewhere (h.started k hl' hk hpending)
  | some l' =>
    obtain ⟨l, hl, hsub⟩ := h.remaining l' hl'
    obtain ⟨hsuffix', hplace'⟩ := hc'.remaining_suffix hl'
    obtain ⟨rest', rfl⟩ := List.head?_eq_some_iff.mp (hplace'.symm.trans hk)
    have hnd : (k :: rest').Nodup := hsuffix'.sublist.nodup (hseated.nodup_peers root o')
    rw [(hc.remaining_suffix hl).2] at helsewhere
    exact (sublist_of_head?_ne hnd hsub helsewhere).2 (hc.mem_of_isPendingAt hl hpending)

/-! ## What can happen -/

/-- A job is about to leave a session, with some siblings to go on to. -/
structure Leaves (w : World) (root : TargetId) (url : String) (j : JobId) (k : Listener)
    (job : Job) (o : TargetId) (v : Bool) (next : List Listener) : Prop where
  job_eq : w.jobs.get? j = some job
  isSent : job.wait.IsSent
  place_eq : job.wait.place? = some k
  carries : Carries w root url job.wait o v
  next_eq : job.wait.remaining? = none ∧ next = w.peers root o ∨
    job.wait.remaining? = some (k :: next)

/-- Nothing happens that matters. -/
structure Quiet (w : World) (url : String) (w' : World) : Prop where
  look : ∀ k, w'.outlook? url k = w.outlook? url k
  line : ∀ k, w'.line k = w.line k
  jobs : w'.jobs = w.jobs

/-- A toggle is started where it crosses no other one. -/
structure Begins (w : World) (root : TargetId) (url : String) (w' : World) (j : JobId)
    (k : Listener) (x : Outlook) (source : Option Source) (keeps : List Listener) : Prop where
  free : w.jobs.get? j = none
  outlook : w.outlook? url k = some x
  root_eq : x.root = root
  clear : w.IsClear url k
  look : ∀ k, w'.outlook? url k = w.outlook? url k
  line : ∀ k', w'.line k' = w.line k' ++ if k = k' then [j] else []
  jobs : w'.jobs = w.jobs.insert j
    ⟨keeps, .turn k (.decide url source !x.skipped) (.announce url x.skipped)⟩

/-- A toggle has its turn at a session. -/
structure Sends (w : World) (root : TargetId) (url : String) (w' : World) (j : JobId)
    (k : Listener) (x : Outlook) (wait : Wait) (o : TargetId) (v : Bool) (wait' : Wait)
    (keeps : List Listener) : Prop where
  job : w.jobs.get? j = some ⟨keeps, wait⟩
  carries : Carries w root url wait o v
  turn : ∃ c sequel batch renews, wait = .turn k c sequel ∧ wait' = .ranges k batch renews sequel
  first : (w.line k).head? = some j
  outlook : w.outlook? url k = some x
  look : ∀ k', w'.outlook? url k' =
    if k = k' then some { x with skipped := v } else w.outlook? url k'
  line : ∀ k, w'.line k = w.line k
  jobs : w'.jobs = w.jobs.insert j ⟨keeps, wait'⟩

/-- A toggle leaves a session and comes to the next one. -/
structure Passes (w : World) (root : TargetId) (url : String) (w' : World) (j : JobId)
    (k k₁ : Listener) (job : Job) (o : TargetId) (v : Bool) (rest : List Listener)
    (source : Option Source) (keeps : List Listener) (outcome : Outcome) : Prop
    extends w.Leaves root url j k job o v (k₁ :: rest) where
  look : ∀ k, w'.outlook? url k = w.outlook? url k
  line : ∀ k', w'.line k' =
    (if k = k' then (w.line k').tail else w.line k') ++ if k₁ = k' then [j] else []
  jobs : w'.jobs = w.jobs.insert j
    ⟨keeps, .turn k₁ (.decide url source v) (.deliver ⟨root, o, url, v⟩ rest outcome)⟩

/-- A toggle leaves the last session. -/
structure Ends (w : World) (root : TargetId) (url : String) (w' : World) (j : JobId)
    (k : Listener) (job : Job) (o : TargetId) (v : Bool) : Prop
    extends w.Leaves root url j k job o v [] where
  look : ∀ k, w'.outlook? url k = w.outlook? url k
  line : ∀ k', w'.line k' = if k = k' then (w.line k').tail else w.line k'
  jobs : w'.jobs = w.jobs.erase j

/-- What an action does to what matters, while toggles of one URL are under way. -/
inductive Advance (w : World) (root : TargetId) (url : String) (w' : World) : Prop
  | quiet (h : w.Quiet url w')
  | begins {j : JobId} {k : Listener} {x : Outlook} {source : Option Source}
      {keeps : List Listener} (h : w.Begins root url w' j k x source keeps)
  | sends {j : JobId} {k : Listener} {x : Outlook} {wait : Wait} {o : TargetId} {v : Bool}
      {wait' : Wait} {keeps : List Listener}
      (h : w.Sends root url w' j k x wait o v wait' keeps)
  | passes {j : JobId} {k k₁ : Listener} {job : Job} {o : TargetId} {v : Bool}
      {rest : List Listener} {source : Option Source} {keeps : List Listener} {outcome : Outcome}
      (h : w.Passes root url w' j k k₁ job o v rest source keeps outcome)
  | ends {j : JobId} {k : Listener} {job : Job} {o : TargetId} {v : Bool}
      (h : w.Ends root url w' j k job o v)

namespace Leaves

variable {next : List Listener}

theorem next_suffix (h : w.Leaves root url j k job o v next) : next <:+ w.peers root o := by
  rcases h.next_eq with ⟨-, rfl⟩ | hl
  · exact List.suffix_refl _
  · exact (List.suffix_cons k next).trans (h.carries.remaining_suffix hl).1

theorem notMem_next (h : w.Leaves root url j k job o v next) (hseated : w.Seated) :
    k ∉ next := by
  rcases h.next_eq with ⟨hl, rfl⟩ | hl
  · intro hmem
    obtain ⟨k', x', hk', hx', -, htarget⟩ := h.carries.exists_outlook hl
    obtain ⟨x, hx, -, hne⟩ := (hseated.mem_peers_iff_outlook url).mp hmem
    rw [h.place_eq] at hk'
    rw [← Option.some.inj hk', hx] at hx'
    exact hne (Option.some.inj hx' ▸ htarget)
  · have hsuffix := (h.carries.remaining_suffix hl).1
    exact (List.nodup_cons.mp (hsuffix.sublist.nodup (hseated.nodup_peers root o))).1

/-- Whom the job has still to tell are the siblings to go on to. -/
theorem isPendingAt_iff (h : w.Leaves root url j k job o v next) (hseated : w.Seated)
    (horderly : w.Orderly root url) {k' : Listener} {x : Outlook}
    (hx : w.outlook? url k' = some x) (hroot : x.root = root) :
    job.wait.IsPendingAt k' ↔ k' ∈ next := by
  obtain ⟨-, hsent, hplace, hc, hnext⟩ := h
  generalize job.wait = wait at hsent hplace hc hnext
  cases hc with
  | deciding | bringing => exact hsent.elim
  | @decided k₀ x₀ hx₀ hroot₀ =>
    obtain rfl : k₀ = k := Option.some.inj hplace
    obtain ⟨-, rfl⟩ := hnext.resolve_right (by simp [Wait.remaining?])
    rw [hseated.mem_peers_iff_outlook url]
    constructor
    · intro hne
      exact ⟨x, hx, hroot, fun ht => hne (horderly.distinct k' x k₀ x₀ hx hx₀ hroot hroot₀ ht)⟩
    · rintro ⟨x', hx', -, hne⟩ rfl
      rw [hx'] at hx₀
      exact hne (congrArg Outlook.target (Option.some.inj hx₀))
  | brought hrest =>
    have hl := hnext.resolve_left (by simp [Wait.remaining?])
    rw [Wait.remaining?, Option.some.injEq, List.cons.injEq] at hl
    rw [← hl.2]
    rfl

/-- Whoever is ahead of the job has still to do with nobody but the siblings to go on to. -/
theorem sublist_of_ahead (h : w.Leaves root url j k job o v next) (hin : w.InLine)
    (hseated : w.Seated) (horderly : w.Orderly root url)
    (hahead : w.Ahead j' job'.wait j job.wait) (hc' : Carries w root url job'.wait o' v') :
    ∃ l, job'.wait.remaining? = some l ∧ l.Sublist next := by
  have helsewhere : job'.wait.place? ≠ some k := fun hplace =>
    hin.not_before_first (hin.head?_line h.job_eq h.isSent h.place_eq)
      (hahead.inLine k hplace h.place_eq)
  rcases h.next_eq with ⟨hl, rfl⟩ | hl
  · -- Everybody is told but those of the origin, and the other one does not come back there.
    obtain ⟨l, hl', hk⟩ := hc'.exists_remaining
      (fun hpending => helsewhere (hahead.started k hl h.place_eq hpending)) helsewhere
    have hsuffix := (hc'.remaining_suffix hl').1
    refine ⟨l, hl', sublist_of_subset hseated.nodup (hsuffix.sublist.trans (w.peers_sublist _ _))
      (w.peers_sublist _ _) fun k' hk' => ?_⟩
    obtain ⟨x', hx', hroot', -⟩ := (hseated.mem_peers_iff_outlook url).mp (hsuffix.mem hk')
    obtain ⟨k₀, x, hk₀, hx, hroot, htarget⟩ := h.carries.exists_outlook hl
    rw [h.place_eq] at hk₀
    obtain rfl := Option.some.inj hk₀
    refine (hseated.mem_peers_iff_outlook url).mpr ⟨x', hx', hroot', fun htarget' => hk ?_⟩
    rw [horderly.distinct k x k' x' hx hx' hroot hroot' (htarget.trans htarget'.symm)]
    exact hk'
  · obtain ⟨l, hl', hsub⟩ := hahead.remaining _ hl
    have hnd := (h.carries.remaining_suffix hl).1.sublist.nodup (hseated.nodup_peers root o)
    rw [(hc'.remaining_suffix hl').2] at helsewhere
    exact ⟨l, hl', (sublist_of_head?_ne hnd hsub helsewhere).1⟩

/-- Nobody behind the job is where it goes. -/
theorem place_ne_of_ahead (h : w.Leaves root url j k job o v (k₁ :: rest)) (hseated : w.Seated)
    (horderly : w.Orderly root url) (hahead : w.Ahead j job.wait j' job'.wait)
    (hc' : Carries w root url job'.wait o' v') : job'.wait.place? ≠ some k₁ := by
  intro hplace
  have hmem : k₁ ∈ k₁ :: rest := List.mem_cons_self
  have hne : k ≠ k₁ := fun heq => h.notMem_next hseated (heq ▸ hmem)
  cases hl' : job'.wait.remaining? with
  | none =>
    obtain ⟨x, hx, hroot, -⟩ := (hseated.mem_peers_iff_outlook url).mp (h.next_suffix.mem hmem)
    have hpending := (h.isPendingAt_iff hseated horderly hx hroot).mpr hmem
    have hk := hahead.started k₁ hl' hplace hpending
    rw [h.place_eq] at hk
    exact hne (Option.some.inj hk)
  | some l' =>
    obtain ⟨l, hl, hsub⟩ := hahead.remaining l' hl'
    have hnext := h.next_eq.resolve_left fun hn => nomatch hn.1.symm.trans hl
    rw [hnext, Option.some.injEq] at hl
    subst hl
    obtain ⟨hsuffix', hplace'⟩ := hc'.remaining_suffix hl'
    obtain ⟨rest', rfl⟩ := List.head?_eq_some_iff.mp (hplace'.symm.trans hplace)
    have hnd : (k₁ :: rest').Nodup := hsuffix'.sublist.nodup (hseated.nodup_peers root o')
    have hhead : (k :: k₁ :: rest).head? ≠ some k₁ := fun heq => hne (Option.some.inj heq)
    exact (sublist_of_head?_ne hnd hsub hhead).2 (List.mem_cons_of_mem k hmem)

end Leaves

/-! ## Order is kept -/

theorem Ahead.mono {wait wait' : Wait} (h : w.Ahead j wait j' wait')
    (hline : ∀ k, wait.place? = some k → wait'.place? = some k → Before (w.line k) j j' →
      Before (w'.line k) j j') : w'.Ahead j wait j' wait' :=
  ⟨h.started, h.remaining, fun k hk hk' => hline k hk hk' (h.inLine k hk hk')⟩

/-- Apart from the state of the file, what matters about sessions does not change. -/
def SameFrame (w w' : World) (url : String) : Prop :=
  ∀ k x', w'.outlook? url k = some x' → ∃ x, w.outlook? url k = some x ∧
    { x' with skipped := x.skipped } = x

theorem sameFrame_of_eq (hlook : ∀ k, w'.outlook? url k = w.outlook? url k) :
    SameFrame w w' url :=
  fun k x' hx' => ⟨x', (hlook k) ▸ hx', rfl⟩

theorem Orderly.distinct_of (h : w.Orderly root url) (hframe : SameFrame w w' url) (k : Listener)
    (x : Outlook) (k' : Listener) (x' : Outlook) (hx : w'.outlook? url k = some x)
    (hx' : w'.outlook? url k' = some x') (hroot : x.root = root) (hroot' : x'.root = root)
    (ht : x.target = x'.target) : k = k' := by
  obtain ⟨y, hy, heq⟩ := hframe k x hx
  obtain ⟨y', hy', heq'⟩ := hframe k' x' hx'
  rw [← heq] at hy
  rw [← heq'] at hy'
  exact h.distinct k _ k' _ hy hy' hroot hroot' ht

theorem Orderly.plain_of (h : w.Orderly root url) (hframe : SameFrame w w' url) (k : Listener)
    (x : Outlook) (hx : w'.outlook? url k = some x) (hroot : x.root = root) :
    x.pathCase.isInsensitive = false ∧ x.isInternal = false := by
  obtain ⟨y, hy, heq⟩ := hframe k x hx
  rw [← heq] at hy
  exact h.plain k { x with skipped := y.skipped } hy hroot

section

variable {x : Outlook} {k₁ : Listener} {source : Option Source} {keeps : List Listener}
  {wait wait' : Wait} {rest : List Listener} {outcome : Outcome}

theorem Orderly.quiet (h : w.Orderly root url) (hpeers : ∀ o, w'.peers root o = w.peers root o)
    (hq : w.Quiet url w') : w'.Orderly root url where
  distinct := h.distinct_of (sameFrame_of_eq hq.look)
  plain := h.plain_of (sameFrame_of_eq hq.look)
  carries j job hj := by
    rw [hq.jobs] at hj
    simpa only [carries_congr hq.look hpeers] using h.carries j job hj
  ahead j job j' job' o v o' v' hbefore hj hj' hc hc' hor := by
    rw [hq.jobs] at hbefore hj hj'
    rw [carries_congr hq.look hpeers] at hc hc'
    exact (h.ahead j job j' job' o v o' v' hbefore hj hj' hc hc' hor).mono
      fun k _ _ hb => (hq.line k).symm ▸ hb

theorem Begins.get?_jobs (hb : w.Begins root url w' j k x source keeps) (j' : JobId) :
    w'.jobs.get? j' = if j = j' then
      some ⟨keeps, .turn k (.decide url source !x.skipped) (.announce url x.skipped)⟩
      else w.jobs.get? j' := by
  rw [hb.jobs, Index.get?_insert]

theorem Begins.get?_jobs_self (hb : w.Begins root url w' j k x source keeps) :
    w'.jobs.get? j = some
      ⟨keeps, .turn k (.decide url source !x.skipped) (.announce url x.skipped)⟩ := by
  rw [hb.get?_jobs, if_pos rfl]

theorem Begins.keys_jobs (hb : w.Begins root url w' j k x source keeps) :
    w'.jobs.keys = w.jobs.keys ++ [j] := by
  rw [hb.jobs, Index.keys_insert_of_get?_eq_none hb.free]

theorem Begins.carries (hb : w.Begins root url w' j k x source keeps) : Carries w' root url
    (.turn k (.decide url source !x.skipped) (.announce url x.skipped)) x.target !x.skipped :=
  .deciding ((hb.look k).trans hb.outlook) hb.root_eq source x.skipped

/-- Whoever vies with a new toggle is in line where it is started, or done there. -/
theorem Begins.place_eq_of_isPendingAt (hb : w.Begins root url w' j k x source keeps)
    (h : w.Orderly root url) (hseated : w.Seated) (hj' : w.jobs.get? j' = some job')
    (hc : Carries w root url job'.wait o v) (hor : o = x.target ∨ v ≠ !x.skipped)
    (hpending : job'.wait.IsPendingAt k) : job'.wait.place? = some k := by
  by_cases ho : o = x.target
  · exact h.place_eq_of_isPendingAt hseated hc hb.outlook hb.root_eq ho.symm hpending
  · obtain ⟨s, hs, heq⟩ := Option.map_eq_some_iff.mp hb.outlook
    have hv : v = s.policy.isSkipped url := by
      rw [show s.policy.isSkipped url = x.skipped from congrArg Outlook.skipped heq]
      exact by simpa using hor.resolve_left ho
    have htarget : s.target = x.target := congrArg Outlook.target heq
    exact hb.clear s hs j' job' o hj' (hv ▸ hc.bearing?_eq) (htarget ▸ ho) hpending

theorem Orderly.begins (h : w.Orderly root url) (hin : w.InLine) (hseated : w.Seated)
    (hpeers : ∀ o, w'.peers root o = w.peers root o)
    (hb : w.Begins root url w' j k x source keeps) : w'.Orderly root url where
  distinct := h.distinct_of (sameFrame_of_eq hb.look)
  plain := h.plain_of (sameFrame_of_eq hb.look)
  carries j' job hj' := by
    rw [hb.get?_jobs] at hj'
    split at hj'
    · rw [← Option.some.inj hj']
      exact ⟨x.target, !x.skipped, hb.carries⟩
    · simpa only [carries_congr hb.look hpeers] using h.carries j' job hj'
  ahead j₁ job₁ j₂ job₂ o v o' v' hbefore hj₁ hj₂ hc hc' hor := by
    rw [carries_congr hb.look hpeers] at hc
    have hold : ∀ j', j' ∈ w.jobs.keys → j ≠ j' := by
      rintro j' hmem rfl
      exact Index.get?_eq_none_iff.mp hb.free hmem
    rw [hb.keys_jobs] at hbefore
    rw [hb.get?_jobs] at hj₁ hj₂
    rcases hbefore.of_append_singleton with hbefore | ⟨hmem, rfl⟩
    · rw [if_neg (hold j₁ hbefore.left_mem)] at hj₁
      rw [if_neg (hold j₂ hbefore.right_mem)] at hj₂
      rw [carries_congr hb.look hpeers] at hc'
      exact (h.ahead j₁ job₁ j₂ job₂ o v o' v' hbefore hj₁ hj₂ hc hc' hor).mono
        fun k _ _ hbefore => (hb.line k).symm ▸ hbefore.append _
    · -- The new toggle stands at the end of the line of everybody who is where it was started.
      rw [if_neg (hold j₁ hmem)] at hj₁
      rw [if_pos rfl, Option.some.injEq] at hj₂
      subst hj₂
      obtain ⟨rfl, rfl⟩ := hb.carries.unique hc'
      refine ⟨fun k' _ hk' hpending => ?_, fun l' hl' => absurd hl' (by simp [Wait.remaining?]),
        fun k' hk hk' => ?_⟩
      · obtain rfl := Option.some.inj hk'
        exact hb.place_eq_of_isPendingAt h hseated hj₁ hc hor hpending
      rw [hb.line, if_pos (Option.some.inj hk')]
      exact Before.append_singleton (hin.mem_line hj₁ hk) _

theorem Passes.get?_jobs
    (hp : w.Passes root url w' j k k₁ job o v rest source keeps outcome) (j' : JobId) :
    w'.jobs.get? j' = if j = j' then some ⟨keeps,
      .turn k₁ (.decide url source v) (.deliver ⟨root, o, url, v⟩ rest outcome)⟩
      else w.jobs.get? j' := by
  rw [hp.jobs, Index.get?_insert]

theorem Passes.get?_jobs_self
    (hp : w.Passes root url w' j k k₁ job o v rest source keeps outcome) :
    w'.jobs.get? j = some ⟨keeps,
      .turn k₁ (.decide url source v) (.deliver ⟨root, o, url, v⟩ rest outcome)⟩ := by
  rw [hp.get?_jobs, if_pos rfl]

theorem Passes.keys_jobs
    (hp : w.Passes root url w' j k k₁ job o v rest source keeps outcome) :
    w'.jobs.keys = w.jobs.keys := by
  rw [hp.jobs, Index.keys_insert_of_contains]
  rw [Index.contains, hp.job_eq]
  rfl

theorem Passes.carries_next (hpeers : ∀ o, w'.peers root o = w.peers root o)
    (hp : w.Passes root url w' j k k₁ job o v rest source keeps outcome) : Carries w' root url
    (.turn k₁ (.decide url source v) (.deliver ⟨root, o, url, v⟩ rest outcome)) o v :=
  .bringing ((hpeers o).symm ▸ hp.next_suffix) source v outcome

/-- Who stands before another in line still does when a third one has left. -/
theorem before_tail {j₁ j₂ : JobId} (hfirst : (w.line k).head? = some j)
    (hne : j₁ ≠ j) {k' : Listener} (hb : Before (w.line k') j₁ j₂) :
    Before (if k = k' then (w.line k').tail else w.line k') j₁ j₂ := by
  split
  · next hk =>
    subst hk
    obtain ⟨tail, htail⟩ := List.head?_eq_some_iff.mp hfirst
    rw [htail] at hb ⊢
    exact hb.of_cons hne
  · exact hb

theorem Orderly.passes (h : w.Orderly root url) (hin : w.InLine) (hseated : w.Seated)
    (hpeers : ∀ o, w'.peers root o = w.peers root o)
    (hp : w.Passes root url w' j k k₁ job o v rest source keeps outcome) :
    w'.Orderly root url where
  distinct := h.distinct_of (sameFrame_of_eq hp.look)
  plain := h.plain_of (sameFrame_of_eq hp.look)
  carries j' job' hj' := by
    rw [hp.get?_jobs] at hj'
    split at hj'
    · rw [← Option.some.inj hj']
      exact ⟨o, v, hp.carries_next hpeers⟩
    · simpa only [carries_congr hp.look hpeers] using h.carries j' job' hj'
  ahead j₁ job₁ j₂ job₂ o₁ v₁ o₂ v₂ hbefore hj₁ hj₂ hc₁ hc₂ hor := by
    rw [hp.keys_jobs] at hbefore
    rw [hp.get?_jobs] at hj₁ hj₂
    by_cases heq₁ : j = j₁
    · -- The job that goes on is the elder one: it keeps its lead.
      subst heq₁
      rw [if_neg (hbefore.ne hin.nodup)] at hj₂
      rw [if_pos rfl, Option.some.injEq] at hj₁
      subst hj₁
      obtain ⟨rfl, rfl⟩ := (hp.carries_next hpeers).unique hc₁
      rw [carries_congr hp.look hpeers] at hc₂
      have hahead := h.ahead j job j₂ job₂ o v o₂ v₂ hbefore hp.job_eq hj₂ hp.carries hc₂ hor
      have hplace := hp.place_ne_of_ahead hseated h hahead hc₂
      refine ⟨fun k' hl' hk' hpending => ?_, fun l' hl' => ⟨k₁ :: rest, rfl, ?_⟩,
        fun k' hk hk' => absurd (Option.some.inj hk ▸ hk') hplace⟩
      · -- Where the younger one was started, the elder one would have been already.
        obtain ⟨x, hx, hroot⟩ := hseated.exists_outlook hc₂ hk'
        have hk := hahead.started k' hl' hk'
          ((hp.isPendingAt_iff hseated h hx hroot).mpr hpending)
        rw [hp.place_eq] at hk
        exact absurd hpending (Option.some.inj hk ▸ hp.notMem_next hseated)
      · obtain ⟨l, hl, hsub⟩ := hahead.remaining l' hl'
        have hnext := hp.next_eq.resolve_left fun hn => absurd (hn.1.symm.trans hl) (by simp)
        rw [hnext, Option.some.injEq] at hl
        exact (List.sublist_cons_self k _).trans (hl ▸ hsub)
    rw [if_neg heq₁] at hj₁
    rw [carries_congr hp.look hpeers] at hc₁
    by_cases heq₂ : j = j₂
    · -- The job that goes on is the younger one: the elder has gone on already.
      subst heq₂
      rw [if_pos rfl, Option.some.injEq] at hj₂
      subst hj₂
      obtain ⟨rfl, rfl⟩ := (hp.carries_next hpeers).unique hc₂
      have hahead := h.ahead j₁ job₁ j job o₁ v₁ o v hbefore hj₁ hp.job_eq hc₁ hp.carries hor
      refine ⟨fun k' hl' => absurd hl' (by simp [Wait.remaining?]), fun l' hl' => ?_,
        fun k' hk hk' => ?_⟩
      · obtain rfl := Option.some.inj hl'
        exact hp.sublist_of_ahead hin hseated h hahead hc₁
      · obtain rfl := Option.some.inj hk'
        rw [hp.line, if_pos rfl, if_neg]
        · exact Before.append_singleton (hin.mem_line hj₁ hk) _
        · rintro rfl
          exact hp.notMem_next hseated List.mem_cons_self
    · rw [if_neg heq₂] at hj₂
      rw [carries_congr hp.look hpeers] at hc₂
      refine (h.ahead j₁ job₁ j₂ job₂ o₁ v₁ o₂ v₂ hbefore hj₁ hj₂ hc₁ hc₂ hor).mono
        fun k' _ _ hb => ?_
      rw [hp.line]
      exact (before_tail (hin.head?_line hp.job_eq hp.isSent hp.place_eq) (Ne.symm heq₁)
        hb).append _

theorem Orderly.ends (h : w.Orderly root url) (hin : w.InLine)
    (hpeers : ∀ o, w'.peers root o = w.peers root o) (he : w.Ends root url w' j k job o v) :
    w'.Orderly root url := by
  have hold : ∀ j' job', w'.jobs.get? j' = some job' → j ≠ j' ∧ w.jobs.get? j' = some job' := by
    intro j' job' hj'
    rwa [he.jobs, Index.get?_erase_eq_some_iff] at hj'
  refine ⟨h.distinct_of (sameFrame_of_eq he.look), h.plain_of (sameFrame_of_eq he.look), ?_, ?_⟩
  · intro j' job' hj'
    simpa only [carries_congr he.look hpeers] using h.carries j' job' (hold j' job' hj').2
  · intro j₁ job₁ j₂ job₂ o₁ v₁ o₂ v₂ hbefore hj₁ hj₂ hc₁ hc₂ hor
    rw [he.jobs, Index.keys_erase] at hbefore
    rw [carries_congr he.look hpeers] at hc₁ hc₂
    obtain ⟨hne₁, hj₁⟩ := hold j₁ job₁ hj₁
    refine (h.ahead j₁ job₁ j₂ job₂ o₁ v₁ o₂ v₂ hbefore.of_filter hj₁ (hold j₂ job₂ hj₂).2
      hc₁ hc₂ hor).mono fun k' _ _ hb => ?_
    rw [he.line]
    exact before_tail (hin.head?_line he.job_eq he.isSent he.place_eq) (Ne.symm hne₁) hb

/-! A toggle that has its turn stays where it is, so the order of the toggles is untouched.  What
changes is the state of the file at one session, and no other job has decided there and not left. -/

theorem Sends.frame (hs : w.Sends root url w' j k x wait o v wait' keeps) :
    SameFrame w w' url := by
  intro k' x' hx'
  rw [hs.look] at hx'
  split at hx'
  · next hk =>
    subst hk
    exact ⟨x, hs.outlook, by rw [← Option.some.inj hx']⟩
  · exact ⟨x', hx', rfl⟩

theorem Sends.get?_jobs (hs : w.Sends root url w' j k x wait o v wait' keeps) (j' : JobId) :
    w'.jobs.get? j' = if j = j' then some ⟨keeps, wait'⟩ else w.jobs.get? j' := by
  rw [hs.jobs, Index.get?_insert]

theorem Sends.get?_jobs_self (hs : w.Sends root url w' j k x wait o v wait' keeps) :
    w'.jobs.get? j = some ⟨keeps, wait'⟩ := by
  rw [hs.get?_jobs, if_pos rfl]

theorem Sends.keys_jobs (hs : w.Sends root url w' j k x wait o v wait' keeps) :
    w'.jobs.keys = w.jobs.keys := by
  rw [hs.jobs, Index.keys_insert_of_contains]
  rw [Index.contains, hs.job]
  rfl

theorem Sends.wait_eq (hs : w.Sends root url w' j k x wait o v wait' keeps) :
    wait'.remaining? = wait.remaining? ∧ wait'.place? = wait.place? ∧ wait.place? = some k := by
  obtain ⟨c, sequel, batch, renews, rfl, rfl⟩ := hs.turn
  cases sequel <;> exact ⟨rfl, rfl, rfl⟩

theorem Sends.carries_sent (hs : w.Sends root url w' j k x wait o v wait' keeps)
    (hpeers : ∀ o, w'.peers root o = w.peers root o) : Carries w' root url wait' o v := by
  obtain ⟨c, sequel, batch, renews, hwait, rfl⟩ := hs.turn
  have hc := hs.carries
  have hlook : w'.outlook? url k = some { x with skipped := v } := by rw [hs.look, if_pos rfl]
  cases hc with
  | @deciding k' x' hx' hroot' source was =>
    obtain ⟨rfl, -, rfl⟩ := Wait.turn.inj hwait
    rw [hs.outlook, Option.some.injEq] at hx'
    subst hx'
    exact .decided hlook hroot' batch renews was rfl
  | bringing hrest source v outcome =>
    obtain ⟨rfl, -, rfl⟩ := Wait.turn.inj hwait
    exact .brought ((hpeers o).symm ▸ hrest) batch renews v outcome
  | decided | brought => exact absurd hwait (by simp)

theorem Sends.carries_iff (hs : w.Sends root url w' j k x wait o v wait' keeps) (hin : w.InLine)
    (hpeers : ∀ o, w'.peers root o = w.peers root o) (hj' : w.jobs.get? j' = some job')
    (hne : j ≠ j') {o' : TargetId} :
    Carries w' root url job'.wait o' v' ↔ Carries w root url job'.wait o' v' := by
  have helsewhere : job'.wait.IsSent → job'.wait.place? ≠ some k := by
    intro hsent hplace
    have hfirst := hin.head?_line hj' hsent hplace
    rw [hs.first, Option.some.injEq] at hfirst
    exact hne hfirst
  constructor <;> intro hc
  · refine hc.transport (fun k' x' hplace hx' => ?_) fun l _ hl => hpeers o' ▸ hl
    rw [hs.look] at hx'
    split at hx'
    · next hk =>
      subst hk
      rw [← Option.some.inj hx']
      exact ⟨x, hs.outlook, rfl, rfl, fun hsent => absurd hplace (helsewhere hsent)⟩
    · exact ⟨x', hx', rfl, rfl, fun _ => rfl⟩
  · refine hc.transport (fun k' x' hplace hx' => ?_) fun l _ hl => (hpeers o').symm ▸ hl
    rw [hs.look]
    split
    · next hk =>
      subst hk
      rw [hs.outlook, Option.some.injEq] at hx'
      subst hx'
      exact ⟨_, rfl, rfl, rfl, fun hsent => absurd hplace (helsewhere hsent)⟩
    · exact ⟨x', hx', rfl, rfl, fun _ => rfl⟩

/-- A session where a toggle has its turn is done with it. -/
theorem Sends.isPendingAt_iff (hs : w.Sends root url w' j k x wait o v wait' keeps)
    (hseated : w.Seated) (k' : Listener) :
    wait'.IsPendingAt k' ↔ wait.IsPendingAt k' ∧ k' ≠ k := by
  obtain ⟨c, sequel, batch, renews, hwait, rfl⟩ := hs.turn
  have hc := hs.carries
  cases hc with
  | deciding =>
    obtain ⟨rfl, -, rfl⟩ := Wait.turn.inj hwait
    exact (and_iff_right trivial).symm
  | bringing hrest source v outcome =>
    obtain ⟨rfl, -, rfl⟩ := Wait.turn.inj hwait
    have hnd := hrest.sublist.nodup (hseated.nodup_peers root o)
    simp only [Wait.IsPendingAt, List.mem_cons]
    constructor
    · intro hmem
      refine ⟨Or.inr hmem, ?_⟩
      rintro rfl
      exact (List.nodup_cons.mp hnd).1 hmem
    · rintro ⟨hmem, hne⟩
      exact hmem.resolve_left hne
  | decided | brought => exact absurd hwait (by simp)

/-- Every job was there before, at the same place, and carried the same to as many. -/
theorem Sends.exists_job (hs : w.Sends root url w' j k x wait o v wait' keeps) (hin : w.InLine)
    (hseated : w.Seated) (hpeers : ∀ o, w'.peers root o = w.peers root o)
    (hj' : w'.jobs.get? j' = some job') :
    ∃ job₀, w.jobs.get? j' = some job₀ ∧ job'.wait.remaining? = job₀.wait.remaining? ∧
      job'.wait.place? = job₀.wait.place? ∧
      (∀ k, job'.wait.IsPendingAt k → job₀.wait.IsPendingAt k) ∧
      ∀ o' v', Carries w' root url job'.wait o' v' ↔ Carries w root url job₀.wait o' v' := by
  rw [hs.get?_jobs] at hj'
  split at hj'
  · next heq =>
    subst heq
    rw [← Option.some.inj hj']
    refine ⟨_, hs.job, hs.wait_eq.1, hs.wait_eq.2.1,
      fun k' hpending => ((hs.isPendingAt_iff hseated k').mp hpending).1,
      fun o' v' => ⟨fun hc => ?_, fun hc => ?_⟩⟩
    · obtain ⟨rfl, rfl⟩ := (hs.carries_sent hpeers).unique hc
      exact hs.carries
    · obtain ⟨rfl, rfl⟩ := hs.carries.unique hc
      exact hs.carries_sent hpeers
  · next hne =>
    exact ⟨job', hj', rfl, rfl, fun _ => id, fun o' v' => hs.carries_iff hin hpeers hj' hne⟩

theorem Orderly.sends (h : w.Orderly root url) (hin : w.InLine) (hseated : w.Seated)
    (hpeers : ∀ o, w'.peers root o = w.peers root o)
    (hs : w.Sends root url w' j k x wait o v wait' keeps) : w'.Orderly root url where
  distinct := h.distinct_of hs.frame
  plain := h.plain_of hs.frame
  carries j' job' hj' := by
    obtain ⟨job₀, hj₀, -, -, -, hc⟩ := hs.exists_job hin hseated hpeers hj'
    obtain ⟨o', v', hc₀⟩ := h.carries j' job₀ hj₀
    exact ⟨o', v', (hc o' v').mpr hc₀⟩
  ahead j₁ job₁ j₂ job₂ o₁ v₁ o₂ v₂ hbefore hj₁ hj₂ hc₁ hc₂ hor := by
    obtain ⟨job₁', hj₁', hrem₁, hplace₁, hpending₁, hcarries₁⟩ :=
      hs.exists_job hin hseated hpeers hj₁
    obtain ⟨job₂', hj₂', hrem₂, hplace₂, -, hcarries₂⟩ := hs.exists_job hin hseated hpeers hj₂
    rw [hs.keys_jobs] at hbefore
    have hahead := h.ahead j₁ job₁' j₂ job₂' o₁ v₁ o₂ v₂ hbefore hj₁' hj₂'
      ((hcarries₁ o₁ v₁).mp hc₁) ((hcarries₂ o₂ v₂).mp hc₂) hor
    refine ⟨fun k' hl' hk' hpending => ?_, fun l' hl' => ?_, fun k' hk hk' => ?_⟩
    · rw [hplace₁]
      exact hahead.started k' (hrem₂ ▸ hl') (hplace₂ ▸ hk') (hpending₁ k' hpending)
    · rw [hrem₁]
      exact hahead.remaining l' (hrem₂ ▸ hl')
    · rw [hs.line]
      exact hahead.inLine k' (hplace₁ ▸ hk) (hplace₂ ▸ hk')

end

/-- **Toggles stay in order** where they were started in one session, or carry different states. -/
theorem Orderly.advance (h : w.Orderly root url) (hin : w.InLine) (hseated : w.Seated)
    (hpeers : ∀ o, w'.peers root o = w.peers root o) (ha : w.Advance root url w') :
    w'.Orderly root url := by
  cases ha with
  | quiet hq => exact h.quiet hpeers hq
  | begins hb => exact h.begins hin hseated hpeers hb
  | sends hs => exact h.sends hin hseated hpeers hs
  | passes hp => exact h.passes hin hseated hpeers hp
  | ends he => exact h.ends hin hpeers he

end World
end Skipper
end DebugTree
