import DebugTree.Proofs.Skipper.Heading
import DebugTree.Proofs.Skipper.Toggle

/-!
# When sessions agree on a file

Siblings are told the state of a file and not that it has turned, so after one toggle all of them
agree.  There is no order among toggles that are started on different sessions while others are
under way, though, and no session is told twice: if two such toggles carry different states and
cross, each session keeps the state that came to it last.  And a session is not told what another
session of the same target has decided (`crossing_toggles_disagree`).

Let the sessions of the root have different targets, and let no toggle be started on a session while
one of another session, with the other state, has still to come to it (`Uncrossed`).  Then all
living sessions of the root agree once all toggles have ended, however their steps were mixed
(`toggles_agree`).  Toggles of one session may carry different states, and so may those of different
sessions that are under way at the same time: a worker may take over what its page has decided, and
turn it back before the page has told everybody.

The runs that this is about begin where nothing is under way, and consist of toggles of one URL on
sessions of one root, with scheduled pushes, questions for builtin modules, changes of sources and
owners who let go among their steps (`OnlyToggles`).  Sessions that open, loads, patterns that are
pushed at once and toggles of other URLs do not occur in them.
-/

namespace DebugTree
namespace Skipper

open Protocol

namespace World

variable {w w' : World} {root : TargetId} {url : String} {j : JobId} {job : Job} {k : Listener}
  {o : TargetId} {v : Bool}

/-! ## The dead leave -/

theorem InLine.get?_reap (h : w.InLine) (hseated : w.Seated) (hj : w.jobs.get? j = some job)
    (hk : k ∈ job.wait.listeners) : w.reap.sessions.get? k = w.sessions.get? k := by
  have hkeeps := h.lined.kept j job hj k hk
  obtain ⟨s, hs⟩ := Option.isSome_iff_exists.mp (h.lined.alive j job hj k hkeeps)
  rw [World.reap, Index.get?_filter hseated.nodup, hs, Option.filter_some,
    if_pos (isKept_of_mem_keeps hj hkeeps s)]

theorem outlook?_of_reap (hseated : w.Seated) {x : Outlook}
    (hx : w.reap.outlook? url k = some x) : w.outlook? url k = some x := by
  obtain ⟨s, hs, rfl⟩ := Option.map_eq_some_iff.mp hx
  rw [World.reap, Index.get?_filter hseated.nodup, Option.filter_eq_some_iff] at hs
  rw [outlook?, hs.1]
  rfl

/-- Those who are kept stay at the end of a list of siblings. -/
theorem suffix_peers_reap {l : List Listener} (h : l <:+ w.peers root o)
    (hkept : ∀ k ∈ l, ∀ s, w.isKept k s = true) : l <:+ w.reap.peers root o := by
  have hpeers : ∀ es : List (Listener × Skipper),
      ((es.map fun e => e.2.seat e.1).filter fun x => x.root = root ∧ x.target ≠ o).map
        (·.listener) = (es.filter fun e => e.2.root = root ∧ e.2.target ≠ o).map (·.1) := by
    intro es
    rw [List.filter_map, List.map_map]
    rfl
  rw [peers, seats, hpeers] at h ⊢
  obtain ⟨es, hes, rfl⟩ := List.suffix_map_iff.mp h
  have hself : (es.filter fun e => w.isKept e.1 e.2) = es :=
    List.filter_eq_self.mpr fun e he => hkept e.1 (List.mem_map_of_mem he) e.2
  have hsuffix := hes.filter fun e => w.isKept e.1 e.2
  rw [hself] at hsuffix
  have hcomm : ∀ l : List (Listener × Skipper),
      ((l.filter fun e => w.isKept e.1 e.2).filter fun e => e.2.root = root ∧ e.2.target ≠ o) =
        (l.filter fun e => e.2.root = root ∧ e.2.target ≠ o).filter fun e => w.isKept e.1 e.2 := by
    intro l
    rw [List.filter_filter, List.filter_filter]
    exact List.filter_congr fun e _ => Bool.and_comm _ _
  rw [World.reap, hcomm]
  exact List.suffix_map_iff.mpr ⟨es, hsuffix, rfl⟩

end World

theorem Carries.reap {w : World} {root : TargetId} {url : String} {j : JobId} {job : Job}
    {o : TargetId} {v : Bool} (h : Carries w root url job.wait o v) (hin : w.InLine)
    (hseated : w.Seated) (hj : w.jobs.get? j = some job) :
    Carries w.reap root url job.wait o v := by
  refine h.transport (fun k x hk hx => ⟨x, ?_, rfl, rfl, fun _ => rfl⟩) fun l hl hsuffix => ?_
  · rw [World.outlook?, hin.get?_reap hseated hj (Wait.mem_listeners_of_place? hk)]
    exact hx
  · refine World.suffix_peers_reap hsuffix fun k hk s => ?_
    rw [← Wait.listeners_of_remaining? hl] at hk
    exact World.isKept_of_mem_keeps hj (hin.lined.kept j job hj k hk) s

namespace World

variable {w w' : World} {root : TargetId} {url : String} {j : JobId} {job : Job} {k : Listener}
  {o : TargetId} {v : Bool}

/-- The jobs of the living carry the same as before the dead left. -/
theorem Orderly.carries_of_reap (h : w.Orderly root url) (hin : w.InLine) (hseated : w.Seated)
    (hj : w.jobs.get? j = some job) (hc : Carries w.reap root url job.wait o v) :
    Carries w root url job.wait o v := by
  obtain ⟨o', v', hc'⟩ := h.carries j job hj
  obtain ⟨rfl, rfl⟩ := hc.unique (hc'.reap hin hseated hj)
  exact hc'

theorem Orderly.reap (h : w.Orderly root url) (hin : w.InLine) (hseated : w.Seated) :
    w.reap.Orderly root url where
  distinct k x k' x' hx hx' :=
    h.distinct k x k' x' (outlook?_of_reap hseated hx) (outlook?_of_reap hseated hx')
  plain k x hx := h.plain k x (outlook?_of_reap hseated hx)
  carries j job hj := by
    obtain ⟨o, v, hc⟩ := h.carries j job hj
    exact ⟨o, v, hc.reap hin hseated hj⟩
  ahead j job j' job' o v o' v' hbefore hj hj' hc hc' hor := by
    refine (h.ahead j job j' job' o v o' v' hbefore hj hj' (h.carries_of_reap hin hseated hj hc)
      (h.carries_of_reap hin hseated hj' hc') hor).mono fun k hk _ hb => ?_
    rw [line, hin.get?_reap hseated hj (Wait.mem_listeners_of_place? hk)]
    exact hb

theorem Heading.reap {V : Bool} (h : w.Heading root url V) (horderly : w.Orderly root url)
    (hin : w.InLine) (hseated : w.Seated) : w.reap.Heading root url V := by
  have hpends : ∀ k j o v, w.reap.Pends root url k j o v ↔ w.Pends root url k j o v := by
    intro k j o v
    constructor
    · rintro ⟨job, hj, hpending, hc⟩
      exact ⟨job, hj, hpending, horderly.carries_of_reap hin hseated hj hc⟩
    · rintro ⟨job, hj, hpending, hc⟩
      exact ⟨job, hj, hpending, hc.reap hin hseated hj⟩
  refine ⟨fun k x hx hroot hnone => ?_, fun k x hx hroot j o v hj => ?_⟩
  · exact h.settled k x (outlook?_of_reap hseated hx) hroot fun j o v hj =>
      hnone j o v ((hpends k j o v).mpr hj)
  · rcases h.pending k x (outlook?_of_reap hseated hx) hroot j o v ((hpends k j o v).mp hj) with
      hv | ⟨j', o', hbefore, hj'⟩
    · exact Or.inl hv
    · exact Or.inr ⟨j', o', hbefore, (hpends k j' o' V).mpr hj'⟩

end World

/-! ## Runs with toggles of one URL -/

/-- What may happen: toggles of the URL are started on sessions of the root, under new names; jobs
go on; scheduled pushes take their steps; sessions ask for builtin modules, and the answers leave
the URL a file; sources change; owners let go of sessions. -/
def Action.IsToggleOf (w : World) (root : TargetId) (url : String) : Action → Prop
  | .begin j (.toggle k request) => w.jobs.get? j = none ∧ ∃ s source,
      w.sessions.get? k = some s ∧ s.root = root ∧ s.resolve? request = some (url, source)
  | .answer k reply => ∀ s, w.sessions.get? k = some s →
      s.policy.isNodeInternal url = false ∧ (s.learn reply).policy.isNodeInternal url = false
  | .proceed _ _ | .tick _ _ _ | .inquire _ | .replaceGraph _ _ | .closeSession _ => True
  | _ => False

/-- If a toggle is started, it crosses none of those that are under way. -/
def Action.CrossesNone (w : World) (url : String) : Action → Prop
  | .begin _ (.toggle k _) => w.IsClear url k
  | _ => True

theorem outlook_learn {url : String} {s : Skipper} {reply : Except Fault Json}
    (h : s.policy.isNodeInternal url = false)
    (h' : (s.learn reply).policy.isNodeInternal url = false) :
    (s.learn reply).outlook url = s.outlook url := by
  have hpolicy : (s.learn reply).policy.isSkipped url = s.policy.isSkipped url ∧
      (s.learn reply).policy.pathCase = s.policy.pathCase := by
    rw [SkipPolicy.isSkipped_of_not_internal h, SkipPolicy.isSkipped_of_not_internal h']
    unfold learn
    split <;> exact ⟨rfl, rfl⟩
  rw [outlook, outlook, learn_root, learn_target, h, h', hpolicy.1, hpolicy.2]

namespace World

variable {w w' : World} {root : TargetId} {url : String} {j : JobId} {job : Job} {k : Listener}
  {o : TargetId} {v : Bool}

theorem quiet_update {f : Skipper → Skipper}
    (hf : ∀ s, w.sessions.get? k = some s →
      (f s).outlook url = s.outlook url ∧ (f s).line = s.line) :
    w.Quiet url (w.update k f) where
  look := outlook?_update_of_eq fun s hs => (hf s hs).1
  line k' := by
    rw [line_update]
    split
    · next hk =>
      subst hk
      rw [line]
      cases hs : w.sessions.get? k with
      | none => rfl
      | some s => exact (hf s hs).2
    · rfl
  jobs := rfl

theorem quiet_self : w.Quiet url w :=
  ⟨fun _ => rfl, fun _ => rfl, rfl⟩

theorem line_bring (w : World) (keeps : List Listener) (c : SkipChange) (sequel : Sequel)
    {s : Skipper} (hs : w.sessions.get? k = some s) (k' : Listener) :
    (w.bring j keeps k c sequel).line k' = w.line k' ++ if k = k' then [j] else [] := by
  have hline := line_update w k k' (·.join j)
  refine hline.trans ?_
  split
  · next hk =>
    subst hk
    rw [line, hs]
    rfl
  · rw [List.append_nil]

theorem outlook?_bring (w : World) (keeps : List Listener) (c : SkipChange) (sequel : Sequel)
    (k' : Listener) : (w.bring j keeps k c sequel).outlook? url k' = w.outlook? url k' :=
  outlook?_update_of_eq (f := fun s => s.join j) (fun _ _ => rfl) k'

/-- A job that leaves a session tells the siblings that are next, or ends. -/
theorem advance_tell {next : List Listener} (hseated : w.Seated)
    (hleaves : w.Leaves root url j k job o v next) {f : Skipper → Skipper}
    (hf : ∀ s, (f s).outlook url = s.outlook url ∧ (f s).line = s.line.tail)
    (keeps : List Listener) (outcome : Outcome) :
    w.Advance root url
      ((w.update k f).tell j keeps ⟨root, o, url, v⟩ outcome next).1 := by
  have hlook : ∀ k', (w.update k f).outlook? url k' = w.outlook? url k' :=
    outlook?_update_of_eq fun s _ => (hf s).1
  have hline : ∀ k', (w.update k f).line k' =
      if k = k' then (w.line k').tail else w.line k' := by
    intro k'
    rw [line_update]
    split
    · next hk =>
      subst hk
      rw [line]
      cases hs : w.sessions.get? k with
      | none => rfl
      | some s => exact (hf s).2
    · rfl
  cases next with
  | nil => exact .ends ⟨hleaves, hlook, hline, rfl⟩
  | cons k₁ rest =>
    obtain ⟨x, hx, -⟩ :=
      (hseated.mem_peers_iff_outlook url).mp (hleaves.next_suffix.mem List.mem_cons_self)
    rw [← hlook] at hx
    obtain ⟨s, hs, -⟩ := Option.map_eq_some_iff.mp hx
    rw [tell, hs]
    refine .passes ⟨hleaves, fun k' => ?_, fun k' => ?_, rfl⟩
    · rw [outlook?_bring, hlook]
    · rw [line_bring _ _ _ _ hs, hline]

theorem outlook_carryOut {s : Skipper} (hlawful : s.policy.Lawful) (hurl : IsPlainUrl url)
    (hcase : s.policy.pathCase.isInsensitive = false)
    (hexternal : s.policy.isNodeInternal url = false) (source : Option Source) (v : Bool) :
    (s.carryOut (.decide url source v)).2.outlook url = { s.outlook url with skipped := v } := by
  have hpolicy : (s.carryOut (.decide url source v)).2.policy =
      (SkipChange.decide url source v).revise s.graph s.policy := rfl
  rw [outlook, hpolicy, SkipChange.isSkipped_revise_decide s.graph hlawful hcase hurl hexternal,
    SkipChange.isNodeInternal_revise, SkipChange.pathCase_revise]
  rfl

theorem advance_turn (hw : Reachable w) (h : w.Orderly root url) (hurl : IsPlainUrl url)
    {keeps : List Listener} {source : Option Source} {sequel : Sequel}
    (hjob : w.jobs.get? j = some ⟨keeps, .turn k (.decide url source v) sequel⟩)
    (hc : Carries w root url (.turn k (.decide url source v) sequel) o v)
    (refused : List ScriptId) : w.Advance root url (w.proceed j refused).1 := by
  obtain ⟨s, hs⟩ := hw.inLine.exists_of_place? hjob rfl
  by_cases hturn : s.isTurnOf j = true
  · obtain ⟨x, hx, hroot⟩ := hw.seated.exists_outlook hc rfl
    have hlook : w.outlook? url k = some (s.outlook url) := by rw [outlook?, hs]; rfl
    rw [hlook, Option.some.injEq] at hx
    subst hx
    obtain ⟨hcase, hexternal⟩ := h.plain k _ hlook hroot
    rw [proceed_turn hjob hs hturn]
    refine .sends ⟨hjob, hc, ⟨_, _, _, _, rfl, rfl⟩, ?_, hlook, fun k' => ?_, fun k' => ?_, rfl⟩
    · rw [line, hs]
      exact of_decide_eq_true hturn
    · refine (outlook?_update w url k k' _).trans ?_
      rw [hs, Option.map_some, outlook_carryOut (hw.lawful hs) hurl hcase hexternal]
    · have hline := line_update w k k' fun _ => (s.carryOut (.decide url source v)).2
      refine hline.trans ?_
      split
      · next hk => rw [← hk, line, hs]; rfl
      · rfl
  · rw [proceed_turn_of_not hjob hs hturn]
    exact .quiet quiet_self

theorem advance_ranges (hw : Reachable w) {keeps : List Listener} {batch : RangeBatch}
    {renews : Bool} {sequel : Sequel}
    (hjob : w.jobs.get? j = some ⟨keeps, .ranges k batch renews sequel⟩)
    (hc : Carries w root url (.ranges k batch renews sequel) o v) (refused : List ScriptId) :
    w.Advance root url (w.proceed j refused).1 := by
  have hseated := hw.seated
  have hf : ∀ s : Skipper, ((if renews then s.schedule else s).leave).outlook url = s.outlook url ∧
      ((if renews then s.schedule else s).leave).line = s.line.tail := by
    intro s
    cases renews <;> exact ⟨rfl, rfl⟩
  have hevolves := evolves_leave w k renews
  rw [proceed_ranges hjob]
  cases hc with
  | @decided k x hx hroot batch renews was hskipped =>
    -- The state has turned, so the siblings are told.
    have hleaves : w.Leaves root url j k ⟨keeps, .ranges k batch renews (.announce url was)⟩
        x.target (!was) (w.peers root x.target) :=
      ⟨hjob, trivial, rfl, .decided hx hroot batch renews was hskipped, Or.inl ⟨rfl, rfl⟩⟩
    have hx' : (w.update k fun s => (if renews then s.schedule else s).leave).outlook? url k =
        some x := (outlook?_update_of_eq (fun s _ => (hf s).1) k).trans hx
    obtain ⟨s, hs, rfl⟩ := Option.map_eq_some_iff.mp hx'
    have hne : (!was) ≠ was := by cases was <;> decide
    have haudience := (hseated.evolve hevolves).audience_eq ⟨s.root, s.target, url, !was⟩
    rw [hevolves.peers_eq, show s.root = root from hroot] at haudience
    have hgoOn : ∃ keeps' outcome,
        (w.update k fun s => (if renews then s.schedule else s).leave).goOn j keeps k
          (.announce url was) =
        (w.update k fun s => (if renews then s.schedule else s).leave).tell j keeps'
          ⟨root, s.target, url, !was⟩ outcome (w.peers root s.target) := by
      rw [goOn, hs]
      simp only [show s.policy.isSkipped url = !was from hskipped, if_neg hne, publish,
        show s.root = root from hroot, haudience]
      exact ⟨_, _, rfl⟩
    obtain ⟨keeps', outcome, hgoOn⟩ := hgoOn
    simp only [hgoOn]
    exact advance_tell hseated hleaves hf keeps' outcome
  | @brought k rest _ hrest batch renews v outcome =>
    have hleaves : w.Leaves root url j k
        ⟨keeps, .ranges k batch renews (.deliver ⟨root, o, url, v⟩ rest outcome)⟩ o v rest :=
      ⟨hjob, trivial, rfl, .brought hrest batch renews v outcome, Or.inr rfl⟩
    exact advance_tell hseated hleaves hf keeps outcome

/-- **What a job can do** is wait, have its turn, go on, or end. -/
theorem advance_proceed (hw : Reachable w) (h : w.Orderly root url) (hurl : IsPlainUrl url)
    (j : JobId) (refused : List ScriptId) : w.Advance root url (w.proceed j refused).1 := by
  cases hjob : w.jobs.get? j with
  | none =>
    rw [proceed, hjob]
    exact .quiet quiet_self
  | some job =>
    obtain ⟨o, v, hc⟩ := h.carries j job hjob
    obtain ⟨keeps, wait⟩ := job
    cases wait with
    | turn k c sequel =>
      have hc' := hc
      cases hc with
      | deciding | bringing => exact advance_turn hw h hurl hjob hc' refused
    | ranges k batch renews sequel => exact advance_ranges hw hjob hc refused
    | patterns k patterns => cases hc

theorem begins_take {request : ToggleRequest}
    (ha : (Action.begin j (.toggle k request)).IsToggleOf w root url) (hclear : w.IsClear url k) :
    ∃ x source keeps, w.Begins root url (w.take (.begin j (.toggle k request))).1 j k x source
      keeps := by
  obtain ⟨hfree, s, source, hs, hroot, hresolve⟩ := ha
  have hlook : w.outlook? url k = some (s.outlook url) := by rw [outlook?, hs]; rfl
  have hcontains : w.jobs.contains j = false := by rw [Index.contains, hfree]; rfl
  rw [World.take, hcontains, if_neg Bool.false_ne_true, begin, hs]
  simp only [hresolve]
  exact ⟨s.outlook url, source, [k], hfree, hlook, hroot, hclear, outlook?_bring w _ _ _,
    line_bring w _ _ _ hs, rfl⟩

/-- **What an action can do** while toggles of one URL are under way. -/
theorem advance_take (hw : Reachable w) (h : w.Orderly root url) (hurl : IsPlainUrl url)
    {a : Action} (ha : a.IsToggleOf w root url) (hclear : a.CrossesNone w url) :
    w.Advance root url (w.take a).1 := by
  cases a with
  | begin j operation =>
    cases operation with
    | toggle k request =>
      obtain ⟨x, source, keeps, hbegins⟩ := begins_take ha hclear
      exact .begins hbegins
    | _ => exact ha.elim
  | proceed j refused => exact advance_proceed hw h hurl j refused
  | tick k now latency =>
    rw [World.take]
    cases hs : w.sessions.get? k with
    | none =>
      rw [tick, hs]
      exact .quiet quiet_self
    | some s =>
      obtain ⟨⟨d, sending, htick⟩, -⟩ := tick_cases hs now latency
      rw [htick]
      refine .quiet (quiet_update fun s' hs' => ?_)
      rw [hs, Option.some.injEq] at hs'
      exact hs' ▸ ⟨rfl, rfl⟩
  | inquire k =>
    rw [World.take, inquire]
    split
    · split
      · exact .quiet (quiet_update fun _ _ => ⟨rfl, rfl⟩)
      · exact .quiet quiet_self
    · exact .quiet quiet_self
  | answer k reply =>
    rw [World.take, answer]
    split
    · split
      · exact .quiet (quiet_update fun s hs =>
          ⟨outlook_learn (ha s hs).1 (ha s hs).2, s.learn_line reply⟩)
      · exact .quiet quiet_self
    · exact .quiet quiet_self
  | closeSession k => exact .quiet (quiet_update fun _ _ => ⟨rfl, rfl⟩)
  | replaceGraph k graph => exact .quiet (quiet_update fun _ _ => ⟨rfl, rfl⟩)
  | openSession o => exact ha.elim

/-! ## Runs -/

/-- All actions of a run have to do with toggles of the URL on sessions of the root. -/
def OnlyToggles (root : TargetId) (url : String) : World → List Action → Prop
  | _, [] => True
  | w, a :: rest => a.IsToggleOf w root url ∧ OnlyToggles root url (w.act a).1 rest

/-- Whenever a toggle is started on a session, those of other sessions that carry the other state
are in its line already, or are done with it. -/
def Uncrossed (url : String) : World → List Action → Prop
  | _, [] => True
  | w, a :: rest => a.CrossesNone w url ∧ Uncrossed url (w.act a).1 rest

/-- All living sessions of the root think the same of the URL. -/
def Agree (w : World) (root : TargetId) (url : String) : Prop :=
  ∀ k s k' s', w.sessions.get? k = some s → w.sessions.get? k' = some s' → s.root = root →
    s'.root = root → s.policy.isSkipped url = s'.policy.isSkipped url

theorem lawful_of_isToggleOf {a : Action} (ha : a.IsToggleOf w root url) : a.Lawful := by
  cases a with
  | openSession o => exact ha.elim
  | _ => trivial

theorem evolves_of_isToggleOf {a : Action} (ha : a.IsToggleOf w root url) :
    Evolves w (w.take a).1 := by
  refine evolves_take fun hopening => ?_
  cases a with
  | openSession o => exact ha.elim
  | _ => exact hopening.elim

theorem Orderly.act (h : w.Orderly root url) (hw : Reachable w) (hurl : IsPlainUrl url)
    {a : Action} (ha : a.IsToggleOf w root url) (hclear : a.CrossesNone w url) :
    (w.act a).1.Orderly root url := by
  have hpeers := (evolves_of_isToggleOf ha).peers_eq root
  exact (h.advance hw.inLine hw.seated hpeers (advance_take hw h hurl ha hclear)).reap
    (hw.inLine.take hw.seated a) (hw.seated.take a)

theorem Heading.act {V : Bool} (h : w.Heading root url V) (horderly : w.Orderly root url)
    (hw : Reachable w) (hurl : IsPlainUrl url) {a : Action} (ha : a.IsToggleOf w root url)
    (hclear : a.CrossesNone w url) : ∃ V', (w.act a).1.Heading root url V' := by
  have hpeers := (evolves_of_isToggleOf ha).peers_eq root
  have hadvance := advance_take hw horderly hurl ha hclear
  obtain ⟨V', hheading⟩ := h.advance horderly hw.inLine hw.seated hpeers hadvance
  exact ⟨V', hheading.reap (horderly.advance hw.inLine hw.seated hpeers hadvance)
    (hw.inLine.take hw.seated a) (hw.seated.take a)⟩

/-- Once a toggle has been started, the sessions are heading for one state all along. -/
theorem Heading.run {V : Bool} (h : w.Heading root url V) (horderly : w.Orderly root url)
    (hw : Reachable w) (hurl : IsPlainUrl url) {actions : List Action}
    (honly : OnlyToggles root url w actions) (huncrossed : Uncrossed url w actions) :
    ∃ V', (w.run actions).1.Heading root url V' := by
  induction actions generalizing w V with
  | nil => exact ⟨V, h⟩
  | cons a rest ih =>
    obtain ⟨ha, hrest⟩ := honly
    obtain ⟨hclear, huncrossed⟩ := huncrossed
    obtain ⟨V', hV'⟩ := h.act horderly hw hurl ha hclear
    exact ih hV' (horderly.act hw hurl ha hclear) (hw.act (lawful_of_isToggleOf ha)) hrest
      huncrossed

theorem Orderly.exists_heading (h : w.Orderly root url) (hw : Reachable w)
    (hurl : IsPlainUrl url) {actions : List Action} (honly : OnlyToggles root url w actions)
    (huncrossed : Uncrossed url w actions)
    (hsome : ∃ j k request, Action.begin j (.toggle k request) ∈ actions) :
    ∃ V, (w.run actions).1.Heading root url V := by
  induction actions generalizing w with
  | nil =>
    obtain ⟨j, k, request, hmem⟩ := hsome
    exact absurd hmem List.not_mem_nil
  | cons a rest ih =>
    obtain ⟨ha, hrest⟩ := honly
    obtain ⟨hclear, huncrossed⟩ := huncrossed
    have hw' := hw.act (lawful_of_isToggleOf ha)
    have horderly' := h.act hw hurl ha hclear
    obtain ⟨j, k, request, hmem⟩ := hsome
    rcases List.mem_cons.mp hmem with rfl | hmem
    · obtain ⟨x, source, keeps, hbegins⟩ := begins_take ha hclear
      have hpeers := (evolves_of_isToggleOf ha).peers_eq root
      have horderly := h.advance hw.inLine hw.seated hpeers (.begins hbegins)
      have hheading := hbegins.heading.reap horderly (hw.inLine.take hw.seated _)
        (hw.seated.take _)
      exact hheading.run horderly' hw' hurl hrest huncrossed
    · exact ih horderly' hw' hrest huncrossed ⟨j, k, request, hmem⟩

end World

/-- **Sessions agree on a file after toggles that do not cross.**  Let no job be under way, and then
start toggles of one URL on sessions of one root, at least one, and mix their steps with each other
and with the other steps that `OnlyToggles` allows.  If no toggle is started on a session to which
one of another session, with the other state, has still to come, then all living sessions of the
root agree on the URL once all of them have ended. -/
theorem toggles_agree {w : World} (hw : Reachable w) (hidle : w.jobs.entries = [])
    {root : TargetId} {url : String} (hurl : IsPlainUrl url)
    (hdistinct : ∀ k s k' s', w.sessions.get? k = some s → w.sessions.get? k' = some s' →
      s.root = root → s'.root = root → s.target = s'.target → k = k')
    (hfile : ∀ k s, w.sessions.get? k = some s → s.root = root →
      s.policy.pathCase.isInsensitive = false ∧ s.policy.isNodeInternal url = false)
    {actions : List Action} (honly : World.OnlyToggles root url w actions)
    (huncrossed : World.Uncrossed url w actions)
    (hsome : ∃ j k request, Action.begin j (.toggle k request) ∈ actions)
    (hdone : (w.run actions).1.jobs.entries = []) : (w.run actions).1.Agree root url := by
  have hnone : ∀ {w : World}, w.jobs.entries = [] → ∀ j, w.jobs.get? j = none := by
    intro w hjobs j
    rw [Index.get?, hjobs, Index.find?_nil]
  have horderly : w.Orderly root url := by
    refine ⟨?_, ?_, fun j job hj => ?_, fun j job _ _ _ _ _ _ _ hj => ?_⟩
    · intro k x k' x' hx hx'
      obtain ⟨s, hs, rfl⟩ := Option.map_eq_some_iff.mp hx
      obtain ⟨s', hs', rfl⟩ := Option.map_eq_some_iff.mp hx'
      exact hdistinct k s k' s' hs hs'
    · intro k x hx
      obtain ⟨s, hs, rfl⟩ := Option.map_eq_some_iff.mp hx
      exact hfile k s hs
    · exact absurd (hnone hidle j ▸ hj) (by simp)
    · exact absurd (hnone hidle j ▸ hj) (by simp)
  obtain ⟨V, hheading⟩ := horderly.exists_heading hw hurl honly huncrossed hsome
  have hsettled : ∀ k s, (w.run actions).1.sessions.get? k = some s → s.root = root →
      s.policy.isSkipped url = V := by
    intro k s hs hroot
    refine hheading.settled k (s.outlook url) (by rw [World.outlook?, hs]; rfl) hroot ?_
    rintro j o v ⟨job, hj, -⟩
    exact absurd (hnone hdone j ▸ hj) (by simp)
  intro k s k' s' hs hs' hroot hroot'
  rw [hsettled k s hs hroot, hsettled k' s' hs' hroot']

/-! ## Toggles that cross -/

/-- Toggles of a URL that are started on a page and on its worker, and take their steps in turn. -/
def crossing (url : String) : List Action :=
  [.begin ⟨0⟩ (.toggle ⟨0⟩ (.resource url)), .begin ⟨1⟩ (.toggle ⟨1⟩ (.resource url)),
    .proceed ⟨0⟩ [], .proceed ⟨1⟩ [], .proceed ⟨0⟩ [], .proceed ⟨1⟩ [],
    .proceed ⟨0⟩ [], .proceed ⟨1⟩ [], .proceed ⟨0⟩ [], .proceed ⟨1⟩ []]

theorem onlyToggles_crossing (url : String) :
    World.OnlyToggles ⟨"page"⟩ url family (crossing url) :=
  ⟨⟨rfl, _, none, rfl, rfl, rfl⟩, ⟨rfl, _, none, rfl, rfl, rfl⟩, trivial, trivial, trivial, trivial,
    trivial, trivial, trivial, trivial, trivial⟩

/-- A toggle of a URL that is started on a page, and one that is started on its worker once it has
taken over what the page decided, while the first one is still under way. -/
def turningBack (url : String) : List Action :=
  [.begin ⟨0⟩ (.toggle ⟨0⟩ (.resource url)), .proceed ⟨0⟩ [], .proceed ⟨0⟩ [], .proceed ⟨0⟩ [],
    .begin ⟨1⟩ (.toggle ⟨1⟩ (.resource url)), .proceed ⟨1⟩ [], .proceed ⟨0⟩ [],
    .proceed ⟨1⟩ [], .proceed ⟨1⟩ [], .proceed ⟨1⟩ [], .proceed ⟨1⟩ []]

theorem onlyToggles_turningBack :
    World.OnlyToggles ⟨"page"⟩ "/app/a.js" family (turningBack "/app/a.js") :=
  ⟨⟨rfl, _, none, rfl, rfl, rfl⟩, trivial, trivial, trivial, ⟨rfl, _, none, rfl, rfl, rfl⟩, trivial,
    trivial, trivial, trivial, trivial, trivial, trivial⟩

theorem World.isClear_of_forall {w : World} {url : String} {k : Listener}
    (h : ∀ e ∈ w.jobs.entries, (w.bearing? e.2.wait).map (·.2) ≠
      (w.sessions.get? k).map (·.policy.isSkipped url) ∨ e.2.wait.place? = some k) :
    w.IsClear url k := by
  intro s hs j job o hj hbearing _ _
  refine (h (j, job) (Index.mem_entries_of_get? hj)).resolve_left (absurd · ?_)
  rw [hbearing, hs]
  exact not_not.mpr rfl

/-- The page and the worker think the same of the file, so two toggles that cross carry the same,
and the sessions agree.  They also agree when the worker turns back what it has taken over. -/
theorem toggles_agree_family :
    (family.run (crossing "/app/a.js")).1.Agree ⟨"page"⟩ "/app/a.js" ∧
    (family.run (turningBack "/app/a.js")).1.Agree ⟨"page"⟩ "/app/a.js" := by
  have hfile : ∀ e ∈ family.sessions.entries, e.2.policy.pathCase.isInsensitive = false ∧
      e.2.policy.isNodeInternal "/app/a.js" = false := by
    rw [entries_family]
    decide
  have hagree : ∀ actions, World.OnlyToggles ⟨"page"⟩ "/app/a.js" family actions →
      World.Uncrossed "/app/a.js" family actions →
      (∃ j k request, Action.begin j (.toggle k request) ∈ actions) →
      (family.run actions).1.jobs.entries = [] →
      (family.run actions).1.Agree ⟨"page"⟩ "/app/a.js" :=
    fun _ => toggles_agree reachable_family isIdle_family.jobs (by constructor <;> decide)
      (fun k s k' s' hs hs' _ _ => distinct_family k s k' s' hs hs')
      (fun k s hs _ => hfile (k, s) (Index.mem_entries_of_get? hs))
  refine ⟨hagree _ (onlyToggles_crossing _) ?_
      ⟨⟨0⟩, ⟨0⟩, .resource "/app/a.js", List.mem_cons_self⟩ rfl,
    hagree _ onlyToggles_turningBack ?_
      ⟨⟨0⟩, ⟨0⟩, .resource "/app/a.js", List.mem_cons_self⟩ rfl⟩
  · refine ⟨World.isClear_of_forall ?_, World.isClear_of_forall ?_, trivial, trivial, trivial,
      trivial, trivial, trivial, trivial, trivial, trivial⟩ <;> decide
  · refine ⟨World.isClear_of_forall ?_, trivial, trivial, trivial, World.isClear_of_forall ?_,
      trivial, trivial, trivial, trivial, trivial, trivial, trivial⟩ <;> decide

/-- A page that two sessions debug. -/
def twins : World :=
  (World.start.run [.openSession (plainOpening "page" "page" []),
    .openSession (plainOpening "page" "page" [])]).1

theorem reachable_twins : Reachable twins := by
  refine Reachable.start.run ?_
  simp only [List.forall_mem_cons]
  exact ⟨SkipPolicy.lawful_ofGlobs _ _ _, SkipPolicy.lawful_ofGlobs _ _ _,
    fun _ h => absurd h List.not_mem_nil⟩

/-- A toggle of a URL that is alone. -/
def lonely (url : String) : List Action :=
  [.begin ⟨0⟩ (.toggle ⟨0⟩ (.resource url)), .proceed ⟨0⟩ [], .proceed ⟨0⟩ []]

/-- **Toggles that contradict each other leave sessions apart, and so do sessions of one target.**
The worker skips the file and the page does not: each of them turns its own state, then is told the
new state of the other one, and takes it over.  Of two sessions of one target, neither is told what
the other one decides. -/
theorem crossing_toggles_disagree :
    (Reachable family ∧ family.jobs.entries = [] ∧ IsPlainUrl "/app/lib/a.js" ∧
      World.OnlyToggles ⟨"page"⟩ "/app/lib/a.js" family (crossing "/app/lib/a.js") ∧
      (family.run (crossing "/app/lib/a.js")).1.jobs.entries = [] ∧
      ¬ (family.run (crossing "/app/lib/a.js")).1.Agree ⟨"page"⟩ "/app/lib/a.js") ∧
    (Reachable twins ∧ twins.jobs.entries = [] ∧ IsPlainUrl "/app/a.js" ∧
      World.OnlyToggles ⟨"page"⟩ "/app/a.js" twins (lonely "/app/a.js") ∧
      (twins.run (lonely "/app/a.js")).1.jobs.entries = [] ∧
      ¬ (twins.run (lonely "/app/a.js")).1.Agree ⟨"page"⟩ "/app/a.js") := by
  refine ⟨⟨reachable_family, rfl, by constructor <;> decide, onlyToggles_crossing _, rfl, ?_⟩,
    reachable_twins, rfl, by constructor <;> decide,
    ⟨⟨rfl, _, none, rfl, rfl, rfl⟩, trivial, trivial, trivial⟩, rfl, ?_⟩
  · intro hagree
    have hsame := hagree ⟨0⟩ _ ⟨1⟩ _ rfl rfl rfl rfl
    exact absurd hsame (by decide)
  · intro hagree
    have hsame := hagree ⟨0⟩ _ ⟨1⟩ _ rfl rfl rfl rfl
    exact absurd hsame (by decide)

end Skipper
end DebugTree
