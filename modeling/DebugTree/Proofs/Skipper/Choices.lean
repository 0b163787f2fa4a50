import DebugTree.Proofs.Policy.Bystanders
import DebugTree.Proofs.Ranges.Forcing
import DebugTree.Proofs.Ranges.Listings
import DebugTree.Proofs.Skipper.Freshness

/-!
# How long a choice lasts

Somebody decides about a file, and later on sources are loaded.  Where the choice is kept depends on
what was loaded when it was made.  If some bundle listed the file, the choice is on record, and a
load leaves records alone.  If the file was unknown, or a source that no map listed, the choice is
in the globs, and nothing is on record for the file.  Then the first load that comes to a listing of
the file makes a record for it, and asks the source of that map as well as the globs.

So a choice lasts as long as no load overrules it, and it is said which loads do
(`choice_lasts_iff`): choices on record are never overruled, nor are choices to skip a file that is
listed as it was spelled.

## A choice that is forgotten

The choice not to skip a file is overruled if the file is listed by a bundle that is skipped and
loaded later on (`load_overrules_choice`), even though the exception for the file is still among the
globs.
-/

namespace DebugTree

/-! ## Decisions about other files -/

namespace SkipChange

open SkipPolicy

/-- A decision about another file: one that some bundle lists under another URL, or one that has no
spelling in common with the file, where no source map leads down from it to the file. -/
inductive IsElsewhere (g : SourceGraph) (p : SkipPolicy) (url : String) : SkipChange → Prop
  | ofListed {other : String} {source : Option Source} {skipped : Bool}
    (hlisted : bundles g source ≠ []) (hother : p.normalize other ≠ p.normalize url) :
    IsElsewhere g p url (.decide other source skipped)
  | ofUnlisted {other : String} {source : Option Source} {skipped : Bool} (hp : p.Lawful)
    (hcase : p.pathCase.isInsensitive = false) (hunlisted : bundles g source = [])
    (hother : StandsForOne other) (hapart : Apart p.pathCase other url)
    (habove : ∀ c ∈ source, ∀ s a, g.LeadsTo c s → a ∈ g.authoredOf s →
      p.normalize a.url ≠ p.normalize url) :
    IsElsewhere g p url (.decide other source skipped)

variable {g : SourceGraph} {p : SkipPolicy} {c : SkipChange} {url : String}

/-- A decision about another file leaves alone what is on record for the file, and how the policy
decides about it. -/
theorem IsElsewhere.revise_eq (h : c.IsElsewhere g p url) :
    (c.revise g p).overrideFor url = p.overrideFor url ∧
      (c.revise g p).isSkipped url = p.isSkipped url := by
  cases h with
  | @ofListed other source skipped hlisted hother =>
    have hrevise : (decide other source skipped).revise g p = p.setOverride other skipped := by
      rw [revise, if_neg (by simpa using hlisted)]
    rw [hrevise, overrideFor_setOverride, if_neg hother]
    exact ⟨rfl, isSkipped_setOverride_of_ne hother skipped⟩
  | @ofUnlisted other source skipped hp hcase hunlisted hother hapart habove =>
    have hchosen := isSkipped_setExplicitSkip_of_apart hp hcase hother hapart skipped
    have hkept : (p.setExplicitSkip other skipped).overrideFor url = p.overrideFor url := by
      cases hint : p.isNodeInternal other with
      | true => rw [setExplicitSkip_of_internal hint]; rfl
      | false => exact overrideFor_setExplicitSkip_of_ne hint skipped (Ne.symm hapart.keys)
    rw [revise, if_pos (by simp [hunlisted])]
    cases source with
    | none => exact ⟨hkept, hchosen⟩
    | some c =>
      have hbelow : ∀ s a, g.LeadsTo c s → a ∈ g.authoredOf s →
          (p.setExplicitSkip other skipped).normalize a.url ≠
            (p.setExplicitSkip other skipped).normalize url := by
        simpa only [normalize_setExplicitSkip] using habove c rfl
      exact ⟨(Ranges.overrideFor_force_of_ne hbelow skipped).trans hkept,
        (Ranges.isSkipped_force_of_ne hbelow skipped).trans hchosen⟩

end SkipChange

namespace Skipper

namespace World

variable {w : World} {actions : List Action} {k : Listener} {m n N : Nat} {url : String}
  {skipped : Bool} {c : SkipChange} {s s' t : Skipper}

/-! ## Policies from one moment to the next -/

/-- **How a policy comes about**: it is that of the moment before, or what a turn has made of it, or
the builtin modules have become known. -/
theorem policy_succ_cases (hknown : k.number < (start.before actions n).nextListener)
    (hs' : (start.before actions (n + 1)).sessions.get? k = some s') :
    ∃ s, (start.before actions n).sessions.get? k = some s ∧
      (s'.policy = s.policy ∨
        (∃ c, start.TurnAt actions n k c s ∧ s'.policy = c.revise s.graph s.policy) ∨
        ∃ names, s'.policy = s.policy.setBuiltins names) := by
  obtain ⟨s, hs⟩ := exists_session_before (seated_before actions n) hknown hs'
  refine ⟨s, hs, ?_⟩
  cases hn : actions[n]? with
  | none =>
    rw [before_succ_of_none hn, hs] at hs'
    exact Or.inl (congrArg Skipper.policy (Option.some.inj hs').symm)
  | some a =>
    rcases session_before_succ (seated_before actions n) hn hs' with
      ⟨o, -, -, hk, -⟩ | ⟨t, ht, hdeed⟩
    · exact absurd (congrArg Listener.number hk) (Nat.ne_of_lt hknown)
    obtain rfl : s = t := Option.some.inj (hs.symm.trans ht)
    rcases hdeed.policy_cases with hsame | ⟨j, refused, c, rfl, hplans, hturn⟩ | ⟨-, names, -, -, h⟩
    · exact Or.inl hsame
    · exact Or.inr (Or.inl ⟨c, ⟨j, refused, hn, hplans⟩, hturn⟩)
    · exact Or.inr (Or.inr ⟨names, h⟩)

/-- A URL is that of a file throughout a run in which the builtin modules are never discovered. -/
theorem isNodeInternal_before
    (hopen : ∀ o, .openSession o ∈ actions → o.policy.isNodeInternal url = false)
    (hanswer : ∀ reply, .answer k reply ∉ actions)
    (hs : (start.before actions n).sessions.get? k = some s) :
    s.policy.isNodeInternal url = false := by
  refine session_induction inLine_start seated_start
    (P := fun _ s => s.policy.isNodeInternal url = false) (fun _ h => by cases h)
    (fun n o _ hn _ => hopen o (List.mem_of_getElem? hn)) (fun _ _ _ h => h)
    (fun n a s s' hn _ _ hdeed h => ?_) hs
  rcases hdeed.policy_cases with hsame | ⟨j, refused, c, -, -, hturn⟩ | ⟨reply, names, rfl, -⟩
  · rw [hsame, h]
  · rw [hturn, SkipChange.isNodeInternal_revise, h]
  · exact absurd (List.mem_of_getElem? hn) (hanswer reply)

/-! ## A file from one moment to the next -/

/-- At this moment of a run the session decides about a URL like this, if it is alive. -/
def SaysAt (w : World) (actions : List Action) (n : Nat) (k : Listener) (url : String)
    (skipped : Bool) : Prop :=
  ∀ s, (w.before actions n).sessions.get? k = some s → s.policy.isSkipped url = skipped

/-- At this moment of a run the session has this on record for a URL, if it is alive. -/
def RecordsAt (w : World) (actions : List Action) (n : Nat) (k : Listener) (url : String)
    (skipped : Bool) : Prop :=
  ∀ s, (w.before actions n).sessions.get? k = some s → s.policy.overrideFor url = some skipped

/-- Between two moments of a run the URL is that of a file, and the session only loads sources or
turns to other files. -/
structure Undisturbed (w : World) (actions : List Action) (m N : Nat) (k : Listener)
    (url : String) : Prop where
  file : ∀ n, m < n → n ≤ N → ∀ s, (w.before actions n).sessions.get? k = some s →
    s.policy.isNodeInternal url = false
  elsewhere : ∀ n, m < n → n < N → ∀ c s, w.TurnAt actions n k c s →
    (∃ d, c = .load d) ∨ c.IsElsewhere s.graph s.policy url

/-- At this moment of a run a source is loaded that overrules a file. -/
def OverruledAt (w : World) (actions : List Action) (n : Nat) (k : Listener) (url : String) : Prop :=
  ∃ d s, w.TurnAt actions n k (.load d) s ∧ Ranges.Overrules s.policy s.graph d url

/-- What is on record stays on record. -/
theorem Undisturbed.recordsAt_succ (h : start.Undisturbed actions m N k url) (hm : m < n)
    (hN : n < N) (hknown : k.number < (start.before actions n).nextListener)
    (hrecords : start.RecordsAt actions n k url skipped) :
    start.RecordsAt actions (n + 1) k url skipped := by
  intro s' hs'
  obtain ⟨s, hs, hsame | ⟨c, hturn, hrevised⟩ | ⟨names, hlearned⟩⟩ := policy_succ_cases hknown hs'
  · rw [hsame, hrecords s hs]
  · rw [hrevised]
    rcases h.elsewhere n hm hN c s hturn with ⟨d, rfl⟩ | helse
    · have hext := Ranges.extends_propagate s.policy s.graph d
      rw [SkipChange.revise, SkipPolicy.overrideFor, hext.normalize_eq]
      exact hext.records _ skipped (hrecords s hs)
    · rw [helse.revise_eq.1, hrecords s hs]
  · rw [hlearned]
    exact hrecords s hs

/-- A file keeps its state if it is not overruled. -/
theorem Undisturbed.saysAt_succ (h : start.Undisturbed actions m N k url) (hm : m < n)
    (hN : n < N) (hknown : k.number < (start.before actions n).nextListener)
    (hstate : start.SaysAt actions n k url skipped) (hnot : ¬ start.OverruledAt actions n k url) :
    start.SaysAt actions (n + 1) k url skipped := by
  intro s' hs'
  have hfile' := h.file (n + 1) (Nat.lt_succ_of_lt hm) hN s' hs'
  obtain ⟨s, hs, hsame | ⟨c, hturn, hrevised⟩ | ⟨names, hlearned⟩⟩ := policy_succ_cases hknown hs'
  · rw [hsame, hstate s hs]
  · rw [hrevised, ← hstate s hs]
    rcases h.elsewhere n hm hN c s hturn with ⟨d, rfl⟩ | helse
    · by_contra hne
      have hfile := h.file n hm (Nat.le_of_lt hN) s hs
      exact hnot ⟨d, s, hturn, (Ranges.isSkipped_propagate_ne_iff hfile).mp hne⟩
    · exact helse.revise_eq.2
  · rw [hlearned] at hfile' ⊢
    exact (SkipPolicy.isSkipped_setBuiltins (h.file n hm (Nat.le_of_lt hN) s hs) hfile').trans
      (hstate s hs)

/-- A file that is overruled does not keep its state. -/
theorem OverruledAt.not_saysAt_succ (h : start.OverruledAt actions n k url)
    (hfile : ∀ s, (start.before actions n).sessions.get? k = some s →
      s.policy.isNodeInternal url = false)
    (hstate : start.SaysAt actions n k url skipped) :
    ¬ start.SaysAt actions (n + 1) k url skipped := by
  intro hafter
  obtain ⟨d, s, hturn, hoverrules⟩ := h
  obtain ⟨s', hs', hpolicy⟩ := hturn.exists_succ
  obtain ⟨j, refused, -, hplans⟩ := hturn
  have hs := hplans.session
  refine (Ranges.isSkipped_propagate_ne_iff (hfile s hs)).mpr hoverrules ?_
  rw [hstate s hs, ← hafter s' hs', hpolicy]
  rfl

/-- A choice to skip a file is not overruled by a listing under the URL as it was spelled. -/
theorem not_overruledAt_of_spelled
    (hfile : ∀ s, (start.before actions n).sessions.get? k = some s →
      s.policy.isNodeInternal url = false)
    (hstate : start.SaysAt actions n k url true)
    (hspelled : ∀ d s, start.TurnAt actions n k (.load d) s →
      ∀ parent a, Ranges.firstListing? s.policy s.graph d url = some (parent, a) → a.url = url) :
    ¬ start.OverruledAt actions n k url := by
  rintro ⟨d, s, hload, hoverrules⟩
  obtain ⟨hrecord, parent, a, hfirst, -⟩ := id hoverrules
  obtain ⟨-, hglobs, -⟩ :=
    (Ranges.overrules_iff_of_spelled hfirst (hspelled d s hload parent a hfirst)).mp hoverrules
  obtain ⟨j, refused, -, hplans⟩ := hload
  have hsame := hstate s hplans.session
  rw [SkipPolicy.isSkipped_of_not_internal (hfile s hplans.session), hrecord, Option.getD_none,
    hglobs] at hsame
  exact Bool.noConfusion hsame

/-! ## A file throughout a run -/

/-- What a decision about a file that some bundle lists leaves on record. -/
theorem TurnAt.recordsAt_succ {source : Option Source}
    (h : start.TurnAt actions m k (.decide url source skipped) t)
    (hlisted : SkipChange.bundles t.graph source ≠ []) :
    start.RecordsAt actions (m + 1) k url skipped := by
  intro s' hs'
  rw [h.policy_succ hs', SkipChange.revise, if_neg (by simpa using hlisted)]
  exact (SkipPolicy.overrideFor_setOverride _ _).trans (if_pos rfl)

theorem TurnAt.lt_nextListener (h : start.TurnAt actions m k c t) (hm : m < n) :
    k.number < (start.before actions n).nextListener := by
  obtain ⟨j, refused, -, hplans⟩ := h
  exact lt_nextListener_before (Nat.le_of_lt hm) hplans.session

/-- What a turn leaves on record is on record from then on. -/
theorem Undisturbed.recordsAt (h : start.Undisturbed actions m N k url)
    (hturn : start.TurnAt actions m k c t) (hrecords : start.RecordsAt actions (m + 1) k url skipped)
    (hm : m < n) (hN : n ≤ N) : start.RecordsAt actions n k url skipped := by
  induction n, hm using Nat.le_induction with
  | base => exact hrecords
  | succ n hm ih => exact h.recordsAt_succ hm hN (hturn.lt_nextListener hm) (ih (Nat.le_of_lt hN))

/-- The state in which a turn leaves a file lasts if no load overrules the file while it is in this
state. -/
theorem Undisturbed.saysAt (h : start.Undisturbed actions m N k url)
    (hturn : start.TurnAt actions m k c t) (hstate : start.SaysAt actions (m + 1) k url skipped)
    (hnever : ∀ n, m < n → n < N → start.SaysAt actions n k url skipped →
      ¬ start.OverruledAt actions n k url)
    (hm : m < n) (hN : n ≤ N) : start.SaysAt actions n k url skipped := by
  induction n, hm using Nat.le_induction with
  | base => exact hstate
  | succ n hm ih =>
    have hbefore := ih (Nat.le_of_lt hN)
    exact h.saysAt_succ hm hN (hturn.lt_nextListener hm) hbefore (hnever n hm hN hbefore)

end World

/-- **How long a choice lasts.**  Somebody has decided about a file, and the session has followed.
As long as it only loads sources or turns to other files, the file keeps its state exactly if no
load overrules it.  It is never overruled if some bundle listed it when the choice was made, for
then the choice is on record; and a choice to skip it is never overruled by listings under the URL
as it was spelled. -/
theorem choice_lasts_iff {actions : List Action} {k : Listener} {m N : Nat} {url : String}
    {source : Option Source} {skipped : Bool} {t : Skipper}
    (hturn : World.start.TurnAt actions m k (.decide url source skipped) t)
    (hchosen : World.start.SaysAt actions (m + 1) k url skipped)
    (hcalm : World.start.Undisturbed actions m N k url) :
    ((∀ n, m < n → n ≤ N → World.start.SaysAt actions n k url skipped) ↔
      ∀ n, m < n → n < N → ¬ World.start.OverruledAt actions n k url) ∧
    (SkipChange.bundles t.graph source ≠ [] →
      ∀ n, m < n → n ≤ N → World.start.SaysAt actions n k url skipped) ∧
    (skipped = true →
      (∀ n d s, m < n → n < N → World.start.TurnAt actions n k (.load d) s →
        ∀ parent a, Ranges.firstListing? s.policy s.graph d url = some (parent, a) → a.url = url) →
      ∀ n, m < n → n ≤ N → World.start.SaysAt actions n k url skipped) := by
  refine ⟨⟨fun hstate n hm hN hover => ?_, fun hnever n hm hN => ?_⟩, fun hlisted n hm hN s hs => ?_,
    fun hskip hspelled n hm hN => ?_⟩
  · exact hover.not_saysAt_succ (hcalm.file n hm (Nat.le_of_lt hN)) (hstate n hm (Nat.le_of_lt hN))
      (hstate (n + 1) (Nat.lt_succ_of_lt hm) hN)
  · exact hcalm.saysAt hturn hchosen (fun n hm hN _ => hnever n hm hN) hm hN
  · have hrecord := hcalm.recordsAt hturn (hturn.recordsAt_succ hlisted) hm hN s hs
    rw [SkipPolicy.isSkipped_of_not_internal (hcalm.file n hm hN s hs), hrecord]
    rfl
  · refine hcalm.saysAt hturn hchosen (fun n hm hN hstate => ?_) hm hN
    exact World.not_overruledAt_of_spelled (hcalm.file n hm (Nat.le_of_lt hN)) (hskip ▸ hstate)
      fun d s => hspelled n d s hm hN

/-! ## A bundle that comes late -/

/-- A bundle of one file. -/
def lateBundle (url : String) : SourceGraph :=
  SourceGraph.empty.addMapped ⟨1, url⟩ ⟨⟨3, "/app/u.ts"⟩, ⟨9, 0⟩⟩ .start ⟨9, 0⟩

/-- Build products are skipped, and so is one file. -/
def productsSkipped : SkipPolicy :=
  .ofGlobs ["**/dist/**", "**/u.ts"] none .sensitive

/-- The file is toggled while it is unknown, and then a bundle comes up that lists it and is
loaded. -/
def belated (url : String) : List Action :=
  [.openSession ⟨⟨"page"⟩, ⟨"page"⟩, productsSkipped, .empty, 500, false⟩,
    .begin ⟨0⟩ (.toggle ⟨0⟩ (.resource "/app/u.ts")), .proceed ⟨0⟩ [], .proceed ⟨0⟩ [],
    .replaceGraph ⟨0⟩ (lateBundle url), .begin ⟨1⟩ (.load ⟨0⟩ ⟨1, url⟩), .proceed ⟨1⟩ [],
    .proceed ⟨1⟩ []]

/-- The policy once the file is taken out. -/
def exempted : SkipPolicy :=
  productsSkipped.setExplicitSkip "/app/u.ts" false

/-- What the globs match before the toggle and after it. -/
theorem globs_exempted :
    productsSkipped.isSkipped "/app/u.ts" = true ∧
      exempted.authored.globs = ["**/dist/**", "**/u.ts", "!/app/u.ts"] ∧
      exempted.overrideFor "/app/u.ts" = none ∧ exempted.testAuthored "/app/u.ts" = false ∧
      exempted.isSkipped "/app/b.js" = false ∧ exempted.isSkipped "/app/dist/b.js" = true := by
  decide +kernel

theorem isNodeInternal_exempted : exempted.isNodeInternal "/app/u.ts" = false := by
  decide

/-- The toggle has taken the file out. -/
theorem isSkipped_exempted : exempted.isSkipped "/app/u.ts" = false := by
  obtain ⟨-, -, hrecord, hglobs, -⟩ := globs_exempted
  rw [SkipPolicy.isSkipped_of_not_internal isNodeInternal_exempted, hrecord, hglobs]
  rfl

/-- The turns of the run, and what they find. -/
theorem turns_belated {url : String} {n : Nat} {c : SkipChange} {s : Skipper}
    (h : World.start.TurnAt (belated url) n ⟨0⟩ c s) :
    n = 2 ∧ c = .decide "/app/u.ts" none false ∧ s.policy = productsSkipped ∨
      n = 6 ∧ c = .load ⟨1, url⟩ ∧ s.policy = exempted ∧ s.graph = lateBundle url := by
  obtain ⟨j, refused, hn, ⟨keeps, sequel, hjob⟩, hs, -⟩ := h
  have hlen : n < 8 := (List.getElem?_eq_some_iff.mp hn).1
  have hwas := globs_exempted.1
  interval_cases n
  · cases hn
  · cases hn
  · cases hn
    cases hjob
    cases hs
    exact Or.inl ⟨rfl, congrArg (fun b => SkipChange.decide "/app/u.ts" none !b) hwas, rfl⟩
  · cases hn
    cases hjob
  · cases hn
  · cases hn
  · cases hn
    cases hjob
    cases hs
    exact Or.inr ⟨rfl, rfl,
      congrArg (fun b => productsSkipped.setExplicitSkip "/app/u.ts" !b) hwas, rfl⟩
  · cases hn
    cases hjob

theorem turnAt_belated (url : String) :
    ∃ t, World.start.TurnAt (belated url) 2 ⟨0⟩ (.decide "/app/u.ts" none false) t := by
  have hturn : World.start.TurnAt (belated url) 2 ⟨0⟩ _ _ :=
    ⟨⟨0⟩, [], rfl, ⟨_, _, rfl⟩, rfl, rfl⟩
  rcases turns_belated hturn with ⟨-, hc, -⟩ | ⟨hn, -⟩
  · exact ⟨_, hc ▸ hturn⟩
  · cases hn

theorem loadAt_belated (url : String) :
    ∃ s, World.start.TurnAt (belated url) 6 ⟨0⟩ (.load ⟨1, url⟩) s :=
  ⟨_, ⟨1⟩, [], rfl, ⟨_, _, rfl⟩, rfl, rfl⟩

theorem undisturbed_belated (url : String) :
    World.start.Undisturbed (belated url) 2 8 ⟨0⟩ "/app/u.ts" where
  file n _ _ s hs := by
    refine World.isNodeInternal_before (fun o ho => ?_) (fun reply => by simp [belated]) hs
    have hopen : o = ⟨⟨"page"⟩, ⟨"page"⟩, productsSkipped, .empty, 500, false⟩ := by
      simpa [belated] using ho
    rw [hopen]
    decide
  elsewhere n hm _ c s hturn := by
    rcases turns_belated hturn with ⟨rfl, -⟩ | ⟨-, rfl, -⟩
    · exact absurd hm (Nat.lt_irrefl 2)
    · exact Or.inl ⟨_, rfl⟩

theorem saysAt_belated (url : String) :
    World.start.SaysAt (belated url) 3 ⟨0⟩ "/app/u.ts" false := by
  intro s' hs'
  obtain ⟨t, hturn⟩ := turnAt_belated url
  rcases turns_belated hturn with ⟨-, -, hpolicy⟩ | ⟨hn, -⟩
  · rw [hturn.policy_succ hs', hpolicy]
    exact isSkipped_exempted
  · cases hn

/-- The bundle overrules the file exactly if it is skipped itself. -/
theorem overrules_lateBundle_iff (url : String) :
    Ranges.Overrules exempted (lateBundle url) ⟨1, url⟩ "/app/u.ts" ↔
      exempted.isSkipped url = true := by
  have hwalk : (lateBundle url).walk ⟨1, url⟩ =
      .node ⟨1, url⟩ [(⟨⟨3, "/app/u.ts"⟩, ⟨9, 0⟩⟩, .node ⟨3, "/app/u.ts"⟩ [])] := by
    cbv
  have hfirst : Ranges.firstListing? exempted (lateBundle url) ⟨1, url⟩ "/app/u.ts" =
      some (⟨1, url⟩, ⟨⟨3, "/app/u.ts"⟩, ⟨9, 0⟩⟩) := by
    rw [Ranges.firstListing?, hwalk, Ranges.listings, Ranges.listingsAll]
    exact List.find?_cons_of_pos (decide_eq_true rfl)
  obtain ⟨-, -, hrecord, hglobs, -⟩ := globs_exempted
  rw [Ranges.overrules_iff_of_spelled hfirst rfl, Ranges.enteredState, if_pos rfl]
  simp only [hrecord, hglobs, true_and]

/-- The choice outlasts the load of a bundle that is not skipped. -/
theorem choice_lasts_iff_belated :
    (∃ t, World.start.TurnAt (belated "/app/b.js") 2 ⟨0⟩ (.decide "/app/u.ts" none false) t) ∧
    World.start.SaysAt (belated "/app/b.js") 3 ⟨0⟩ "/app/u.ts" false ∧
    World.start.Undisturbed (belated "/app/b.js") 2 8 ⟨0⟩ "/app/u.ts" ∧
    World.start.SaysAt (belated "/app/b.js") 8 ⟨0⟩ "/app/u.ts" false := by
  obtain ⟨t, hturn⟩ := turnAt_belated "/app/b.js"
  have hstate := saysAt_belated "/app/b.js"
  have hcalm := undisturbed_belated "/app/b.js"
  refine ⟨⟨t, hturn⟩, hstate, hcalm, ?_⟩
  obtain ⟨-, -, -, -, hother, -⟩ := globs_exempted
  refine (choice_lasts_iff hturn hstate hcalm).1.mpr ?_ 8 (by decide) (Nat.le_refl 8)
  rintro n hm - ⟨d, s, hload, hoverrules⟩
  rcases turns_belated hload with ⟨rfl, -⟩ | ⟨-, hc, hpolicy, hgraph⟩
  · exact absurd hm (Nat.lt_irrefl 2)
  · cases hc
    rw [hpolicy, hgraph, overrules_lateBundle_iff, hother] at hoverrules
    exact Bool.noConfusion hoverrules

/-- **A load overrules a choice.**  A file has been taken out while it was unknown, and the session
has followed; all that happens to it afterwards is that a bundle is loaded.  The bundle is skipped
and lists the file, and so the file is skipped again. -/
theorem load_overrules_choice :
    (∃ t, World.start.TurnAt (belated "/app/dist/b.js") 2 ⟨0⟩
      (.decide "/app/u.ts" none false) t) ∧
    World.start.SaysAt (belated "/app/dist/b.js") 3 ⟨0⟩ "/app/u.ts" false ∧
    World.start.Undisturbed (belated "/app/dist/b.js") 2 8 ⟨0⟩ "/app/u.ts" ∧
    (∀ n c s, 2 < n → World.start.TurnAt (belated "/app/dist/b.js") n ⟨0⟩ c s →
      c = .load ⟨1, "/app/dist/b.js"⟩) ∧
    ∃ s, (World.start.before (belated "/app/dist/b.js") 7).sessions.get? ⟨0⟩ = some s ∧
      s.policy.authored.globs = ["**/dist/**", "**/u.ts", "!/app/u.ts"] ∧
      s.policy.isSkipped "/app/u.ts" = true := by
  refine ⟨turnAt_belated _, saysAt_belated _, undisturbed_belated _, fun n c s hm hturn => ?_, ?_⟩
  · rcases turns_belated hturn with ⟨rfl, -⟩ | ⟨-, hc, -⟩
    · exact absurd hm (Nat.lt_irrefl 2)
    · exact hc
  obtain ⟨t, hload⟩ := loadAt_belated "/app/dist/b.js"
  rcases turns_belated hload with ⟨hn, -⟩ | ⟨-, -, hpolicy, hgraph⟩
  · cases hn
  obtain ⟨s, hs, hafter⟩ := hload.exists_succ
  rw [hpolicy, hgraph, SkipChange.revise] at hafter
  have hext := Ranges.extends_propagate exempted (lateBundle "/app/dist/b.js")
    ⟨1, "/app/dist/b.js"⟩
  obtain ⟨-, hglobs, -, -, -, hproduct⟩ := globs_exempted
  refine ⟨s, hs, ?_, ?_⟩
  · rw [hafter, hext.authored]
    exact hglobs
  · have hchanged := (Ranges.isSkipped_propagate_ne_iff isNodeInternal_exempted).mpr
      ((overrules_lateBundle_iff "/app/dist/b.js").mpr hproduct)
    rw [hafter, ← Bool.not_eq_false, ← isSkipped_exempted]
    exact hchanged

end Skipper
end DebugTree
