import DebugTree.Proofs.Policy.Explicit
import Mathlib

/-!
# What the entries of a user decide

A policy is made from one list of skip entries, and after that records are written into it.  What it
says of a URL is told here in terms of the entries as the user wrote them: a URL that names a
module inside the runtime is decided by the marked entries, any other by what was last recorded for
it, and if nothing was, by the unmarked ones.  In either list an entry loses to a negation that
stands *behind* it, so what matters is how the list splits around the entry
(`Glob.any_isMatch_compile_iff`), and routing keeps the splits (`exists_split_filterMap_iff`).

## Two places for a negation mark

The marker is taken off an entry wherever the negation mark stands, before it or behind it.  So
`!<node_internals>/fs` and `<node_internals>/!fs` both become `!fs` among the globs for runtime
modules, and both take `fs` out (`inner_mark_negates`).
-/

namespace DebugTree

open Glob

/-! ## Splits of a list -/

namespace Glob

theorem exists_split_cons_iff {α : Type} {P : α → List α → Prop} {x : α} {xs : List α} :
    (∃ before y after, x :: xs = before ++ y :: after ∧ P y after) ↔
      P x xs ∨ ∃ before y after, xs = before ++ y :: after ∧ P y after := by
  constructor
  · rintro ⟨before, y, after, hsplit, hP⟩
    rcases List.cons_eq_append_iff.mp hsplit with ⟨-, hcons⟩ | ⟨before', -, hrest⟩
    · obtain ⟨rfl, rfl⟩ := List.cons.inj hcons
      exact Or.inl hP
    · exact Or.inr ⟨before', y, after, hrest, hP⟩
  · rintro (hP | ⟨before, y, after, rfl, hP⟩)
    · exact ⟨[], x, xs, rfl, hP⟩
    · exact ⟨x :: before, y, after, rfl, hP⟩

/-- A list that is routed splits as the whole list does. -/
theorem exists_split_filterMap_iff {α β : Type} (f : α → Option β) {P Q : β → Prop}
    {xs : List α} :
    (∃ before y after, xs.filterMap f = before ++ y :: after ∧ P y ∧ ∀ z ∈ after, Q z) ↔
      ∃ before x after, xs = before ++ x :: after ∧ (∃ y, f x = some y ∧ P y) ∧
        ∀ x' ∈ after, ∀ z, f x' = some z → Q z := by
  induction xs with
  | nil => simp
  | cons x xs ih =>
    rw [exists_split_cons_iff (P := fun x after => (∃ y, f x = some y ∧ P y) ∧
      ∀ x' ∈ after, ∀ z, f x' = some z → Q z), ← ih]
    cases hx : f x with
    | none => simp [hx]
    | some y =>
      have hrest : (∀ z ∈ xs.filterMap f, Q z) ↔ ∀ x' ∈ xs, ∀ z, f x' = some z → Q z := by
        simp only [List.mem_filterMap, forall_exists_index, and_imp]
        exact ⟨fun h x' hx' z hz => h z x' hx' hz, fun h z x' hx' hz => h x' hx' z hz⟩
      rw [List.filterMap_cons_some hx,
        exists_split_cons_iff (P := fun y after => P y ∧ ∀ z ∈ after, Q z), hrest]
      simp

/-- A list matches what some positive entry matches and nothing behind it takes out. -/
theorem any_isMatch_compile_iff {sp : Spelling} {entries : List String} {text : String} :
    (compile sp entries).any (·.isMatch text) = true ↔
      ∃ before e after, entries = before ++ e :: after ∧
        (isPositive e = true ∧ Covers sp e.toList text) ∧
        ∀ e' ∈ after, ∀ n, exception? e' = some n → ¬ Covers sp n text := by
  induction entries with
  | nil => simp
  | cons e rest ih =>
    rw [exists_split_cons_iff (P := fun e after => (isPositive e = true ∧ Covers sp e.toList text) ∧
      ∀ e' ∈ after, ∀ n, exception? e' = some n → ¬ Covers sp n text), ← ih, ← spares_iff,
      any_isMatch_compile_cons]

end Glob

namespace SkipPolicy

variable {entries : List String} {c : PathCase} {url entry glob : String}

/-! ## Entries -/

/-- The characters of the marker. -/
abbrev marker : List Char := nodeInternalsMarker.toList

/-- The entry is a glob for modules inside the runtime. -/
def IsMarked (entry : String) : Prop :=
  marker <+: entry.toList ∨ ('!' :: marker) <+: entry.toList

instance (entry : String) : Decidable (IsMarked entry) :=
  inferInstanceAs (Decidable (_ ∨ _))

theorem marker_append_ne_mark (n m : List Char) : marker ++ n ≠ '!' :: m := by
  intro h
  have hhead : some '<' = some '!' := congrArg List.head? h
  exact absurd hhead (by decide)

theorem route_of_marker {n : List Char} (h : entry.toList = marker ++ n) :
    route entry = .inl (String.ofList n) := by
  unfold route
  split
  · next body hbody => exact absurd (h.symm.trans hbody) (marker_append_ne_mark n body)
  · rw [Text.stripPrefix?_eq_some.mpr h]

theorem route_of_mark_marker {n : List Char} (h : entry.toList = '!' :: (marker ++ n)) :
    route entry = .inl (String.ofList ('!' :: n)) := by
  unfold route
  split
  · next body hbody =>
    obtain rfl : body = marker ++ n := (List.cons.inj (hbody.symm.trans h)).2
    rw [Text.stripPrefix?_eq_some.mpr rfl]
  · next hbody => exact absurd h (hbody _)

theorem route_of_not_isMarked (h : ¬ IsMarked entry) : route entry = .inr entry := by
  unfold route
  split
  · next body hbody =>
    split
    · next n hn =>
      rw [Text.stripPrefix?_eq_some.mp hn] at hbody
      exact absurd (Or.inr ⟨n, hbody.symm⟩) h
    · rfl
  · split
    · next n hn => exact absurd (Or.inl ⟨n, (Text.stripPrefix?_eq_some.mp hn).symm⟩) h
    · rfl

/-- Routing takes the marker off and leaves a negation mark where it was. -/
theorem getLeft?_route_eq_some_iff : (route entry).getLeft? = some glob ↔
    entry.toList = marker ++ glob.toList ∨
      ∃ n, entry.toList = '!' :: (marker ++ n) ∧ glob.toList = '!' :: n := by
  have hglob : ∀ n : List Char, String.ofList n = glob ↔ glob.toList = n := fun n =>
    ⟨fun h => h ▸ String.toList_ofList, fun h => h ▸ String.ofList_toList⟩
  by_cases hmarked : IsMarked entry
  · rcases hmarked with ⟨n, hn⟩ | ⟨n, hn⟩
    · rw [route_of_marker hn.symm, ← hn, Sum.getLeft?_inl, Option.some_inj, hglob,
        List.append_cancel_left_eq, eq_comm]
      refine ⟨Or.inl, fun h => h.resolve_right ?_⟩
      rintro ⟨m, hm, -⟩
      exact marker_append_ne_mark n _ hm
    · rw [List.cons_append] at hn
      rw [route_of_mark_marker hn.symm, ← hn, Sum.getLeft?_inl, Option.some_inj, hglob]
      constructor
      · exact fun h => Or.inr ⟨n, rfl, h⟩
      · rintro (h | ⟨m, hm, h⟩)
        · exact absurd h.symm (marker_append_ne_mark _ _)
        · rw [h, List.append_cancel_left (List.cons.inj hm).2]
  · rw [route_of_not_isMarked hmarked]
    refine iff_of_false (by simp) ?_
    rintro (h | ⟨n, h, -⟩)
    · exact hmarked (Or.inl ⟨_, h.symm⟩)
    · exact hmarked (Or.inr ⟨n, h.symm⟩)

theorem getRight?_route_eq_some_iff : (route entry).getRight? = some glob ↔
    ¬ IsMarked entry ∧ entry = glob := by
  by_cases hmarked : IsMarked entry
  · refine iff_of_false ?_ fun h => h.1 hmarked
    rcases hmarked with ⟨n, hn⟩ | ⟨n, hn⟩
    · simp [route_of_marker hn.symm]
    · simp [route_of_mark_marker hn.symm]
  · simp [route_of_not_isMarked hmarked, hmarked]

/-! ## What the entries say -/

/-- Some marked entry matches the name of a module, and no marked negation behind it does.  The mark
of a negation stands before the marker or behind it. -/
def SkipsModule (sp : Spelling) (entries : List String) (name : String) : Prop :=
  ∃ before entry after g, entries = before ++ entry :: after ∧
    entry.toList = marker ++ g ∧ g.head? ≠ some '!' ∧ Covers sp g name ∧
    ∀ later ∈ after, ∀ n, n ≠ [] →
      later.toList = '!' :: (marker ++ n) ∨ later.toList = marker ++ '!' :: n → ¬ Covers sp n name

/-- Some unmarked entry matches a text, and no unmarked negation behind it does. -/
def SkipsText (sp : Spelling) (entries : List String) (text : String) : Prop :=
  ∃ before entry after, entries = before ++ entry :: after ∧ ¬ IsMarked entry ∧
    entry.toList.head? ≠ some '!' ∧ Covers sp entry.toList text ∧
    ∀ later ∈ after, ¬ IsMarked later → ∀ n, n ≠ [] → later.toList = '!' :: n → ¬ Covers sp n text

theorem isPositive_iff : isPositive entry = true ↔ entry.toList.head? ≠ some '!' :=
  bne_iff_ne

/-- What a marked entry puts among the globs for modules. -/
theorem exists_positive_route_iff {P : List Char → Prop} :
    (∃ glob, (route entry).getLeft? = some glob ∧ isPositive glob = true ∧ P glob.toList) ↔
      ∃ g, entry.toList = marker ++ g ∧ g.head? ≠ some '!' ∧ P g := by
  constructor
  · rintro ⟨glob, hroute, hpos, hP⟩
    rw [isPositive_iff] at hpos
    rcases getLeft?_route_eq_some_iff.mp hroute with h | ⟨n, -, h⟩
    · exact ⟨glob.toList, h, hpos, hP⟩
    · rw [h] at hpos
      exact absurd rfl hpos
  · rintro ⟨g, h, hpos, hP⟩
    refine ⟨String.ofList g, ?_, ?_, ?_⟩
    · rw [getLeft?_route_eq_some_iff, String.toList_ofList]
      exact Or.inl h
    · rwa [isPositive_iff, String.toList_ofList]
    · rwa [String.toList_ofList]

/-- What a marked entry takes out of the globs for modules. -/
theorem exists_exception_route_iff {n : List Char} :
    (∃ glob, (route entry).getLeft? = some glob ∧ exception? glob = some n) ↔
      n ≠ [] ∧ (entry.toList = '!' :: (marker ++ n) ∨ entry.toList = marker ++ '!' :: n) := by
  constructor
  · rintro ⟨glob, hroute, hex⟩
    obtain ⟨hglob, hn⟩ := exception?_eq_some.mp hex
    rw [getLeft?_route_eq_some_iff, hglob] at hroute
    rcases hroute with h | ⟨m, h, hm⟩
    · exact ⟨hn, Or.inr h⟩
    · obtain rfl := (List.cons.inj hm).2
      exact ⟨hn, Or.inl h⟩
  · rintro ⟨hn, h⟩
    refine ⟨String.ofList ('!' :: n), ?_, ?_⟩
    · rw [getLeft?_route_eq_some_iff, String.toList_ofList]
      exact h.symm.imp_right fun h => ⟨n, h, rfl⟩
    · rw [exception?_eq_some, String.toList_ofList]
      exact ⟨rfl, hn⟩

theorem any_isMatch_nodeInternalEntries {sp : Spelling} {name : String} :
    (compile sp (nodeInternalEntries entries)).any (·.isMatch name) = true ↔
      SkipsModule sp entries name := by
  rw [any_isMatch_compile_iff, nodeInternalEntries,
    exists_split_filterMap_iff (fun e => (route e).getLeft?)
      (P := fun glob => isPositive glob = true ∧ Covers sp glob.toList name)
      (Q := fun glob => ∀ n, exception? glob = some n → ¬ Covers sp n name)]
  have hlater : ∀ later, (∀ glob, (route later).getLeft? = some glob →
      ∀ n, exception? glob = some n → ¬ Covers sp n name) ↔ ∀ n, n ≠ [] →
        later.toList = '!' :: (marker ++ n) ∨ later.toList = marker ++ '!' :: n →
          ¬ Covers sp n name := by
    intro later
    constructor
    · intro h n hn hform
      obtain ⟨glob, hroute, hex⟩ := exists_exception_route_iff.mpr ⟨hn, hform⟩
      exact h glob hroute n hex
    · intro h glob hroute n hex
      obtain ⟨hn, hform⟩ := exists_exception_route_iff.mp ⟨glob, hroute, hex⟩
      exact h n hn hform
  have hentry : ∀ entry, (∃ glob, (route entry).getLeft? = some glob ∧ isPositive glob = true ∧
      Covers sp glob.toList name) ↔
        ∃ g, entry.toList = marker ++ g ∧ g.head? ≠ some '!' ∧ Covers sp g name := fun entry =>
    exists_positive_route_iff (P := fun g => Covers sp g name)
  simp only [hentry, hlater, SkipsModule]
  constructor
  · rintro ⟨before, e, after, hsplit, ⟨g, hg, hpos, hcov⟩, hafter⟩
    exact ⟨before, e, after, g, hsplit, hg, hpos, hcov, hafter⟩
  · rintro ⟨before, e, after, g, hsplit, hg, hpos, hcov, hafter⟩
    exact ⟨before, e, after, hsplit, ⟨g, hg, hpos, hcov⟩, hafter⟩

theorem any_isMatch_authoredEntries {sp : Spelling} {text : String} :
    (compile sp (authoredEntries entries)).any (·.isMatch text) = true ↔
      SkipsText sp entries text := by
  rw [any_isMatch_compile_iff, authoredEntries,
    exists_split_filterMap_iff (fun e => (route e).getRight?)
      (P := fun glob => isPositive glob = true ∧ Covers sp glob.toList text)
      (Q := fun glob => ∀ n, exception? glob = some n → ¬ Covers sp n text)]
  have hentry : ∀ entry, (∃ glob, (route entry).getRight? = some glob ∧ isPositive glob = true ∧
      Covers sp glob.toList text) ↔
        ¬ IsMarked entry ∧ entry.toList.head? ≠ some '!' ∧ Covers sp entry.toList text := by
    intro entry
    simp only [getRight?_route_eq_some_iff, and_assoc, exists_and_left, exists_eq_left',
      isPositive_iff]
  have hlater : ∀ later, (∀ glob, (route later).getRight? = some glob →
      ∀ n, exception? glob = some n → ¬ Covers sp n text) ↔ (¬ IsMarked later →
        ∀ n, n ≠ [] → later.toList = '!' :: n → ¬ Covers sp n text) := by
    intro later
    simp only [getRight?_route_eq_some_iff, and_imp, exception?_eq_some]
    constructor
    · exact fun h hm n hn hl => h later hm rfl n hl hn
    · rintro h _ hm rfl n hl hn
      exact h hm n hn hl
  simp only [hentry, hlater, SkipsText, and_assoc]

/-! ## Modules inside the runtime -/

/-- The URL names a module inside the runtime: it has the scheme of one, or the shape of one, or it
is one of the names that have been discovered. -/
def NamesModule (builtins : Option (List String)) (url : String) : Prop :=
  nodeScheme.toList <+: url.toList ∨
    (∃ m, url.toList = "internal/".toList ++ m ++ ".js".toList ∧ m ≠ [] ∧ '\n' ∉ m) ∨
    ∃ names, builtins = some names ∧ url ∈ names

theorem matches_literal_iff {cs t r : List Char} :
    (Pattern.literal cs).Matches id t r ↔ t = cs ++ r := by
  induction cs generalizing t with
  | nil => exact eq_comm
  | cons c cs ih =>
    have hcons : (Pattern.literal (c :: cs)).Matches id t r ↔
        ∃ m, (∃ x, t = x :: m ∧ x = c) ∧ (Pattern.literal cs).Matches id m r := Iff.rfl
    rw [hcons]
    constructor
    · rintro ⟨m, ⟨x, rfl, rfl⟩, hrest⟩
      rw [ih.mp hrest, List.cons_append]
    · rintro rfl
      exact ⟨cs ++ r, ⟨c, rfl, rfl⟩, ih.mpr rfl⟩

theorem accepts_internalModule_iff : internalModule.accepts id url.toList = true ↔
    ∃ m, url.toList = "internal/".toList ++ m ++ ".js".toList ∧ m ≠ [] ∧ '\n' ∉ m := by
  have hline : ∀ w : List Char, (∀ x ∈ w, CharClass.inLine.has x = true) ↔ '\n' ∉ w := fun w =>
    ⟨fun h hmem => absurd (h _ hmem) (by decide),
      fun h x hx => bne_iff_ne.mpr fun hx' => h (hx' ▸ hx)⟩
  rw [Pattern.accepts_iff]
  constructor
  · rintro ⟨r, t₁, h₁, t₂, ⟨m, rfl, hne, hm⟩, t₃, h₃, t₄, ⟨rfl, rfl⟩, -⟩
    rw [matches_literal_iff.mp h₁, matches_literal_iff.mp h₃, List.append_nil]
    exact ⟨m, (List.append_assoc _ _ _).symm, hne, (hline m).mp hm⟩
  · rintro ⟨m, hurl, hne, hm⟩
    rw [hurl, List.append_assoc]
    exact ⟨[], _, matches_literal_iff.mpr rfl, _, ⟨m, rfl, hne, (hline m).mpr hm⟩, [],
      matches_literal_iff.mpr (List.append_nil _).symm, [], ⟨rfl, rfl⟩, rfl⟩

theorem mem_insertName_iff {name n : String} {names : List String} :
    n ∈ insertName name names ↔ n = name ∨ n ∈ names := by
  induction names with
  | nil => simp [insertName]
  | cons m names ih =>
    rw [insertName]
    split
    · simp
    next hlt =>
    split
    · simp [ih, or_left_comm]
    next hgt =>
    obtain rfl : name = m := le_antisymm (not_lt.mp hgt) (not_lt.mp hlt)
    simp

theorem mem_foldl_insertName_iff {n : String} {names known : List String} :
    n ∈ names.foldl (fun ns n => insertName n ns) known ↔ n ∈ names ∨ n ∈ known := by
  induction names generalizing known with
  | nil => simp
  | cons m names ih => simp [ih, mem_insertName_iff, or_assoc, or_left_comm]

/-! ## Records -/

namespace Note

/-- What a note says about the URLs of one normal form: a decision, or that there is none. -/
def about? (c : PathCase) (key : String) : Note → Option (Option Bool)
  | .decide url skipped => if normalizeText c url = key then some (some skipped) else none
  | .clear url => if normalizeText c url = key then some none else none
  | .discover _ => none

/-- The names that a note makes known. -/
def names? : Note → Option (List String)
  | .discover names => some names
  | .decide _ _ | .clear _ => none

end Note

/-- What the last one of several notes says that says something. -/
def lastWord? {α : Type} (says? : Note → Option α) (notes : List Note) : Option α :=
  notes.reverse.findSome? says?

/-- The names of the builtin modules, if they are known. -/
def discovered? (notes : List Note) : Option (List String) :=
  lastWord? Note.names? notes

/-- The decision that is recorded for the normal form of a URL. -/
def recorded? (c : PathCase) (url : String) (notes : List Note) : Option Bool :=
  (lastWord? (Note.about? c (normalizeText c url)) notes).join

theorem lastWord?_append_singleton {α : Type} (says? : Note → Option α) (notes : List Note)
    (n : Note) : lastWord? says? (notes ++ [n]) = (says? n).or (lastWord? says? notes) := by
  rw [lastWord?, List.reverse_append, List.reverse_singleton, List.singleton_append,
    List.findSome?_cons]
  cases says? n <;> rfl

/-- A policy after some notes: the globs are what they were, and the rest is what was noted last. -/
structure Reflects (p : SkipPolicy) (notes : List Note) (q : SkipPolicy) : Prop where
  authored : q.authored = p.authored
  nodeInternals : q.nodeInternals = p.nodeInternals
  pathCase : q.pathCase = p.pathCase
  known : q.builtins.isSome = (discovered? notes).isSome
  mem_builtins : ∀ url, q.builtins.any (·.contains url) = true ↔
    ∃ names, discovered? notes = some names ∧ url ∈ names
  overrideFor : ∀ url, q.overrideFor url = recorded? p.pathCase url notes

variable {p q : SkipPolicy} {notes : List Note}

theorem Reflects.decide (h : p.Reflects notes q) (url : String) (skipped : Bool) :
    p.Reflects (notes ++ [.decide url skipped]) (q.setOverride url skipped) where
  authored := h.authored
  nodeInternals := h.nodeInternals
  pathCase := h.pathCase
  known := by
    rw [discovered?, lastWord?_append_singleton]
    exact h.known
  mem_builtins url' := by
    rw [discovered?, lastWord?_append_singleton]
    exact h.mem_builtins url'
  overrideFor url' := by
    rw [overrideFor_setOverride, normalize, normalize, h.pathCase, recorded?,
      lastWord?_append_singleton, Note.about?, h.overrideFor]
    split
    · rfl
    · rfl

theorem Reflects.clear (h : p.Reflects notes q) (url : String) :
    p.Reflects (notes ++ [.clear url]) (q.clearOverride url) where
  authored := h.authored
  nodeInternals := h.nodeInternals
  pathCase := h.pathCase
  known := by
    rw [discovered?, lastWord?_append_singleton]
    exact h.known
  mem_builtins url' := by
    rw [discovered?, lastWord?_append_singleton]
    exact h.mem_builtins url'
  overrideFor url' := by
    have herase : (q.clearOverride url).overrideFor url' =
        if q.normalize url = q.normalize url' then none else q.overrideFor url' :=
      Index.get?_erase _ _ _
    rw [herase, normalize, normalize, h.pathCase, recorded?, lastWord?_append_singleton,
      Note.about?, h.overrideFor]
    split
    · rfl
    · rfl

theorem Reflects.discover (h : p.Reflects notes q) (names : List String) :
    p.Reflects (notes ++ [.discover names]) (q.setBuiltins names) where
  authored := h.authored
  nodeInternals := h.nodeInternals
  pathCase := h.pathCase
  known := by
    rw [discovered?, lastWord?_append_singleton]
    rfl
  mem_builtins url' := by
    rw [discovered?, lastWord?_append_singleton]
    simp [setBuiltins, Note.names?, mem_foldl_insertName_iff]
  overrideFor url' := by
    rw [recorded?, lastWord?_append_singleton]
    exact h.overrideFor url'

/-- Every policy of globs reflects what is noted. -/
theorem reflects_noted (authored : List String) (internals : Option (List String)) (c : PathCase)
    (notes : List Note) : (ofGlobs authored internals c).Reflects notes
      ((ofGlobs authored internals c).noted notes) := by
  induction notes using List.reverseRecOn with
  | nil => exact ⟨rfl, rfl, rfl, rfl, fun _ => by simp [noted, ofGlobs, discovered?, lastWord?],
      fun _ => rfl⟩
  | append_singleton notes n ih =>
    rw [noted, List.foldl_append]
    cases n with
    | decide url skipped => exact ih.decide url skipped
    | clear url => exact ih.clear url
    | discover names => exact ih.discover names

theorem reflects_ofSkipFiles (entries : List String) (c : PathCase) (notes : List Note) :
    (ofSkipFiles entries c).Reflects notes ((ofSkipFiles entries c).noted notes) :=
  reflects_noted _ _ c notes

/-! ## Decisions -/

theorem Reflects.isNodeInternal_iff (h : p.Reflects notes q) :
    q.isNodeInternal url = true ↔ NamesModule (discovered? notes) url := by
  have hscheme : (Text.stripPrefix? nodeScheme.toList url.toList).isSome = true ↔
      nodeScheme.toList <+: url.toList := by
    rw [Option.isSome_iff_exists]
    simp only [Text.stripPrefix?_eq_some]
    exact ⟨fun ⟨r, hr⟩ => ⟨r, hr.symm⟩, fun ⟨r, hr⟩ => ⟨r, hr.symm⟩⟩
  rw [isNodeInternal, Bool.or_eq_true, Bool.or_eq_true, hscheme, accepts_internalModule_iff,
    h.mem_builtins, or_assoc, NamesModule]

theorem testNodeInternal_iff
    (h : (ofSkipFiles entries c).Reflects notes q) : q.testNodeInternal url = true ↔
      (discovered? notes).isSome = true ∧ SkipsModule (.ofCase c) entries (moduleName url) := by
  have hglobs : q.nodeInternals.any (·.isMatch (moduleName url)) =
      (compile (.ofCase c) (nodeInternalEntries entries)).any (·.isMatch (moduleName url)) := by
    rw [h.nodeInternals, ofSkipFiles, ofGlobs]
    cases nodeInternalEntries entries with
    | nil => rfl
    | cons glob globs => rfl
  rw [testNodeInternal, Bool.and_eq_true, h.known, hglobs, any_isMatch_nodeInternalEntries]

/-- The forms of a URL that are compared with globs: the URL and, if it has one, the path. -/
def forms (c : PathCase) (url : String) : List String :=
  (spellings url).map (normalizeText c)

theorem testAuthored_iff (h : (ofSkipFiles entries c).Reflects notes q) :
    q.testAuthored url = true ↔ ∃ form ∈ forms c url, SkipsText (.ofCase c) entries form := by
  have hpath : q.pathCase = c := h.pathCase
  have hglobs : q.authored = .ofList (.ofCase c) (authoredEntries entries) := h.authored
  have hform : ∀ text, (GlobList.ofList (.ofCase c) (authoredEntries entries)).isMatch text = true ↔
      SkipsText (.ofCase c) entries text := fun text => any_isMatch_authoredEntries
  rw [testAuthored, matchesEitherForm, hpath, hglobs, Bool.or_eq_true, hform, forms, spellings]
  cases FileUrl.toPath? url <;> simp [hform]

theorem nodeInternalEntries_filter (entries : List String) :
    nodeInternalEntries (entries.filter (IsMarked ·)) = nodeInternalEntries entries := by
  rw [nodeInternalEntries, List.filterMap_filter, nodeInternalEntries]
  congr 1
  funext e
  by_cases hmarked : IsMarked e
  · simp [hmarked]
  · simp [hmarked, route_of_not_isMarked hmarked]

theorem authoredEntries_filter (entries : List String) :
    authoredEntries (entries.filter (¬ IsMarked ·)) = authoredEntries entries := by
  rw [authoredEntries, List.filterMap_filter, authoredEntries]
  congr 1
  funext e
  by_cases hmarked : IsMarked e
  · have hnone : (route e).getRight? = none :=
      Option.eq_none_iff_forall_ne_some.mpr fun x hx => (getRight?_route_eq_some_iff.mp hx).1 hmarked
    simp [hmarked, hnone]
  · simp [hmarked]

theorem isSkipped_noted_of_namesModule (hmodule : NamesModule (discovered? notes) url) :
    ((ofSkipFiles entries c).noted notes).isSkipped url = true ↔
      (discovered? notes).isSome = true ∧ SkipsModule (.ofCase c) entries (moduleName url) := by
  have h := reflects_ofSkipFiles entries c notes
  rw [isSkipped, if_pos (h.isNodeInternal_iff.mpr hmodule)]
  exact testNodeInternal_iff h

theorem isSkipped_noted_of_not_namesModule (hmodule : ¬ NamesModule (discovered? notes) url) :
    ((ofSkipFiles entries c).noted notes).isSkipped url = true ↔
      recorded? c url notes = some true ∨
        recorded? c url notes = none ∧ ∃ form ∈ forms c url, SkipsText (.ofCase c) entries form := by
  have h := reflects_ofSkipFiles entries c notes
  have hinternal : ((ofSkipFiles entries c).noted notes).isNodeInternal url = false :=
    Bool.eq_false_iff.mpr fun hi => hmodule (h.isNodeInternal_iff.mp hi)
  have hrecord : ((ofSkipFiles entries c).noted notes).overrideFor url = recorded? c url notes :=
    h.overrideFor url
  rw [isSkipped_of_not_internal hinternal, hrecord]
  cases recorded? c url notes with
  | none => simpa using testAuthored_iff h
  | some skipped => simp

/-- **What the entries and the records of a user decide.**  A URL that names a module inside the
runtime is skipped exactly if the builtin modules are known and the marked entries skip its name;
for any other URL the last record for its normal form counts, and if there is none, it is skipped
exactly if the unmarked entries skip one of its forms.  So unmarked entries do not matter to
modules, and marked ones to nothing else. -/
theorem isSkipped_noted (entries : List String) (c : PathCase) (notes : List Note) (url : String) :
    (NamesModule (discovered? notes) url →
      (((ofSkipFiles entries c).noted notes).isSkipped url = true ↔
        (discovered? notes).isSome = true ∧ SkipsModule (.ofCase c) entries (moduleName url)) ∧
      ∀ entries', entries'.filter (IsMarked ·) = entries.filter (IsMarked ·) →
        ((ofSkipFiles entries' c).noted notes).isSkipped url =
          ((ofSkipFiles entries c).noted notes).isSkipped url) ∧
    (¬ NamesModule (discovered? notes) url →
      (∀ skipped, recorded? c url notes = some skipped →
        ((ofSkipFiles entries c).noted notes).isSkipped url = skipped) ∧
      (recorded? c url notes = none →
        (((ofSkipFiles entries c).noted notes).isSkipped url = true ↔
          ∃ form ∈ forms c url, SkipsText (.ofCase c) entries form)) ∧
      ∀ entries', entries'.filter (¬ IsMarked ·) = entries.filter (¬ IsMarked ·) →
        ((ofSkipFiles entries' c).noted notes).isSkipped url =
          ((ofSkipFiles entries c).noted notes).isSkipped url) := by
  refine ⟨fun hmodule => ⟨isSkipped_noted_of_namesModule hmodule, fun entries' hsame => ?_⟩,
    fun hmodule => ⟨fun skipped hrecord => ?_, fun hrecord => ?_, fun entries' hsame => ?_⟩⟩
  · rw [Bool.eq_iff_iff, isSkipped_noted_of_namesModule hmodule,
      isSkipped_noted_of_namesModule hmodule, ← any_isMatch_nodeInternalEntries,
      ← any_isMatch_nodeInternalEntries, ← nodeInternalEntries_filter, hsame,
      nodeInternalEntries_filter]
  · rw [Bool.eq_iff_iff, isSkipped_noted_of_not_namesModule hmodule, hrecord]
    simp
  · rw [isSkipped_noted_of_not_namesModule hmodule, hrecord]
    simp
  · have hforms : ∀ form,
        SkipsText (.ofCase c) entries' form ↔ SkipsText (.ofCase c) entries form := by
      intro form
      rw [← any_isMatch_authoredEntries, ← any_isMatch_authoredEntries, ← authoredEntries_filter,
        hsame, authoredEntries_filter]
    rw [Bool.eq_iff_iff, isSkipped_noted_of_not_namesModule hmodule,
      isSkipped_noted_of_not_namesModule hmodule]
    simp only [hforms]

/-- Marked and unmarked entries among each other, with negations of both kinds. -/
def mixed : List String :=
  ["**/lib/**", "<node_internals>/**", "!**/lib/b.js", "!<node_internals>/fs",
    "<node_internals>/!net", "!"]

/-- A decision that is taken back, one that stays, and the names of three modules. -/
def mixedNotes : List Note :=
  [.decide "file:///lib/a.js" false, .discover ["fs", "net", "path"], .clear "file:///lib/a.js",
    .decide "file:///lib/c.js" true, .decide "file:///lib/c.js" false]

theorem not_namesModule_of_head {names : List String} {x : Char} {rest : List Char}
    (hurl : url.toList = x :: rest) (hscheme : x ≠ 'n') (hshape : x ≠ 'i') (hname : url ∉ names) :
    ¬ NamesModule (some names) url := by
  rintro (⟨r, hr⟩ | ⟨m, hm, -⟩ | ⟨names', hnames, hmem⟩)
  · have hhead : some 'n' = some x := congrArg List.head? (hr.trans hurl)
    exact hscheme (Option.some.inj hhead).symm
  · have hhead : some x = some 'i' := congrArg List.head? (hurl.symm.trans hm)
    exact hshape (Option.some.inj hhead)
  · exact hname (Option.some.inj hnames ▸ hmem)

/-- A module, a file with a record and a file without one. -/
theorem isSkipped_noted_mixed :
    (((ofSkipFiles mixed .sensitive).noted mixedNotes).isSkipped "node:path" = true ↔
      (discovered? mixedNotes).isSome = true ∧ SkipsModule .exact mixed "path") ∧
    ((ofSkipFiles mixed .sensitive).noted mixedNotes).isSkipped "file:///lib/c.js" = false ∧
    (((ofSkipFiles mixed .sensitive).noted mixedNotes).isSkipped "file:///lib/a.js" = true ↔
      ∃ form ∈ forms .sensitive "file:///lib/a.js", SkipsText .exact mixed form) ∧
    ((ofSkipFiles ["**/lib/**", "!**/lib/b.js", "!"] .sensitive).noted mixedNotes).isSkipped
        "file:///lib/a.js" =
      ((ofSkipFiles mixed .sensitive).noted mixedNotes).isSkipped "file:///lib/a.js" := by
  have hmodule : NamesModule (discovered? mixedNotes) "node:path" := Or.inl (by decide)
  have hfile : ∀ url rest, url.toList = 'f' :: rest → url ∉ ["fs", "net", "path"] →
      ¬ NamesModule (discovered? mixedNotes) url := fun url rest hurl hname =>
    not_namesModule_of_head hurl (by decide) (by decide) hname
  have ha := (isSkipped_noted mixed .sensitive mixedNotes "file:///lib/a.js").2
    (hfile _ _ rfl (by decide))
  have hc := (isSkipped_noted mixed .sensitive mixedNotes "file:///lib/c.js").2
    (hfile _ _ rfl (by decide))
  exact ⟨((isSkipped_noted mixed .sensitive mixedNotes "node:path").1 hmodule).1,
    hc.1 false (by cbv), ha.2.1 (by cbv), ha.2.2 _ (by decide)⟩

/-- A negation mark behind the marker negates: `fs` is not skipped, although the first entry matches
it and no entry has a negation mark before the marker. -/
theorem inner_mark_negates :
    NamesModule (discovered? [.discover ["fs"]]) "node:fs" ∧
    (discovered? [.discover ["fs"]]).isSome = true ∧
    (∃ before entry after g, ["<node_internals>/**", "<node_internals>/!fs"] =
        before ++ entry :: after ∧ entry.toList = marker ++ g ∧ g.head? ≠ some '!' ∧
      Covers .exact g (moduleName "node:fs") ∧ ∀ later ∈ after, ∀ n, n ≠ [] →
        later.toList = '!' :: (marker ++ n) → ¬ Covers .exact n (moduleName "node:fs")) ∧
    ((ofSkipFiles ["<node_internals>/**", "<node_internals>/!fs"] .sensitive).noted
      [.discover ["fs"]]).isSkipped "node:fs" = false := by
  have hmodule : NamesModule (discovered? [.discover ["fs"]]) "node:fs" := Or.inl (by decide)
  have hcovers : Covers .exact "**".toList (moduleName "node:fs") :=
    (isMatch_alone .exact "**" (moduleName "node:fs")).mp (by cbv)
  refine ⟨hmodule, rfl, ⟨[], _, _, "**".toList, rfl, rfl, by decide, hcovers, ?_⟩, ?_⟩
  · intro later hlater n _ hn
    rw [List.mem_singleton.mp hlater] at hn
    exact absurd hn (marker_append_ne_mark "!fs".toList (marker ++ n))
  · rw [← Bool.not_eq_true, isSkipped_noted_of_namesModule hmodule]
    rintro ⟨-, before, entry, after, g, hsplit, hentry, hpos, -, hlater⟩
    rcases List.cons_eq_append_iff.mp hsplit with ⟨-, hfirst⟩ | ⟨rest, -, hrest⟩
    · obtain ⟨rfl, rfl⟩ := List.cons.inj hfirst
      exact hlater _ List.mem_cons_self "fs".toList (by decide) (Or.inr rfl) (covers_self "fs")
    · rcases List.cons_eq_append_iff.mp hrest with ⟨-, hsecond⟩ | ⟨rest', -, hnil⟩
      · obtain ⟨rfl, rfl⟩ := List.cons.inj hsecond
        have hg : "!fs".toList = g := (List.append_right_inj marker).mp hentry
        rw [← hg] at hpos
        exact hpos rfl
      · exact absurd hnil (by simp)

end SkipPolicy
end DebugTree
