import DebugTree.Policy.Blackbox
import DebugTree.Proofs.Pattern.Source
import DebugTree.Proofs.Policy.Routing

/-!
# Builtin modules on both sides

A builtin module is stepped over for two reasons.  The runtime does so if the name is pushed to it
as a pattern, and the stepping engine does so if the policy says that the URL is skipped.  Both
answers come from the same globs, which are asked about different texts: a name is pushed if the
globs match it as it was discovered, and a URL is skipped if they match it without its scheme.

For a name without the scheme these are the same text, and both sides agree.  A runtime also lists
names that carry the scheme already, and for those `pushed_as_decided_iff` says when the sides
agree.  There are two ways to disagree, and both are possible (`scheme_divides_sides`).

The argument needs that no two names have the same pattern.  That is read off the reader of regular
expressions: patterns with the same text are read as the same expression (`pieces_eq_of_source_eq`).
-/

namespace DebugTree

/-! ## Patterns with the same text -/

namespace Pattern

theorem sequence_injective : Function.Injective Regex.sequence := by
  intro ps qs h
  induction ps generalizing qs with
  | nil =>
    cases qs with
    | nil => rfl
    | cons q qs => exact absurd h nofun
  | cons p ps ih =>
    cases qs with
    | nil => exact absurd h nofun
    | cons q qs =>
      obtain ⟨rfl, hrest⟩ := Regex.seq.inj h
      rw [ih hrest]

/-- **Patterns with the same text are built of the same pieces.** -/
theorem pieces_eq_of_source_eq {p q : Pattern} (hp : p.Writable) (hq : q.Writable)
    (h : p.source = q.source) : pieces p = pieces q := by
  have hread : some p.regex = some q.regex := by
    rw [← read?_source hp, h, read?_source hq]
  exact sequence_injective (Regex.seq.inj (Option.some.inj hread)).2

theorem writable_literal (cs : List Char) : (literal cs).Writable := by
  induction cs with
  | nil => trivial
  | cons c cs ih => exact ⟨trivial, ih⟩

theorem pieces_literal (cs : List Char) : pieces (literal cs) = cs.map .char := by
  induction cs with
  | nil => rfl
  | cons c cs ih =>
    have hcons : pieces (literal (c :: cs)) = .char c :: pieces (literal cs) := rfl
    rw [hcons, ih, List.map_cons]

/-- The pattern that matches a text and nothing else. -/
def exactly (cs : List Char) : Pattern :=
  .seq (literal cs) .finish

theorem writable_exactly (cs : List Char) : (exactly cs).Writable :=
  ⟨writable_literal cs, trivial⟩

theorem pieces_exactly (cs : List Char) : pieces (exactly cs) = cs.map .char ++ [.finish] := by
  rw [exactly, pieces, pieces_literal, pieces]

theorem source_exactly (cs : List Char) :
    (exactly cs).source = '^' :: (escapeAll cs ++ ['$']) := by
  rw [source, exactly, body_seq, body_literal, body]

theorem source_exactly_injective : Function.Injective fun cs => (exactly cs).source := by
  intro cs ds h
  have hpieces := pieces_eq_of_source_eq (writable_exactly cs) (writable_exactly ds) h
  rw [pieces_exactly, pieces_exactly, List.append_cancel_right_eq] at hpieces
  exact List.map_injective_iff.mpr (fun _ _ => Regex.char.inj) hpieces

end Pattern

namespace SkipPolicy

open Pattern (exactly)

variable {p : SkipPolicy} {names : List String} {n : String}

/-! ## Both sides -/

/-- The text of the pattern for one name. -/
def nameSource (n : String) : String :=
  String.ofList ('^' :: (Pattern.escapeAll n.toList ++ ['$']))

/-- What is pushed after the patterns of the authored globs. -/
def internalSources (p : SkipPolicy) : List String :=
  p.blackboxSources.drop p.authored.compiled.length

/-- The globs for runtime modules match a text. -/
def internalsMatch (p : SkipPolicy) (text : String) : Bool :=
  p.nodeInternals.any (·.isMatch text)

theorem nameSource_eq (n : String) : nameSource n = String.ofList (exactly n.toList).source := by
  rw [nameSource, Pattern.source_exactly]

theorem nameSource_injective : Function.Injective nameSource := by
  intro n m h
  rw [nameSource_eq, nameSource_eq, String.ofList_inj] at h
  exact String.toList_inj.mp (Pattern.source_exactly_injective h)

theorem writable_internalModule : internalModule.Writable :=
  ⟨Pattern.writable_literal _, trivial, Pattern.writable_literal _, trivial, trivial⟩

/-- The shape of unnamed modules is the pattern of no name. -/
theorem nameSource_ne_internalModule (n : String) :
    nameSource n ≠ String.ofList internalModule.source := by
  intro h
  rw [nameSource_eq, String.ofList_inj] at h
  have hpieces := Pattern.pieces_eq_of_source_eq (Pattern.writable_exactly _)
    writable_internalModule h
  have hplus : Regex.plus .dot ∈ (exactly n.toList).pieces := by
    rw [hpieces]
    decide
  rw [Pattern.pieces_exactly] at hplus
  simp at hplus

theorem mem_sources_builtinPatterns_iff {m : String} :
    nameSource n ∈ (builtinPatterns m).map (fun q => String.ofList q.source) ↔
      n = m ∨ n = nodeScheme ++ m := by
  have hplain : String.ofList (exactly m.toList).source = nameSource m := (nameSource_eq m).symm
  have hscheme : String.ofList (exactly (nodeScheme.toList ++ m.toList)).source =
      nameSource (nodeScheme ++ m) := by
    rw [nameSource_eq, String.toList_append]
  have hpair : (builtinPatterns m).map (fun q => String.ofList q.source) =
      [nameSource m, nameSource (nodeScheme ++ m)] := by
    rw [← hplain, ← hscheme]
    rfl
  rw [hpair, List.mem_pair, nameSource_injective.eq_iff, nameSource_injective.eq_iff]

/-- A list without globs matches nothing. -/
theorem isMatch_of_isEmpty {l : GlobList} (h : l.Sound) (hempty : l.isEmpty = true)
    (text : String) : l.isMatch text = false := by
  rw [GlobList.isMatch, h.compiled_eq, List.isEmpty_iff.mp hempty]
  rfl

theorem internalSources_eq (hknown : p.builtins = some names) :
    p.internalSources = (p.nodeInternals.toList.filter (!·.isEmpty)).flatMap fun globs =>
      (internalPatterns globs names).map fun q => String.ofList q.source := by
  rw [internalSources, blackboxSources, blackbox, List.map_append,
    List.drop_left' (by rw [List.length_map, List.length_map]), hknown]
  cases p.nodeInternals with
  | none => rfl
  | some globs => cases hempty : globs.isEmpty <;> simp [hempty]

/-- **What is pushed.**  The pattern of a name is pushed exactly if the globs match the name of some
builtin that it spells, with the scheme or without. -/
theorem mem_internalSources_iff (h : p.Lawful) (hknown : p.builtins = some names) :
    nameSource n ∈ p.internalSources ↔
      ∃ m ∈ names, p.internalsMatch m = true ∧ (n = m ∨ n = nodeScheme ++ m) := by
  rw [internalSources_eq hknown]
  unfold internalsMatch
  cases hglobs : p.nodeInternals with
  | none => simp
  | some globs =>
    cases hempty : globs.isEmpty with
    | true => simp [hempty, isMatch_of_isEmpty (h.internals globs hglobs).1 hempty]
    | false =>
      have hmem : nameSource n ∈ (internalPatterns globs names).map
          (fun q => String.ofList q.source) ↔
            ∃ m ∈ names, globs.isMatch m = true ∧ (n = m ∨ n = nodeScheme ++ m) := by
        rw [internalPatterns, List.map_cons, List.mem_cons,
          or_iff_right (nameSource_ne_internalModule n), List.map_flatMap, List.mem_flatMap]
        simp only [mem_sources_builtinPatterns_iff, List.mem_filter, and_assoc]
      simpa [hempty] using hmem

/-- **What is decided.**  A builtin is skipped exactly if the globs match its name without the
scheme. -/
theorem isSkipped_of_mem_builtins (hknown : p.builtins = some names) (hn : n ∈ names) :
    p.isSkipped n = p.internalsMatch (moduleName n) := by
  have hint : p.isNodeInternal n = true := by
    rw [isNodeInternal, hknown]
    simp [hn]
  rw [isSkipped, if_pos hint, testNodeInternal, hknown]
  exact Bool.true_and _

/-! ## Names under the scheme -/

theorem moduleName_append (m : String) : moduleName (nodeScheme ++ m) = m := by
  have hstrip : Text.stripPrefix? nodeScheme.toList (nodeScheme ++ m).toList = some m.toList :=
    Text.stripPrefix?_eq_some.mpr String.toList_append
  rw [moduleName, hstrip]
  exact String.ofList_toList

theorem moduleName_of_plain (hplain : ¬ nodeScheme.toList <+: n.toList) : moduleName n = n := by
  cases hstrip : Text.stripPrefix? nodeScheme.toList n.toList with
  | none => rw [moduleName, hstrip]
  | some rest => exact absurd ⟨rest, (Text.stripPrefix?_eq_some.mp hstrip).symm⟩ hplain

/-- A name without the scheme is discovered and tested as the same text. -/
theorem pushed_iff_isSkipped_of_plain (h : p.Lawful) (hknown : p.builtins = some names)
    (hn : n ∈ names) (hplain : ¬ nodeScheme.toList <+: n.toList) :
    nameSource n ∈ p.internalSources ↔ p.isSkipped n = true := by
  rw [mem_internalSources_iff h hknown, isSkipped_of_mem_builtins hknown hn,
    moduleName_of_plain hplain]
  constructor
  · rintro ⟨m, -, hmatch, rfl | rfl⟩
    · exact hmatch
    · exact absurd ⟨m.toList, String.toList_append.symm⟩ hplain
  · exact fun hmatch => ⟨n, hn, hmatch, Or.inl rfl⟩

/-- A name under the scheme is pushed for its own sake, or because the builtin of the same name
without the scheme is. -/
theorem mem_internalSources_scheme_iff (h : p.Lawful) (hknown : p.builtins = some names)
    {m : String} (hn : nodeScheme ++ m ∈ names) :
    nameSource (nodeScheme ++ m) ∈ p.internalSources ↔
      p.internalsMatch (nodeScheme ++ m) = true ∨ m ∈ names ∧ p.internalsMatch m = true := by
  rw [mem_internalSources_iff h hknown]
  constructor
  · rintro ⟨m', hm', hmatch, rfl | heq⟩
    · exact Or.inl hmatch
    · obtain rfl : m = m' := by
        rw [← moduleName_append m, heq, moduleName_append]
      exact Or.inr ⟨hm', hmatch⟩
  · rintro (hmatch | ⟨hm, hmatch⟩)
    · exact ⟨_, hn, hmatch, Or.inl rfl⟩
    · exact ⟨m, hm, hmatch, Or.inr rfl⟩

/-- **When the two sides agree on a builtin.**  On a name without the scheme they always do.  On any
name they do exactly if the globs never match it for its scheme alone, and where they match it
without the scheme, they match it as it stands as well, or the same name without the scheme is
another builtin. -/
theorem pushed_as_decided_iff (h : p.Lawful) (hknown : p.builtins = some names) (hn : n ∈ names) :
    (¬ nodeScheme.toList <+: n.toList →
      (nameSource n ∈ p.internalSources ↔ p.isSkipped n = true)) ∧
    ((nameSource n ∈ p.internalSources ↔ p.isSkipped n = true) ↔
      (p.internalsMatch n = true → p.internalsMatch (moduleName n) = true) ∧
      (p.internalsMatch (moduleName n) = true →
        p.internalsMatch n = true ∨ moduleName n ∈ names)) := by
  refine ⟨pushed_iff_isSkipped_of_plain h hknown hn, ?_⟩
  by_cases hscheme : nodeScheme.toList <+: n.toList
  · obtain ⟨rest, hrest⟩ := hscheme
    obtain rfl : n = nodeScheme ++ String.ofList rest := by
      rw [← String.toList_inj, String.toList_append, String.toList_ofList, hrest]
    rw [mem_internalSources_scheme_iff h hknown hn, isSkipped_of_mem_builtins hknown hn,
      moduleName_append]
    constructor
    · intro hagree
      exact ⟨fun hmatch => hagree.mp (Or.inl hmatch),
        fun hmatch => (hagree.mpr hmatch).imp_right And.left⟩
    · rintro ⟨hscheme, hbare⟩
      refine ⟨?_, fun hmatch => (hbare hmatch).imp_right fun hlisted => ⟨hlisted, hmatch⟩⟩
      rintro (hmatch | ⟨-, hmatch⟩)
      · exact hscheme hmatch
      · exact hmatch
  · rw [moduleName_of_plain hscheme]
    exact iff_of_true (pushed_iff_isSkipped_of_plain h hknown hn hscheme) ⟨id, Or.inl⟩

/-- The two sides agree on `node:fs`, as it is pushed for the sake of `fs`. -/
theorem pushed_as_decided_iff_both_listed :
    let p := (ofGlobs [] (some ["fs"]) .sensitive).setBuiltins ["node:fs", "fs"]
    p.builtins = some ["fs", "node:fs"] ∧ "node:fs" ∈ ["fs", "node:fs"] ∧
      ((¬ nodeScheme.toList <+: "node:fs".toList →
        (nameSource "node:fs" ∈ p.internalSources ↔ p.isSkipped "node:fs" = true)) ∧
      ((nameSource "node:fs" ∈ p.internalSources ↔ p.isSkipped "node:fs" = true) ↔
        (p.internalsMatch "node:fs" = true → p.internalsMatch (moduleName "node:fs") = true) ∧
        (p.internalsMatch (moduleName "node:fs") = true →
          p.internalsMatch "node:fs" = true ∨ moduleName "node:fs" ∈ ["fs", "node:fs"]))) ∧
      p.isSkipped "node:fs" = true :=
  ⟨by decide +kernel, by decide,
    pushed_as_decided_iff ((lawful_ofGlobs [] (some ["fs"]) .sensitive).setBuiltins _)
      (by decide +kernel) (by decide),
    by decide +kernel⟩

/-- **The sides do not always agree.**  A glob for `test` skips the builtin `node:test`, and nothing
is pushed for it.  A glob for all names under the scheme has it pushed, and it is not skipped. -/
theorem scheme_divides_sides :
    let p := (ofGlobs [] (some ["test"]) .sensitive).setBuiltins ["node:test"]
    let q := (ofGlobs [] (some ["node:*"]) .sensitive).setBuiltins ["node:test"]
    (p.Lawful ∧ p.builtins = some ["node:test"] ∧
      p.isSkipped "node:test" = true ∧ nameSource "node:test" ∉ p.internalSources) ∧
    (q.Lawful ∧ q.builtins = some ["node:test"] ∧
      q.isSkipped "node:test" = false ∧ nameSource "node:test" ∈ q.internalSources) :=
  ⟨⟨(lawful_ofGlobs _ _ _).setBuiltins _, by decide +kernel, by decide +kernel, by decide +kernel⟩,
    ⟨(lawful_ofGlobs _ _ _).setBuiltins _, by decide +kernel, by decide +kernel, by decide +kernel⟩⟩

end SkipPolicy
end DebugTree
