import DebugTree.FileUrl

/-!
# The shape of the path of a file URL

A path that a file URL names begins with a slash and has no backslash.  The slash is put there by
the walk over the segments, and decoding does not touch it: it is no percent sign, and it is one
octet.  A decoded backslash is turned into a slash at the end, so none is left.

A path is therefore never empty and never looks like a negation, whatever the URL was.

The URL in turn does not begin with a slash of either kind, as it begins with a scheme, or with
blanks before it.  So a URL and its path never begin alike.
-/

namespace DebugTree
namespace FileUrl

theorem exists_walk_path (start cs : List Char) : ∃ rest, (walk start cs).path = '/' :: rest :=
  ⟨_, rfl⟩

theorem exists_of_pathAfterHost? {cs raw : List Char} (h : pathAfterHost? cs = some raw) :
    ∃ rest, raw = '/' :: rest := by
  unfold pathAfterHost? at h
  simp only at h
  split at h
  · exact Option.some.inj h ▸ exists_walk_path _ _
  · split at h
    · exact absurd h (by simp)
    · exact Option.some.inj h ▸ exists_walk_path _ _
    · rw [Option.ite_none_right_eq_some] at h
      exact Option.some.inj h.2 ▸ exists_walk_path _ _

theorem exists_of_rawPath? {cs raw : List Char} (h : rawPath? cs = some raw) :
    ∃ rest, raw = '/' :: rest := by
  unfold rawPath? at h
  split at h
  · split at h
    · exact exists_of_pathAfterHost? h
    · split at h <;> exact Option.some.inj h ▸ exists_walk_path _ _
  · split at h <;> exact Option.some.inj h ▸ exists_walk_path _ _
  · exact Option.some.inj h ▸ exists_walk_path _ _

theorem percentDecode_slash (rest : List Char) :
    percentDecode ('/' :: rest) = 0x2F :: percentDecode rest := by
  rw [percentDecode]
  · rfl
  · rintro a b cs ⟨⟩

theorem exists_closeDrive (bytes : List UInt8) : ∃ more, closeDrive bytes = bytes ++ more := by
  unfold closeDrive
  split
  · split
    · exact ⟨_, rfl⟩
    · exact ⟨[], (List.append_nil bytes).symm⟩
  · exact ⟨[], (List.append_nil bytes).symm⟩

theorem decodeLossy_slash (bytes : List UInt8) :
    Text.Utf8.decodeLossy (0x2F :: bytes) = '/' :: Text.Utf8.decodeLossy bytes := by
  rw [Text.Utf8.decodeLossy, Text.Utf8.decode]
  rfl

theorem replaceChar_ne {old new : Char} (h : new ≠ old) (cs : List Char) :
    old ∉ Text.replaceChar old new cs := by
  intro hmem
  obtain ⟨c, -, hc⟩ := List.mem_map.mp hmem
  split at hc
  · exact h hc
  · next hne => exact hne hc

theorem replaceChar_of_notMem {old new : Char} {cs : List Char} (h : old ∉ cs) :
    Text.replaceChar old new cs = cs := by
  induction cs with
  | nil => rfl
  | cons c cs ih =>
    rw [List.mem_cons, not_or] at h
    rw [Text.replaceChar, List.map_cons, if_neg (Ne.symm h.1)]
    exact congrArg (c :: ·) (ih h.2)

/-- **A path begins with a slash and has no backslash.** -/
theorem toPath?_shape {url path : String} (h : toPath? url = some path) :
    (∃ rest, path.toList = '/' :: rest) ∧ '\\' ∉ path.toList := by
  unfold toPath? at h
  simp only [Option.bind_eq_bind, Option.bind_eq_some_iff, Option.some.injEq] at h
  obtain ⟨after, -, raw, hraw, rfl⟩ := h
  obtain ⟨rest, rfl⟩ := exists_of_rawPath? hraw
  obtain ⟨more, hmore⟩ := exists_closeDrive (percentDecode ('/' :: rest))
  rw [String.toList_ofList]
  refine ⟨?_, replaceChar_ne (by decide) _⟩
  rw [hmore, percentDecode_slash, List.cons_append, decodeLossy_slash]
  exact ⟨_, rfl⟩

/-! ## The front of the URL -/

theorem exists_trimWhere_cons {drop : Char → Bool} {c : Char} (h : drop c = false)
    (cs : List Char) : ∃ rest, Text.trimWhere drop (c :: cs) = c :: rest := by
  have hfront : (c :: cs).dropWhile drop = c :: cs := List.dropWhile_cons_of_neg (by simp [h])
  have hback : [c].dropWhile drop = [c] := List.dropWhile_cons_of_neg (by simp [h])
  rw [Text.trimWhere, hfront, List.reverse_cons, List.dropWhile_append, hback]
  split
  · exact ⟨[], rfl⟩
  · exact ⟨_, by rw [List.reverse_append, List.reverse_singleton, List.singleton_append]⟩

theorem eq_or_eq_of_isSlash {c : Char} (h : isSlash c = true) : c = '/' ∨ c = '\\' := by
  simpa [isSlash] using h

/-- Nothing is taken from the front of a text that begins with a slash. -/
theorem exists_significant_cons {c : Char} (h : isSlash c = true) (cs : List Char) :
    ∃ rest, significant (c :: cs) = c :: rest := by
  have hkept : decide (c.toNat ≤ 0x20) = false ∧
      (!(c == '\t' || c == '\n' || c == '\r')) = true := by
    rcases eq_or_eq_of_isSlash h with rfl | rfl <;> decide
  obtain ⟨rest, hrest⟩ : ∃ rest, Text.trimWhere (fun c => c.toNat ≤ 0x20) (c :: cs) = c :: rest :=
    exists_trimWhere_cons hkept.1 cs
  rw [significant, hrest]
  exact ⟨_, List.filter_cons_of_pos hkept.2⟩

/-- **No text that begins with a slash of either kind is a URL that names a path.** -/
theorem isSlash_eq_false_of_toPath? {url path : String} {c : Char} {cs : List Char}
    (h : toPath? url = some path) (hurl : url.toList = c :: cs) : isSlash c = false := by
  rw [Bool.eq_false_iff]
  intro hslash
  obtain ⟨rest, hrest⟩ := exists_significant_cons hslash cs
  have hscheme : ¬ inScheme c = true ∧ c ≠ ':' := by
    rcases eq_or_eq_of_isSlash hslash with rfl | rfl <;> decide
  unfold toPath? at h
  simp only [Option.bind_eq_bind, Option.bind_eq_some_iff] at h
  obtain ⟨after, hafter, -⟩ := h
  rw [hurl, hrest, afterScheme?, List.dropWhile_cons_of_neg hscheme.1] at hafter
  split at hafter
  · next heq => exact hscheme.2 (List.cons.inj heq).1
  · exact absurd hafter (by simp)

/-- A path is no URL, and has no path of its own. -/
theorem toPath?_path {url path : String} (h : toPath? url = some path) : toPath? path = none := by
  obtain ⟨⟨rest, hrest⟩, -⟩ := toPath?_shape h
  rw [Option.eq_none_iff_forall_ne_some]
  intro deeper hdeeper
  have hslash := isSlash_eq_false_of_toPath? hdeeper hrest
  exact absurd hslash (by decide)

end FileUrl
end DebugTree
