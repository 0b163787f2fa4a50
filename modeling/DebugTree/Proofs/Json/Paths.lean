import DebugTree.Proofs.Json.Stored

/-!
# Ways into a value

A way into a value goes from container to container, by a name into an object and by a position into
an array (`at?`).  What stands at its end is compared one level at a time (`SameValue`): whatever is
deeper down has a longer way.

The stored form of a value has the same ways as the value, and what stands at their ends are the
stored forms (`at?_canonical`), although it has lost the members whose names come again later.
-/

namespace DebugTree
namespace Json

/-- From a container to something in it. -/
inductive Step where
  | member (name : String)
  | item (position : Nat)
  deriving DecidableEq

/-- What stands at the end of a way into a value. -/
def at? : List Step → Json → Option Json
  | [], v => some v
  | .member name :: rest, v => (v.get? name).bind (at? rest)
  | .item i :: rest, .array items => items[i]?.bind (at? rest)
  | .item _ :: _, _ => none

/-- Two values are the same, or containers of one kind, with as many items if they are arrays. -/
def SameValue : Json → Json → Prop
  | .object _, .object _ => True
  | .array items, .array items' => items.length = items'.length
  | v, w => v = w

theorem SameValue.refl (v : Json) : v.SameValue v := by
  cases v <;> simp [SameValue]

theorem sameValue_canonical (v : Json) : v.SameValue v.canonical := by
  cases v with
  | array items => rw [canonical_array, SameValue, List.length_map]
  | object members => rw [canonical_object]; trivial
  | _ => rfl

variable {name : String} {members : List (String × Json)}

/-! ## Members by name -/

/-- Where no name comes twice, the last member of a name is the only one. -/
theorem get?_object_of_nodup (hnd : (members.map (·.1)).Nodup) :
    (object members).get? name = Index.find? name members := by
  rw [get?]
  cases hlast : members.reverse.find? (fun m => m.1 == name) with
  | none =>
    refine (Index.find?_eq_none_iff.mpr fun hmem => ?_).symm
    obtain ⟨m, hm, rfl⟩ := List.mem_map.mp hmem
    simpa using List.find?_eq_none.mp hlast m (List.mem_reverse.mpr hm)
  | some m =>
    have hm := List.mem_reverse.mp (List.mem_of_find?_eq_some hlast)
    obtain rfl : m.1 = name := by simpa using List.find?_some hlast
    exact (Index.find?_of_mem hnd hm).symm

/-- The member of a name that comes last is the one that is kept. -/
theorem find?_entries_ofList (es : List (String × Json)) (name : String) :
    Index.find? name (Index.ofList es).entries = (object es).get? name := by
  have hlist : ∀ (es : List (String × Json)) (ix : Index String Json),
      (es.foldl (fun ix e => ix.insert e.1 e.2) ix).get? name =
        ((object es).get? name).or (ix.get? name) := by
    intro es
    induction es with
    | nil => intro ix; rfl
    | cons e rest ih =>
      intro ix
      rw [List.foldl_cons, ih, Index.get?_insert]
      simp only [get?, List.reverse_cons, List.find?_append]
      by_cases he : e.1 = name
      · cases rest.reverse.find? fun m => m.1 == name <;> simp [he]
      · cases rest.reverse.find? fun m => m.1 == name <;> simp [he]
  exact (hlist es .empty).trans (Option.or_none)

theorem get?_canonicalMembers (members : List (String × Json)) (name : String) :
    (object (canonicalMembers members)).get? name =
      ((object members).get? name).map canonical := by
  rw [canonicalMembers_eq_map]
  simp only [get?, ← List.map_reverse, List.find?_map, Option.map_map, Function.comp_def]

/-- Those that are carried along are the unknown members, in their stored form. -/
theorem get?_others {depth : Nat} {known : List String} {others : Index String Json}
    (h : others? depth known members = some others) (name : String) :
    (object others.entries).get? name =
      if name ∈ known then none else ((object members).get? name).map canonical := by
  have hnd := (areOthers_of_others? h).nodup
  rw [others?] at h
  split at h
  · cases h
    rw [get?_object_of_nodup hnd, find?_entries_ofList, get?_canonicalMembers]
    by_cases hname : name ∈ known
    · rw [if_pos hname, Option.map_eq_none_iff, get?, Option.map_eq_none_iff, List.find?_eq_none]
      intro m hm heq
      obtain rfl : m.1 = name := by simpa using heq
      have hunknown := (List.mem_filter.mp (List.mem_reverse.mp hm)).2
      simp [hname] at hunknown
    · have hsame : (object (members.filter fun m => !known.contains m.1)).get? name =
          (object members).get? name := by
        rw [get?, get?, ← List.filter_reverse, List.find?_filter]
        congr 2
        funext m
        by_cases hm : m.1 = name
        · simp [hm, hname]
        · simp [hm]
      rw [if_neg hname, hsame]
  · cases h

theorem get?_canonical (v : Json) (name : String) :
    v.canonical.get? name = (v.get? name).map canonical := by
  cases v with
  | object members =>
    rw [canonical, get?_object_of_nodup (Index.nodup_keys_ofList _), find?_entries_ofList,
      get?_canonicalMembers]
  | array items => rw [canonical_array]; rfl
  | _ => rfl

/-- The stored form has the same ways. -/
theorem at?_canonical (path : List Step) (v : Json) :
    v.canonical.at? path = (v.at? path).map canonical := by
  induction path generalizing v with
  | nil => rfl
  | cons step rest ih =>
    cases step with
    | member name =>
      rw [at?, at?, get?_canonical]
      cases v.get? name with
      | none => rfl
      | some a => exact ih a
    | item i =>
      cases v with
      | array items =>
        rw [canonical_array, at?, at?, List.getElem?_map]
        cases items[i]? with
        | none => rfl
        | some a => exact ih a
      | object members => rw [canonical_object]; rfl
      | _ => rfl

end Json
end DebugTree
