import DebugTree.Json.Member
import DebugTree.Proofs.Index

/-!
# Stored values

A value that is kept, rather than looked at once, is *stored*: it has a meaning throughout, and
every object in it has each name once (`IsStored`).  What a reader keeps of a text is the stored
form of what it found (`isStored_canonical`), and the stored form of a stored value is that value
again.

Most records keep nothing but their own fields.  Some carry along the members they do not know;
`AreOthers` says what such members are like, and members that are like this are read from among the
known ones without any change (`others?_append`).
-/

namespace DebugTree
namespace Json

/-- Induction over values: a property of all items is inherited by the array, one of the values of
all members by the object. -/
@[elab_as_elim]
theorem induction {P : Json → Prop} (null : P .null) (bool : ∀ b, P (.bool b))
    (number : ∀ n, P (.number n)) (string : ∀ s, P (.string s))
    (array : ∀ items, (∀ j ∈ items, P j) → P (.array items))
    (object : ∀ members, (∀ m ∈ members, P m.2) → P (.object members))
    (unrepresentable : P .unrepresentable) (j : Json) : P j :=
  Json.rec (motive_1 := P) (motive_2 := fun items => ∀ j ∈ items, P j)
    (motive_3 := fun members => ∀ m ∈ members, P m.2) (motive_4 := fun m => P m.2)
    null bool number string array object unrepresentable
    (List.forall_mem_nil _) (fun _ _ hj hrest => List.forall_mem_cons.mpr ⟨hj, hrest⟩)
    (List.forall_mem_nil _) (fun _ _ hm hrest => List.forall_mem_cons.mpr ⟨hm, hrest⟩)
    (fun _ _ hj => hj) j

variable {depth depth' : Nat} {items : List Json} {members : List (String × Json)} {j : Json}

/-! ## Nesting -/

theorem allStorable_iff :
    allStorable depth items = true ↔ ∀ j ∈ items, j.storable depth = true := by
  induction items with
  | nil => simp [allStorable]
  | cons j rest ih => simp [allStorable, ih]

theorem storable_array_iff : (array items).storable depth = true ↔
    depth ≠ 0 ∧ ∀ j ∈ items, j.storable (depth - 1) = true := by
  simp [storable, allStorable_iff]

theorem membersStorable_iff :
    membersStorable depth members = true ↔ ∀ m ∈ members, m.2.storable depth = true := by
  induction members with
  | nil => simp [membersStorable]
  | cons m rest ih => simp [membersStorable, ih]

theorem storable_object_iff : (object members).storable depth = true ↔
    depth ≠ 0 ∧ ∀ m ∈ members, m.2.storable (depth - 1) = true := by
  simp [storable, membersStorable_iff]

/-- More room does no harm. -/
theorem storable_mono (hle : depth ≤ depth') (h : j.storable depth = true) :
    j.storable depth' = true := by
  induction j using induction generalizing depth depth' with
  | array items ih =>
    rw [storable_array_iff] at h ⊢
    exact ⟨by omega, fun j hj => ih j hj (by omega) (h.2 j hj)⟩
  | object members ih =>
    rw [storable_object_iff] at h ⊢
    exact ⟨by omega, fun m hm => ih m hm (by omega) (h.2 m hm)⟩
  | unrepresentable => exact absurd h (by simp [storable])
  | _ => rfl

/-- Finitely many values have room together if each of them has room somewhere. -/
theorem exists_depth {α : Type} {as : List α} {value : α → Json}
    (h : ∀ a ∈ as, ∃ depth, (value a).storable depth = true) :
    ∃ depth, ∀ a ∈ as, (value a).storable depth = true := by
  induction as with
  | nil => exact ⟨0, List.forall_mem_nil _⟩
  | cons a rest ih =>
    obtain ⟨here, hhere⟩ := h a List.mem_cons_self
    obtain ⟨there, hthere⟩ := ih fun a ha => h a (List.mem_cons_of_mem _ ha)
    exact ⟨max here there, List.forall_mem_cons.mpr ⟨storable_mono (Nat.le_max_left _ _) hhere,
      fun a ha => storable_mono (Nat.le_max_right _ _) (hthere a ha)⟩⟩

/-! ## The stored form -/

theorem canonicalMembers_eq_map (members : List (String × Json)) :
    canonicalMembers members = members.map fun m => (m.1, m.2.canonical) := by
  induction members with
  | nil => rfl
  | cons m rest ih => rw [canonicalMembers, ih, List.map_cons]

/-- Members whose values are stored stay as they are. -/
theorem canonicalMembers_of_canonical (h : ∀ m ∈ members, m.2.canonical = m.2) :
    canonicalMembers members = members := by
  have hkept : ∀ m ∈ members, (m.1, m.2.canonical) = id m := fun m hm => Prod.ext rfl (h m hm)
  rw [canonicalMembers_eq_map, List.map_congr_left hkept, List.map_id]

theorem canonical_array (items : List Json) :
    (array items).canonical = .array (items.map canonical) := by
  have hmap : ∀ items, canonicalItems items = items.map canonical := by
    intro items
    induction items with
    | nil => rfl
    | cons j rest ih => rw [canonicalItems, ih, List.map_cons]
  rw [canonical, hmap]

theorem canonical_object (members : List (String × Json)) : (object members).canonical =
    .object (Index.ofList (members.map fun m => (m.1, m.2.canonical))).entries := by
  rw [canonical, canonicalMembers_eq_map]

/-- A member of a stored object is the stored form of a member. -/
theorem exists_of_mem_stored {e : String × Json}
    (h : e ∈ (Index.ofList (members.map fun m => (m.1, m.2.canonical))).entries) :
    ∃ m ∈ members, (m.1, m.2.canonical) = e :=
  List.mem_map.mp (Index.mem_of_mem_entries_ofList h)

theorem storable_canonical (h : j.storable depth = true) : j.canonical.storable depth = true := by
  induction j using induction generalizing depth with
  | array items ih =>
    rw [storable_array_iff] at h
    rw [canonical_array, storable_array_iff]
    exact ⟨h.1, List.forall_mem_map.mpr fun j hj => ih j hj (h.2 j hj)⟩
  | object members ih =>
    rw [storable_object_iff] at h
    rw [canonical_object, storable_object_iff]
    refine ⟨h.1, fun e he => ?_⟩
    obtain ⟨m, hm, rfl⟩ := exists_of_mem_stored he
    exact ih m hm (h.2 m hm)
  | _ => exact h

/-- An object with distinct names and stored values is its own stored form. -/
theorem canonical_object_of_nodup (hnd : (members.map (·.1)).Nodup)
    (h : ∀ m ∈ members, m.2.canonical = m.2) : (object members).canonical = .object members := by
  rw [canonical, canonicalMembers_of_canonical h, Index.entries_ofList_of_nodup hnd]

theorem canonical_canonical (j : Json) : j.canonical.canonical = j.canonical := by
  induction j using induction with
  | array items ih =>
    rw [canonical_array, canonical_array, List.map_map]
    exact congrArg array (List.map_congr_left ih)
  | object members ih =>
    rw [canonical_object]
    refine canonical_object_of_nodup (Index.nodup_keys_ofList _) fun e he => ?_
    obtain ⟨m, hm, rfl⟩ := exists_of_mem_stored he
    exact ih m hm
  | _ => rfl

/-! ## Being stored -/

/-- The value has a meaning throughout, and each name once at every level. -/
structure IsStored (j : Json) : Prop where
  storable : ∃ depth, j.storable depth = true
  canonical : j.canonical = j

theorem isStored_canonical (h : j.storable depth = true) : j.canonical.IsStored :=
  ⟨⟨depth, storable_canonical h⟩, canonical_canonical j⟩

theorem isStored_bool (b : Bool) : (Json.bool b).IsStored := ⟨⟨0, rfl⟩, rfl⟩

theorem isStored_number (n : Number) : (Json.number n).IsStored := ⟨⟨0, rfl⟩, rfl⟩

theorem isStored_string (s : String) : (Json.string s).IsStored := ⟨⟨0, rfl⟩, rfl⟩

theorem isStored_nil : (Json.array []).IsStored := ⟨⟨1, rfl⟩, rfl⟩

theorem isStored_array (h : ∀ j ∈ items, j.IsStored) : (array items).IsStored := by
  obtain ⟨depth, hdepth⟩ := exists_depth fun j hj => (h j hj).storable
  refine ⟨⟨depth + 1, storable_array_iff.mpr ⟨Nat.succ_ne_zero _, hdepth⟩⟩, ?_⟩
  rw [canonical_array, List.map_congr_left (g := id) fun j hj => (h j hj).canonical, List.map_id]

theorem isStored_object (hnd : (members.map (·.1)).Nodup) (h : ∀ m ∈ members, m.2.IsStored) :
    (object members).IsStored := by
  obtain ⟨depth, hdepth⟩ := exists_depth fun m hm => (h m hm).storable
  exact ⟨⟨depth + 1, storable_object_iff.mpr ⟨Nat.succ_ne_zero _, hdepth⟩⟩,
    canonical_object_of_nodup hnd fun m hm => (h m hm).canonical⟩

/-! ## Members that are carried along -/

variable {known : List String} {others : Index String Json}

/-- What a record carries along beside the members it knows. -/
structure AreOthers (depth : Nat) (known : List String) (others : Index String Json) : Prop where
  nodup : others.keys.Nodup
  unknown : ∀ m ∈ others.entries, m.1 ∉ known
  storable : ∀ m ∈ others.entries, m.2.storable depth = true
  canonical : ∀ m ∈ others.entries, m.2.canonical = m.2

theorem areOthers_of_others? (h : others? depth known members = some others) :
    AreOthers depth known others := by
  rw [others?] at h
  split at h
  · next hstorable =>
    cases h
    rw [membersStorable_iff] at hstorable
    have hfrom : ∀ e ∈ (Index.ofList (canonicalMembers
        (members.filter fun m => !known.contains m.1))).entries,
        ∃ m ∈ members.filter fun m => !known.contains m.1, (m.1, m.2.canonical) = e := by
      rw [canonicalMembers_eq_map]
      exact fun e he => exists_of_mem_stored he
    refine ⟨Index.nodup_keys_ofList _, fun e he => ?_, fun e he => ?_, fun e he => ?_⟩ <;>
      obtain ⟨m, hm, rfl⟩ := hfrom e he
    · simpa using (List.mem_filter.mp hm).2
    · exact storable_canonical (hstorable m hm)
    · exact canonical_canonical m.2
  · cases h

theorem others?_mono (hle : depth ≤ depth') (h : others? depth known members = some others) :
    others? depth' known members = some others := by
  rw [others?] at h ⊢
  split at h
  · next hstorable =>
    rw [membersStorable_iff] at hstorable
    rwa [if_pos (membersStorable_iff.mpr fun m hm => storable_mono hle (hstorable m hm))]
  · cases h

theorem AreOthers.isStored (h : AreOthers depth known others) :
    ∀ m ∈ others.entries, m.2.IsStored :=
  fun m hm => ⟨⟨depth, h.storable m hm⟩, h.canonical m hm⟩

/-- Members that are carried along are told apart from the known ones, and are kept as they are. -/
theorem others?_append (h : AreOthers depth known others) (hknown : ∀ m ∈ members, m.1 ∈ known) :
    others? depth known (members ++ others.entries) = some others := by
  have hfilter : ((members ++ others.entries).filter fun m => !known.contains m.1) =
      others.entries := by
    rw [List.filter_append, List.filter_eq_nil_iff.mpr fun m hm => by simp [hknown m hm],
      List.filter_eq_self.mpr fun m hm => by simp [h.unknown m hm], List.nil_append]
  have hentries := Index.entries_ofList_of_nodup h.nodup
  simp only [others?, hfilter]
  rw [if_pos (membersStorable_iff.mpr h.storable), canonicalMembers_of_canonical h.canonical]
  exact congrArg (fun es => some (Index.mk es)) hentries

end Json
end DebugTree
