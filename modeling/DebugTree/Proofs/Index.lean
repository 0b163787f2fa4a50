import DebugTree.Index
import Mathlib.Algebra.GroupWithZero.Nat
import Mathlib.Data.List.Nodup

/-!
# Keys and entries of an index

Look-ups are by key, while whoever goes over an index goes over its entries.  The two agree as long
as no key comes twice, and no operation makes a key come twice.  An insertion replaces a value
where it stands or puts it at the end, so the order of the entries is the order in which their
keys came.
-/

namespace DebugTree
namespace Index

variable {κ α : Type} [DecidableEq κ] {ix : Index κ α} {k k' : κ} {v : α}

/-! ## Look-ups and entries -/

theorem mem_of_find? {es : List (κ × α)} (h : find? k es = some v) : (k, v) ∈ es := by
  induction es with
  | nil => exact absurd h (by simp)
  | cons e rest ih =>
    obtain ⟨a, w⟩ := e
    rw [find?] at h
    split at h
    · next ha =>
      rw [ha, Option.some.inj h]
      exact List.mem_cons_self
    · exact List.mem_cons_of_mem _ (ih h)

theorem mem_entries_of_get? (h : ix.get? k = some v) : (k, v) ∈ ix.entries :=
  mem_of_find? h

theorem find?_eq_none_iff {es : List (κ × α)} : find? k es = none ↔ k ∉ es.map (·.1) := by
  induction es with
  | nil => simp
  | cons e rest ih =>
    obtain ⟨a, w⟩ := e
    rw [find?, List.map_cons, List.mem_cons, not_or]
    split
    · next ha => simp [ha]
    · next ha => rw [ih]; exact ⟨fun h => ⟨Ne.symm ha, h⟩, fun h => h.2⟩

theorem get?_eq_none_iff : ix.get? k = none ↔ k ∉ ix.keys :=
  find?_eq_none_iff

theorem contains_iff : ix.contains k = true ↔ k ∈ ix.keys := by
  rw [contains, Option.isSome_iff_ne_none, Ne, get?_eq_none_iff, not_not]

theorem find?_of_mem {es : List (κ × α)} (hnd : (es.map (·.1)).Nodup) (h : (k, v) ∈ es) :
    find? k es = some v := by
  induction es with
  | nil => exact absurd h (by simp)
  | cons e rest ih =>
    obtain ⟨a, w⟩ := e
    rw [List.map_cons, List.nodup_cons] at hnd
    rw [find?]
    rcases List.mem_cons.mp h with h | h
    · obtain ⟨rfl, rfl⟩ := Prod.mk.inj h
      exact if_pos rfl
    · have hk : k ∈ rest.map (·.1) := List.mem_map_of_mem (f := (·.1)) h
      rw [if_neg fun ha : a = k => hnd.1 (ha ▸ hk)]
      exact ih hnd.2 h

theorem find?_append (k : κ) (es es' : List (κ × α)) :
    find? k (es ++ es') = (find? k es).or (find? k es') := by
  induction es with
  | nil => rfl
  | cons e rest ih =>
    obtain ⟨a, w⟩ := e
    rw [List.cons_append, find?, find?]
    split
    · rfl
    · exact ih

theorem get?_eq_some_iff (hnd : ix.keys.Nodup) : ix.get? k = some v ↔ (k, v) ∈ ix.entries :=
  ⟨mem_entries_of_get?, find?_of_mem hnd⟩

theorem mem_values_of_get? (h : ix.get? k = some v) : v ∈ ix.values :=
  List.mem_map_of_mem (f := (·.2)) (mem_entries_of_get? h)

/-! ## Insertions -/

theorem put_of_find?_eq_none {es : List (κ × α)} (h : find? k es = none) (v : α) :
    put k v es = es ++ [(k, v)] := by
  induction es with
  | nil => rfl
  | cons e rest ih =>
    obtain ⟨a, w⟩ := e
    rw [find?] at h
    split at h
    · exact absurd h (by simp)
    · next ha => rw [put, if_neg ha, ih h, List.cons_append]

theorem entries_insert_of_get?_eq_none (h : ix.get? k = none) (v : α) :
    (ix.insert k v).entries = ix.entries ++ [(k, v)] :=
  put_of_find?_eq_none h v

theorem mem_put {es : List (κ × α)} {e : κ × α} (h : e ∈ put k v es) : e = (k, v) ∨ e ∈ es := by
  induction es with
  | nil => exact Or.inl (List.mem_singleton.mp h)
  | cons e' rest ih =>
    obtain ⟨a, w⟩ := e'
    rw [put] at h
    split at h
    · exact (List.mem_cons.mp h).imp_right (List.mem_cons_of_mem _)
    · rcases List.mem_cons.mp h with rfl | h
      · exact Or.inr List.mem_cons_self
      · exact (ih h).imp_right (List.mem_cons_of_mem _)

theorem mem_entries_insert {e : κ × α} (h : e ∈ (ix.insert k v).entries) :
    e = (k, v) ∨ e ∈ ix.entries :=
  mem_put h

/-- An insertion under a known key changes one entry: what cannot tell the two apart sees no
change. -/
theorem forall₂_put {R : κ × α → κ × α → Prop} (hrefl : ∀ e, R e e) {es : List (κ × α)}
    {w : α} (h : find? k es = some w) (hR : R (k, w) (k, v)) :
    List.Forall₂ R es (put k v es) := by
  induction es with
  | nil => exact absurd h (by simp)
  | cons e rest ih =>
    obtain ⟨a, w'⟩ := e
    rw [find?] at h
    rw [put]
    split at h
    · next ha =>
      subst ha
      rw [if_pos rfl]
      refine List.Forall₂.cons ?_ (List.forall₂_same.mpr fun e _ => hrefl e)
      rwa [Option.some.inj h]
    · next ha =>
      rw [if_neg ha]
      exact List.Forall₂.cons (hrefl _) (ih h)

theorem map_entries_insert {β : Type} {g : κ × α → β} {w : α} (h : ix.get? k = some w)
    (hg : g (k, v) = g (k, w)) : (ix.insert k v).entries.map g = ix.entries.map g := by
  have hput := forall₂_put (R := fun e e' => g e' = g e) (v := v) (fun _ => rfl) h hg
  rw [← List.forall₂_eq_eq_eq, List.forall₂_map_left_iff, List.forall₂_map_right_iff]
  exact hput.flip

theorem keys_insert_of_contains (h : ix.contains k = true) (v : α) :
    (ix.insert k v).keys = ix.keys := by
  obtain ⟨w, hw⟩ := Option.isSome_iff_exists.mp h
  exact map_entries_insert hw rfl

theorem keys_insert_of_get?_eq_none (h : ix.get? k = none) (v : α) :
    (ix.insert k v).keys = ix.keys ++ [k] := by
  rw [keys, entries_insert_of_get?_eq_none h, List.map_append]
  rfl

theorem size_insert_of_contains (h : ix.contains k = true) (v : α) :
    (ix.insert k v).size = ix.size := by
  have hkeys := congrArg List.length (keys_insert_of_contains h v)
  rwa [keys, keys, List.length_map, List.length_map] at hkeys

theorem size_insert_of_get?_eq_none (h : ix.get? k = none) (v : α) :
    (ix.insert k v).size = ix.size + 1 := by
  rw [size, entries_insert_of_get?_eq_none h, List.length_append]
  rfl

/-- Putting a value where it stands changes nothing. -/
theorem insert_self (h : ix.get? k = some v) : ix.insert k v = ix := by
  have hput : ∀ es : List (κ × α), find? k es = some v → put k v es = es := by
    intro es
    induction es with
    | nil => intro hes; cases hes
    | cons e rest ih =>
      obtain ⟨a, w⟩ := e
      intro hes
      unfold find? at hes
      unfold put
      split at hes
      · next ha => rw [if_pos ha, ha, Option.some.inj hes]
      · next ha => rw [if_neg ha, ih hes]
  rw [insert, hput _ h]

theorem nodup_keys_insert (hnd : ix.keys.Nodup) (k : κ) (v : α) : (ix.insert k v).keys.Nodup := by
  cases h : ix.contains k with
  | true => rwa [keys_insert_of_contains h]
  | false =>
    have hnone : ix.get? k = none := Option.not_isSome_iff_eq_none.mp (by simpa [contains] using h)
    rw [keys_insert_of_get?_eq_none hnone]
    exact List.Nodup.append hnd (List.nodup_singleton k)
      (List.disjoint_singleton.mpr (get?_eq_none_iff.mp hnone))

/-! ## Removals -/

omit [DecidableEq κ] in
theorem nodup_keys_filter (hnd : ix.keys.Nodup) (keep : κ × α → Bool) :
    (Index.mk (ix.entries.filter keep)).keys.Nodup :=
  (List.Sublist.map _ List.filter_sublist).nodup hnd

theorem keys_erase (ix : Index κ α) (k : κ) :
    (ix.erase k).keys = ix.keys.filter fun k' => !decide (k' = k) := by
  rw [erase, keys, keys, List.filter_map]
  rfl

theorem mem_keys_of_get? (h : ix.get? k = some v) : k ∈ ix.keys := by
  rw [← contains_iff, contains, h]
  rfl

theorem nodup_keys_erase (hnd : ix.keys.Nodup) (k : κ) : (ix.erase k).keys.Nodup :=
  nodup_keys_filter hnd _

@[simp] theorem erase_erase (ix : Index κ α) (k : κ) : (ix.erase k).erase k = ix.erase k := by
  simp only [erase, List.filter_filter, Bool.and_self]

theorem get?_filter (hnd : ix.keys.Nodup) (keep : κ × α → Bool) (k : κ) :
    (Index.mk (ix.entries.filter keep)).get? k = (ix.get? k).filter fun v => keep (k, v) := by
  refine Option.ext fun v => ?_
  rw [get?_eq_some_iff (nodup_keys_filter hnd keep), List.mem_filter, ← get?_eq_some_iff hnd,
    Option.filter_eq_some_iff]

/-! ## Sums over the values -/

theorem sum_values_insert {f : α → Nat} {w : α} (h : ix.get? k = some w) (v : α) :
    ((ix.insert k v).values.map f).sum + f w = (ix.values.map f).sum + f v := by
  have hput : ∀ es : List (κ × α), find? k es = some w →
      (((put k v es).map (·.2)).map f).sum + f w = ((es.map (·.2)).map f).sum + f v := by
    intro es
    induction es with
    | nil => intro hes; cases hes
    | cons e rest ih =>
      obtain ⟨a, w'⟩ := e
      intro hes
      unfold find? at hes
      unfold put
      split at hes
      · next ha =>
        rw [if_pos ha, Option.some.inj hes]
        simp only [List.map_cons, List.sum_cons]
        omega
      · next ha =>
        have hrest := ih hes
        rw [if_neg ha]
        simp only [List.map_cons, List.sum_cons] at hrest ⊢
        omega
  exact hput _ h

omit [DecidableEq κ] in
theorem sum_values_filter_le (f : α → Nat) (p : κ × α → Bool) (es : List (κ × α)) :
    (((es.filter p).map (·.2)).map f).sum ≤ ((es.map (·.2)).map f).sum := by
  induction es with
  | nil => exact Nat.le_refl _
  | cons e rest ih =>
    rw [List.filter_cons]
    split
    · simp only [List.map_cons, List.sum_cons]
      omega
    · simp only [List.map_cons, List.sum_cons]
      omega

theorem sum_values_erase {f : α → Nat} (h : ix.get? k = some v) :
    ((ix.erase k).values.map f).sum + f v ≤ (ix.values.map f).sum := by
  have hfind : ∀ es : List (κ × α), find? k es = some v →
      (((es.filter fun e => !decide (e.1 = k)).map (·.2)).map f).sum + f v ≤
        ((es.map (·.2)).map f).sum := by
    intro es
    induction es with
    | nil => intro hes; cases hes
    | cons e rest ih =>
      obtain ⟨a, w⟩ := e
      intro hes
      unfold find? at hes
      split at hes
      · next ha =>
        have hrest := sum_values_filter_le f (fun e => !decide (e.1 = k)) rest
        rw [List.filter_cons, if_neg (by simp [ha]), ← Option.some.inj hes]
        simp only [List.map_cons, List.sum_cons]
        omega
      · next ha =>
        have hrest := ih hes
        rw [List.filter_cons, if_pos (by simp [ha])]
        simp only [List.map_cons, List.sum_cons]
        omega
  exact hfind _ h

/-! ## One entry -/

/-- The index with one entry. -/
def single (k : κ) (v : α) : Index κ α := ⟨[(k, v)]⟩

theorem get?_single (k k' : κ) (v : α) : (single k v).get? k' = if k = k' then some v else none :=
  rfl

@[simp] theorem insert_empty (k : κ) (v : α) : (empty : Index κ α).insert k v = single k v := rfl

@[simp] theorem insert_single (k : κ) (v w : α) : (single k v).insert k w = single k w := by
  rw [single, insert, put, if_pos rfl, single]

@[simp] theorem erase_empty (k : κ) : (empty : Index κ α).erase k = empty := rfl

@[simp] theorem erase_single (k : κ) (v : α) : (single k v).erase k = empty := by
  simp [single, erase, empty]

/-! ## Changes of one value -/

theorem modify_of_get? (h : ix.get? k = some v) (f : α → α) :
    ix.modify k f = ix.insert k (f v) := by
  rw [modify, h]

theorem modify_of_get?_eq_none (h : ix.get? k = none) (f : α → α) : ix.modify k f = ix := by
  rw [modify, h]

theorem get?_modify (ix : Index κ α) (k k' : κ) (f : α → α) :
    (ix.modify k f).get? k' = if k = k' then (ix.get? k).map f else ix.get? k' := by
  cases h : ix.get? k with
  | none =>
    rw [modify_of_get?_eq_none h]
    split
    · next hk => rw [← hk, h]; rfl
    · rfl
  | some v => rw [modify_of_get? h, get?_insert]; rfl

@[simp] theorem get?_modify_self (ix : Index κ α) (k : κ) (f : α → α) :
    (ix.modify k f).get? k = (ix.get? k).map f := by
  rw [get?_modify, if_pos rfl]

theorem keys_modify (ix : Index κ α) (k : κ) (f : α → α) : (ix.modify k f).keys = ix.keys := by
  cases h : ix.get? k with
  | none => rw [modify_of_get?_eq_none h]
  | some v =>
    rw [modify_of_get? h]
    exact keys_insert_of_contains (by rw [contains, h]; rfl) _

theorem size_modify (ix : Index κ α) (k : κ) (f : α → α) : (ix.modify k f).size = ix.size := by
  have hkeys := congrArg List.length (keys_modify ix k f)
  rwa [keys, keys, List.length_map, List.length_map] at hkeys

theorem put_comm {es : List (κ × α)} {w : α} (hne : k ≠ k') (hk : find? k es ≠ none)
    (hk' : find? k' es ≠ none) : put k v (put k' w es) = put k' w (put k v es) := by
  induction es with
  | nil => exact absurd rfl hk
  | cons e rest ih =>
    obtain ⟨a, u⟩ := e
    by_cases ha : a = k
    · subst ha
      simp [put, hne]
    · by_cases ha' : a = k'
      · subst ha'
        simp [put, ha]
      · rw [find?, if_neg ha] at hk
        rw [find?, if_neg ha'] at hk'
        simp [put, ha, ha', ih hk hk']

/-- Changes of the values under two keys do not meet. -/
theorem modify_comm (ix : Index κ α) (hne : k ≠ k') (f g : α → α) :
    (ix.modify k f).modify k' g = (ix.modify k' g).modify k f := by
  have hget : (ix.modify k f).get? k' = ix.get? k' := by rw [get?_modify, if_neg hne]
  have hget' : (ix.modify k' g).get? k = ix.get? k := by rw [get?_modify, if_neg hne.symm]
  cases h : ix.get? k with
  | none =>
    rw [modify_of_get?_eq_none h, modify_of_get?_eq_none (hget'.trans h)]
  | some v =>
    cases h' : ix.get? k' with
    | none =>
      rw [modify_of_get?_eq_none h', modify_of_get?_eq_none (hget.trans h')]
    | some w =>
      rw [modify_of_get? (hget.trans h'), modify_of_get? (hget'.trans h), modify_of_get? h,
        modify_of_get? h', insert, insert, insert, insert]
      refine congrArg Index.mk (put_comm hne.symm ?_ ?_)
      · rw [show find? k' ix.entries = some w from h']; exact Option.some_ne_none w
      · rw [show find? k ix.entries = some v from h]; exact Option.some_ne_none v

/-! ## From a list of pairs -/

theorem foldl_insert_of_nodup (es : List (κ × α)) :
    ∀ ix : Index κ α, (ix.keys ++ es.map (·.1)).Nodup →
      (es.foldl (fun ix e => ix.insert e.1 e.2) ix).entries = ix.entries ++ es := by
  induction es with
  | nil => intro ix _; exact (List.append_nil _).symm
  | cons e rest ih =>
    intro ix hnd
    have hnew : ix.get? e.1 = none := by
      rw [get?_eq_none_iff]
      exact fun hk => (List.nodup_append.mp hnd).2.2 _ hk _ List.mem_cons_self rfl
    rw [List.foldl_cons, ih, entries_insert_of_get?_eq_none hnew, List.append_assoc,
      List.singleton_append]
    rw [keys_insert_of_get?_eq_none hnew, List.append_assoc]
    exact hnd

/-- A list of pairs with distinct keys is kept as it stands. -/
theorem entries_ofList_of_nodup {es : List (κ × α)} (hnd : (es.map (·.1)).Nodup) :
    (ofList es).entries = es :=
  foldl_insert_of_nodup es empty hnd

/-- What holds of the empty index and is kept by insertions holds of a list of pairs. -/
theorem ofList_induction {P : Index κ α → Prop} {es : List (κ × α)} (hempty : P empty)
    (hinsert : ∀ ix, ∀ e ∈ es, P ix → P (ix.insert e.1 e.2)) : P (ofList es) := by
  rw [ofList]
  exact List.foldlRecOn es _ hempty fun ix hix e he => hinsert ix e he hix

theorem nodup_keys_ofList (es : List (κ × α)) : (ofList es).keys.Nodup :=
  ofList_induction (P := fun ix => ix.keys.Nodup) List.nodup_nil
    fun _ e _ hnd => nodup_keys_insert hnd e.1 e.2

theorem mem_of_mem_entries_ofList {es : List (κ × α)} {e : κ × α}
    (h : e ∈ (ofList es).entries) : e ∈ es := by
  refine ofList_induction (P := fun ix => ∀ e ∈ ix.entries, e ∈ es) (fun e he => nomatch he)
    (fun ix e' he' hix e he => ?_) e h
  rcases mem_entries_insert he with rfl | he
  · exact he'
  · exact hix e he

/-! ## Where a value comes from -/

theorem get?_erase_eq_some_iff : (ix.erase k).get? k' = some v ↔ k ≠ k' ∧ ix.get? k' = some v := by
  rw [get?_erase]
  split
  · next hk => simp [hk]
  · next hk => simp [hk]

theorem get?_insert_eq_some_iff {w : α} :
    (ix.insert k v).get? k' = some w ↔ k = k' ∧ v = w ∨ (ix.erase k).get? k' = some w := by
  rw [get?_insert, get?_erase]
  split
  · next hk => simp [hk]
  · next hk => simp [hk]

theorem of_get?_insert_eq_some {w : α} (h : (ix.insert k v).get? k' = some w) :
    k = k' ∧ v = w ∨ ix.get? k' = some w := by
  rw [get?_insert_eq_some_iff, get?_erase_eq_some_iff] at h
  exact h.imp_right And.right

theorem get?_modify_eq_some_iff {f : α → α} {w : α} : (ix.modify k f).get? k' = some w ↔
    (k = k' ∧ ∃ v, ix.get? k = some v ∧ f v = w) ∨ k ≠ k' ∧ ix.get? k' = some w := by
  rw [get?_modify]
  split
  · next hk => simp [hk, Option.map_eq_some_iff]
  · next hk => simp [hk]

end Index
end DebugTree
