/-!
# Finite indexes

A finite map from keys to values that remembers in which order its keys came.  Everything the
library keeps under a key (overrides under a URL, sessions under a target, topics under a root)
lives in one of these, so that no answer can depend on an accident of storage: an insertion
under a new key goes to the end, and an insertion under a known key replaces its value where it
stands.
-/

namespace DebugTree

/-- A finite map, oldest key first. -/
structure Index (κ : Type) (α : Type) where
  entries : List (κ × α)
  deriving DecidableEq

namespace Index

variable {κ α : Type} [DecidableEq κ]

/-- The index without keys. -/
def empty : Index κ α := ⟨[]⟩

instance : Inhabited (Index κ α) := ⟨empty⟩

/-! ## On the list of entries -/

/-- The value under a key. -/
def find? (k : κ) : List (κ × α) → Option α
  | [] => none
  | (k', v) :: rest => if k' = k then some v else find? k rest

/-- The entries after a value is put under a key. -/
def put (k : κ) (v : α) : List (κ × α) → List (κ × α)
  | [] => [(k, v)]
  | (k', w) :: rest => if k' = k then (k, v) :: rest else (k', w) :: put k v rest

@[simp] theorem find?_nil (k : κ) : find? k ([] : List (κ × α)) = none := rfl

theorem find?_put (k k' : κ) (v : α) (es : List (κ × α)) :
    find? k' (put k v es) = if k = k' then some v else find? k' es := by
  induction es with
  | nil => simp [put, find?]
  | cons e rest ih =>
    obtain ⟨a, w⟩ := e
    by_cases h : a = k
    · subst h
      by_cases h' : a = k' <;> simp [put, find?, h']
    · by_cases h' : a = k'
      · subst h'
        simp [put, find?, h, Ne.symm h]
      · simp [put, find?, h, h', ih]

theorem find?_filter_ne (k k' : κ) (es : List (κ × α)) :
    find? k' (es.filter fun e => !decide (e.1 = k)) = if k = k' then none else find? k' es := by
  induction es with
  | nil => simp
  | cons e rest ih =>
    obtain ⟨a, w⟩ := e
    by_cases h : a = k
    · subst h
      by_cases h' : a = k'
      · subst h'
        simpa [List.filter_cons] using ih
      · simpa [List.filter_cons, find?, h'] using ih
    · by_cases h' : a = k'
      · subst h'
        simp [find?, h, Ne.symm h]
      · simp [find?, h, h', ih]

/-! ## Operations -/

/-- The value under a key. -/
def get? (ix : Index κ α) (k : κ) : Option α :=
  find? k ix.entries

/-- The key has a value. -/
def contains (ix : Index κ α) (k : κ) : Bool :=
  (ix.get? k).isSome

/-- The index with a value under a key. -/
def insert (ix : Index κ α) (k : κ) (v : α) : Index κ α :=
  ⟨put k v ix.entries⟩

/-- The index without a key. -/
def erase (ix : Index κ α) (k : κ) : Index κ α :=
  ⟨ix.entries.filter fun e => !decide (e.1 = k)⟩

/-- The index with the value under a key changed, if there is one. -/
def modify (ix : Index κ α) (k : κ) (f : α → α) : Index κ α :=
  match ix.get? k with
  | some v => ix.insert k (f v)
  | none => ix

/-- The keys, oldest first. -/
def keys (ix : Index κ α) : List κ :=
  ix.entries.map (·.1)

/-- The values, in the order of their keys. -/
def values (ix : Index κ α) : List α :=
  ix.entries.map (·.2)

/-- How many keys there are. -/
def size (ix : Index κ α) : Nat :=
  ix.entries.length

/-- The index of a list of pairs, a later pair winning over an earlier one of its key. -/
def ofList (es : List (κ × α)) : Index κ α :=
  es.foldl (fun ix e => ix.insert e.1 e.2) empty

@[simp] theorem get?_empty (k : κ) : (empty : Index κ α).get? k = none := rfl

theorem get?_insert (ix : Index κ α) (k k' : κ) (v : α) :
    (ix.insert k v).get? k' = if k = k' then some v else ix.get? k' :=
  find?_put k k' v ix.entries

@[simp] theorem get?_insert_self (ix : Index κ α) (k : κ) (v : α) :
    (ix.insert k v).get? k = some v := by
  simp [get?_insert]

theorem get?_erase (ix : Index κ α) (k k' : κ) :
    (ix.erase k).get? k' = if k = k' then none else ix.get? k' :=
  find?_filter_ne k k' ix.entries

@[simp] theorem get?_erase_self (ix : Index κ α) (k : κ) : (ix.erase k).get? k = none := by
  simp [get?_erase]

end Index
end DebugTree
