import DebugTree.Proofs.Json.Stored

/-!
# Records that are read back

A reader takes many forms of one record: names in any order, a list, fields left out or given as
`null`, members that it does not know.  A writer has one form.  So writing what was read does not
give the text back, but it gives something that is read as the same record (`ReadsBack`).

This is put together as readers and writers are: from a field that is read back to a list of such
fields, and from the fields to the record (`readsBack_record`).  What the reader asks of a written
record is where its names stand, and since no name is written twice (`Writes`) a look-up answers it.
-/

namespace DebugTree

variable {α : Type}

/-- What is written of a thing that was read is a stored value, and is read as that thing again. -/
def ReadsBack (read : Json → Option α) (write : α → Json) : Prop :=
  ∀ v a, read v = some a → (write a).IsStored ∧ read (write a) = some a

/-- What is read as a part of something else is read back as that part. -/
theorem ReadsBack.exists_of_map {β : Type} {read : Json → Option α} {write : α → Json}
    (h : ReadsBack read write) {make : α → β} {v : Json} {b : β}
    (hb : (read v).map make = some b) :
    ∃ a, make a = b ∧ (write a).IsStored ∧ (read (write a)).map make = some b := by
  obtain ⟨a, ha, rfl⟩ := Option.map_eq_some_iff.mp hb
  obtain ⟨hstored, hread⟩ := h v a ha
  exact ⟨a, rfl, hstored, by rw [hread, Option.map_some]⟩

namespace Json

/-! ## Scalars and lists -/

theorem readsBack_text : ReadsBack text? .string :=
  fun _ s _ => ⟨isStored_string s, rfl⟩

theorem readsBack_flag : ReadsBack flag? .bool :=
  fun _ b _ => ⟨isStored_bool b, rfl⟩

theorem integer?_eq_some_iff {low high n : Int} {v : Json} :
    integer? low high v = some n ↔ v = ofInt n ∧ low ≤ n ∧ n ≤ high := by
  constructor
  · intro h
    cases v with
    | number m =>
      cases m with
      | int m =>
        rw [integer?] at h
        split at h
        · next hbounds =>
          cases h
          exact ⟨rfl, hbounds⟩
        · cases h
      | float bits => cases h
    | _ => cases h
  · rintro ⟨rfl, hbounds⟩
    exact if_pos hbounds

theorem readsBack_integer (low high : Int) : ReadsBack (integer? low high) ofInt := by
  intro v n h
  obtain ⟨rfl, -⟩ := integer?_eq_some_iff.mp h
  exact ⟨isStored_number _, h⟩

theorem readsBack_signed64 : ReadsBack signed64? ofInt :=
  readsBack_integer _ _

theorem readsBack_unsigned (bits : Nat) : ReadsBack (unsigned? bits) ofNat := by
  intro v n h
  obtain ⟨m, hm, rfl⟩ := Option.map_eq_some_iff.mp h
  obtain ⟨rfl, hnonneg, -⟩ := integer?_eq_some_iff.mp hm
  have hsame : ofNat m.toNat = ofInt m :=
    congrArg (fun i => Json.number (.int i)) (Int.toNat_of_nonneg hnonneg)
  rw [hsame]
  exact ⟨isStored_number _, h⟩

/-- A list is read item by item. -/
theorem list?_eq_some_iff {read : Json → Option α} {v : Json} {as : List α} :
    list? read v = some as ↔
      ∃ items, v = .array items ∧ List.Forall₂ (fun j a => read j = some a) items as := by
  have hitems : ∀ (items : List Json) (as : List α),
      items.mapM read = some as ↔ List.Forall₂ (fun j a => read j = some a) items as := by
    intro items
    induction items with
    | nil => intro as; simp [eq_comm]
    | cons j rest ih =>
      intro as
      rw [List.mapM_cons, List.forall₂_cons_left_iff]
      simp only [bind, Option.bind_eq_some_iff, pure, Option.some.injEq, ih, eq_comm (a := as),
        exists_and_left]
  cases v with
  | array items => simp [list?, hitems]
  | _ => exact iff_of_false (by rintro ⟨⟩) (by rintro ⟨_, heq, -⟩; cases heq)

theorem readsBack_list {read : Json → Option α} {write : α → Json} (h : ReadsBack read write) :
    ReadsBack (list? read) (ofList write) := by
  intro v as hv
  obtain ⟨items, -, hitems⟩ := list?_eq_some_iff.mp hv
  clear hv
  refine ⟨isStored_array ?_, list?_eq_some_iff.mpr ⟨_, rfl, List.forall₂_map_left_iff.mpr ?_⟩⟩
  · induction hitems with
    | nil => exact List.forall_mem_nil _
    | cons hj _ ih => exact List.forall_mem_cons.mpr ⟨(h _ _ hj).1, ih⟩
  · induction hitems with
    | nil => exact .nil
    | cons hj _ ih => exact .cons (h _ _ hj).2 ih

theorem nullable?_of_ne {read : Json → Option α} {v : Json} (h : v ≠ .null) :
    nullable? read v = (read v).map some := by
  cases v with
  | null => exact absurd rfl h
  | _ => rfl

/-- A word is written alone, whichever way it was given. -/
theorem readsBack_word {read : String → Option α} {spell : α → String}
    (h : ∀ a, read (spell a) = some a) : ReadsBack (word? read) fun a => .string (spell a) :=
  fun _ a _ => ⟨isStored_string _, h a⟩

/-! ## Written members -/

variable {names names' : List String} {members members' : List (String × Json)} {name : String}

/-- The members have stored values and come under some of these names, in their order. -/
structure Writes (names : List String) (members : List (String × Json)) : Prop where
  names : (members.map (·.1)).Sublist names
  stored : ∀ m ∈ members, m.2.IsStored

theorem writes_member {v : Json} (h : v.IsStored) : Writes [name] [(name, v)] :=
  ⟨List.Sublist.refl _, List.forall_mem_singleton.mpr h⟩

theorem writes_memberOf {write : α → Json} {o : Option α} (h : ∀ a ∈ o, (write a).IsStored) :
    Writes [name] (memberOf name write o) := by
  cases o with
  | none => exact ⟨List.nil_sublist _, List.forall_mem_nil _⟩
  | some a => exact writes_member (h a rfl)

theorem Writes.append (h : Writes names members) (h' : Writes names' members') :
    Writes (names ++ names') (members ++ members') :=
  ⟨by rw [List.map_append]; exact h.names.append h'.names,
    fun m hm => (List.mem_append.mp hm).elim (h.stored m) (h'.stored m)⟩

theorem Writes.nodup (h : Writes names members) (hnd : names.Nodup) :
    (members.map (·.1)).Nodup :=
  h.names.nodup hnd

theorem Writes.isStored (h : Writes names members) (hnd : names.Nodup) :
    (object members).IsStored :=
  isStored_object (h.nodup hnd) h.stored

theorem Writes.mem_names (h : Writes names members) {m : String × Json} (hm : m ∈ members) :
    m.1 ∈ names :=
  h.names.subset (List.mem_map_of_mem hm)

/-- Members that are carried along come under names that no known member has. -/
theorem AreOthers.writes {depth : Nat} {known : List String} {others : Index String Json}
    (h : AreOthers depth known others) : Writes others.keys others.entries :=
  ⟨List.Sublist.refl _, h.isStored⟩

theorem AreOthers.nodup_append {depth : Nat} {known : List String} {others : Index String Json}
    (h : AreOthers depth known others) (hknown : known.Nodup) : (known ++ others.keys).Nodup := by
  refine List.nodup_append.mpr ⟨hknown, h.nodup, fun name hname other hother heq => ?_⟩
  obtain ⟨m, hm, rfl⟩ := List.mem_map.mp hother
  exact h.unknown m hm (heq ▸ hname)

theorem AreOthers.find?_eq_none {depth : Nat} {known : List String} {others : Index String Json}
    (h : AreOthers depth known others) (hname : name ∈ known) :
    Index.find? name others.entries = none := by
  rw [Index.find?_eq_none_iff]
  intro hkey
  obtain ⟨m, hm, rfl⟩ := List.mem_map.mp hkey
  exact h.unknown m hm hname

@[simp] theorem find?_memberOf (name name' : String) (write : α → Json) (o : Option α) :
    Index.find? name' (memberOf name write o) = if name = name' then o.map write else none := by
  cases o with
  | none => exact (ite_self none).symm
  | some a => rfl

end Json

/-! ## Fields -/

namespace Fields

variable {name : String} {members : List (String × Json)}

/-- A field that is read as well by another reader. -/
theorem required_of_forall {read read' : Json → Option α} {f f' : Fields Json} {a : α}
    (hread : ∀ v a, read v = some a → read' v = some a)
    (h : f.required name read = some (a, f')) : f.required name read' = some (a, f') := by
  rw [required] at h ⊢
  split at h
  · obtain ⟨b, hb, hbf⟩ := Option.map_eq_some_iff.mp h
    exact Option.map_eq_some_iff.mpr ⟨b, hread _ b hb, hbf⟩
  · cases h

/-- Where no name comes twice, the next field is looked up. -/
theorem next_named_of_nodup (hnd : (members.map (·.1)).Nodup) :
    (named members).next name = some (Index.find? name members, named members) := by
  have hfilter : members.filter (fun m => m.1 == name) =
      ((Index.find? name members).map fun v => (name, v)).toList := by
    induction members with
    | nil => rfl
    | cons m rest ih =>
      obtain ⟨k, v⟩ := m
      rw [List.map_cons, List.nodup_cons] at hnd
      rw [List.filter_cons, Index.find?]
      by_cases hk : k = name
      · subst hk
        rw [if_pos (by simp), if_pos rfl, ih hnd.2, Index.find?_eq_none_iff.mpr hnd.1]
        rfl
      · rw [if_neg (by simpa using hk), if_neg hk, ih hnd.2]
  rw [next, hfilter]
  cases Index.find? name members <;> rfl

end Fields

/-- What is written for a field of this name, and how it answers the question that the reader asks:
wherever it stands among members with distinct names. -/
structure Answers (name : String) (ask : Fields Json → Option (α × Fields Json)) (a : α)
    (written : List (String × Json)) : Prop where
  writes : Json.Writes [name] written
  reads : ∀ {members : List (String × Json)}, (members.map (·.1)).Nodup →
    Index.find? name members = Index.find? name written →
      ask (.named members) = some (a, .named members)

/-- The question is answered among known members, and others that are carried along. -/
theorem Answers.amongOthers {name : String} {ask : Fields Json → Option (α × Fields Json)} {a : α}
    {written members : List (String × Json)} (h : Answers name ask a written) {depth : Nat}
    {known : List String} {others : Index String Json} (hothers : Json.AreOthers depth known others)
    (hnd : ((members ++ others.entries).map (·.1)).Nodup)
    (hname : name ∈ known) (hfind : Index.find? name members = Index.find? name written) :
    ask (.named (members ++ others.entries)) = some (a, .named (members ++ others.entries)) := by
  refine h.reads hnd ?_
  rw [Index.find?_append, hothers.find?_eq_none hname, Option.or_none, hfind]

/-- A value that is there answers for its field. -/
theorem answers_required {read : Json → Option α} {name : String} {v : Json} {a : α}
    (hstored : v.IsStored) (hread : read v = some a) :
    Answers name (·.required name read) a [(name, v)] := by
  refine ⟨Json.writes_member hstored, fun hnd hfind => ?_⟩
  rw [Fields.required, Fields.next_named_of_nodup hnd, hfind, Index.find?, if_pos rfl]
  simp only [hread, Option.map_some]

namespace ReadsBack

variable {read : Json → Option α} {write : α → Json} (h : ReadsBack read write) {name : String}
  {f f' : Fields Json}

include h

/-- A field that has to be there. -/
theorem required {a : α} (hf : f.required name read = some (a, f')) :
    Answers name (·.required name read) a [(name, write a)] := by
  rw [Fields.required] at hf
  split at hf
  · obtain ⟨b, hb, hbf⟩ := Option.map_eq_some_iff.mp hf
    cases hbf
    obtain ⟨hstored, hread⟩ := h _ _ hb
    exact answers_required hstored hread
  · cases hf

/-- A field that may be left out or given as `null`. -/
theorem optional {o : Option α} (hnull : read .null = none)
    (hf : f.optional name (Json.nullable? read) = some (o, f')) :
    Answers name (·.optional name (Json.nullable? read)) o (Json.memberOf name write o) := by
  have hgiven : ∀ a ∈ o, (write a).IsStored ∧ Json.nullable? read (write a) = some (some a) := by
    rintro a rfl
    rw [Fields.optional] at hf
    split at hf
    · next v rest _ =>
      obtain ⟨b, hb, hbf⟩ := Option.map_eq_some_iff.mp hf
      cases hbf
      have hv : v ≠ .null := by
        rintro rfl
        cases hb
      rw [Json.nullable?_of_ne hv] at hb
      obtain ⟨hstored, hread⟩ := h v a (by simpa using hb)
      have hwritten : write a ≠ .null := by
        intro hwrite
        rw [hwrite, hnull] at hread
        cases hread
      exact ⟨hstored, by rw [Json.nullable?_of_ne hwritten, hread, Option.map_some]⟩
    · split at hf
      · cases hf
      · cases hf
    · cases hf
  refine ⟨Json.writes_memberOf fun a ha => (hgiven a ha).1, fun hnd hfind => ?_⟩
  rw [Fields.optional, Fields.next_named_of_nodup hnd, hfind, Json.find?_memberOf, if_pos rfl]
  cases o with
  | none => rfl
  | some a => simp only [Option.map_some, (hgiven a rfl).2]

/-- A field that may be left out, given that its own default is read back. -/
theorem defaulted {a default : α}
    (hf : f.defaulted name read default = some (a, f'))
    (hdefault : (write default).IsStored ∧ read (write default) = some default) :
    Answers name (·.defaulted name read default) a [(name, write a)] := by
  have hgiven : (write a).IsStored ∧ read (write a) = some a := by
    rw [Fields.defaulted] at hf
    split at hf
    · obtain ⟨b, hb, hbf⟩ := Option.map_eq_some_iff.mp hf
      cases hbf
      exact h _ _ hb
    · cases hf
      exact hdefault
    · cases hf
  refine ⟨Json.writes_member hgiven.1, fun hnd hfind => ?_⟩
  rw [Fields.defaulted, Fields.next_named_of_nodup hnd, hfind, Index.find?, if_pos rfl]
  simp only [hgiven.2, Option.map_some]

end ReadsBack

/-- A record that was read has been read from its fields, in one form or the other. -/
theorem fields_of_record? {read : Fields Json → Option (α × Fields Json)} {v : Json} {a : α}
    (h : Json.record? read v = some a) :
    (∃ members f, v = .object members ∧ read (.named members) = some (a, f)) ∨
      ∃ items f, v = .array items ∧ read (.listed items) = some (a, f) := by
  have hfrom : ∀ f, ((read f).bind fun r => if r.2.isDone then some r.1 else none) = some a →
      ∃ f', read f = some (a, f') := by
    intro f hf
    obtain ⟨⟨b, f'⟩, hb, hdone⟩ := Option.bind_eq_some_iff.mp hf
    split at hdone
    · exact ⟨f', Option.some.inj hdone ▸ hb⟩
    · cases hdone
  cases v with
  | object members =>
    obtain ⟨f, hf⟩ := hfrom (.named members) h
    exact .inl ⟨members, f, rfl, hf⟩
  | array items =>
    obtain ⟨f, hf⟩ := hfrom (.listed items) h
    exact .inr ⟨items, f, rfl, hf⟩
  | _ => cases h

/-- A record whose fields are read as well by another reader is read by that one, too. -/
theorem record?_of_forall {read read' : Fields Json → Option (α × Fields Json)} {v : Json} {a : α}
    (hread : ∀ f r, read f = some r → read' f = some r) (h : Json.record? read v = some a) :
    Json.record? read' v = some a := by
  have hsame : ∀ f, ((read f).bind fun r => if r.2.isDone then some r.1 else none) = some a →
      ((read' f).bind fun r => if r.2.isDone then some r.1 else none) = some a := by
    intro f hf
    obtain ⟨r, hr, hdone⟩ := Option.bind_eq_some_iff.mp hf
    rwa [hread f r hr]
  cases v with
  | object members => exact hsame (.named members) h
  | array items => exact hsame (.listed items) h
  | _ => cases h

/-- **A record is read back** if it is read from the members that are written of it. -/
theorem readsBack_record {ofFields : Fields Json → Option (α × Fields Json)} {write : α → Json}
    (h : ∀ f a f', ofFields f = some (a, f') → ∃ names members, Json.Writes names members ∧
      names.Nodup ∧ write a = .object members ∧
      ofFields (.named members) = some (a, .named members)) :
    ReadsBack (Json.record? ofFields) write := by
  intro v a hv
  obtain ⟨f, f', hf⟩ : ∃ f f', ofFields f = some (a, f') :=
    (fields_of_record? hv).elim (fun ⟨_, f', _, hf⟩ => ⟨_, f', hf⟩) fun ⟨_, f', _, hf⟩ => ⟨_, f', hf⟩
  obtain ⟨names, members, hwrites, hnames, hwrite, hread⟩ := h f a f' hf
  rw [hwrite]
  exact ⟨hwrites.isStored hnames, by simp [Json.record?, hread, Fields.isDone]⟩

end DebugTree
