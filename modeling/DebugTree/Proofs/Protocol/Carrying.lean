import DebugTree.Proofs.Json.Paths
import DebugTree.Proofs.Protocol.Records
import DebugTree.Protocol.Request

/-!
# What a request carries along

A request that comes before its target is kept and said again later.  What is said again is written
of the records that the request was read into, and so it is worth as much as these records keep.

Some of them keep everything: what they do not know they carry along (`renders_others`).  The others
know their members and nothing else (`carries_record`).  A `Shape` says which is which, all the way
down from the arguments of a command to the items of their lists, and a way into the arguments is
kept or not according to the shape that it leads through (`Shape.Keeps`).  `Request.kept_iff` says
that what is lost of a request is exactly what its shape leaves out.

A member that is `null` is as good as one that is left out, so ways to `null` do not count.
-/

namespace DebugTree

open Json

namespace Protocol

variable {α : Type}

/-! ## What is kept -/

/-- What a writer keeps of the values that its reader takes. -/
inductive Shape where
  /-- Everything. -/
  | whole
  /-- The members of these names, of a record that is given by names. -/
  | record (fields : List (String × Shape))
  /-- All items, and of each what this shape keeps. -/
  | list (item : Shape)

namespace Shape

/-- What stands at the end of a way into a value is kept. -/
def Keeps : List Step → Shape → Json → Prop
  | _, .whole, _ => True
  | [], .record _, v => ∃ members, v = .object members
  | [], .list _, _ => True
  | .member name :: rest, .record fields, v =>
    ∃ shape a, Index.find? name fields = some shape ∧ v.get? name = some a ∧ Keeps rest shape a
  | .item i :: rest, .list shape, .array items => ∃ a, items[i]? = some a ∧ Keeps rest shape a
  | _ :: _, _, _ => False

/-- What is written for a value has, at the end of each way into the value, what stood there,
exactly if that is kept.  A `null` need not be written. -/
def Renders (shape : Shape) (v w : Json) : Prop :=
  ∀ path a, v.at? path = some a → a ≠ .null →
    ((∃ b, w.at? path = some b ∧ a.SameValue b) ↔ shape.Keeps path v)

variable {shape : Shape} {fields : List (String × Shape)} {members members' : List (String × Json)}
  {items items' : List Json}

/-- There is no way into `null` but the one that ends there. -/
theorem ne_null_of_at? {path : List Step} {v a : Json} (h : v.at? path = some a) (ha : a ≠ .null) :
    v ≠ .null := by
  rintro rfl
  cases path with
  | nil => exact ha (Option.some.inj h).symm
  | cons step rest => cases step <;> cases h

theorem renders_canonical (v : Json) : whole.Renders v v.canonical := by
  intro path a h _
  refine iff_of_true ⟨a.canonical, ?_, sameValue_canonical a⟩ (by cases path <;> trivial)
  rw [at?_canonical, h, Option.map_some]

theorem renders_same (v : Json) : whole.Renders v v := by
  intro path a h _
  exact iff_of_true ⟨a, h, .refl a⟩ (by cases path <;> trivial)

/-- A record that was given in order is written by names, and so its values stand elsewhere. -/
theorem renders_listed : (record fields).Renders (.array items) (.object members) := by
  intro path a h ha
  cases path with
  | nil =>
    cases h
    constructor
    · rintro ⟨b, hb, hsame⟩
      cases hb
      cases hsame
    · rintro ⟨members, heq⟩
      cases heq
  | cons step rest =>
    cases step with
    | member name => cases h
    | item i => exact iff_of_false (by rintro ⟨b, hb, -⟩; cases hb) id

theorem renders_object
    (hknown : ∀ e ∈ fields, ∀ a, (object members).get? e.1 = some a → a ≠ .null →
      ∃ b, (object members').get? e.1 = some b ∧ e.2.Renders a b)
    (hunknown : ∀ name, Index.find? name fields = none → (object members').get? name = none) :
    (record fields).Renders (.object members) (.object members') := by
  intro path a h ha
  cases path with
  | nil =>
    cases h
    exact iff_of_true ⟨_, rfl, trivial⟩ ⟨members, rfl⟩
  | cons step rest =>
    cases step with
    | item i => cases h
    | member name =>
      obtain ⟨x, hx, h⟩ := Option.bind_eq_some_iff.mp h
      rw [at?, Keeps]
      cases hfind : Index.find? name fields with
      | none =>
        rw [hunknown name hfind]
        exact iff_of_false (by rintro ⟨b, hb, -⟩; cases hb) (by rintro ⟨_, _, heq, -⟩; cases heq)
      | some shape =>
        obtain ⟨y, hy, hrenders⟩ :=
          hknown (name, shape) (Index.mem_of_find? hfind) x hx (ne_null_of_at? h ha)
        rw [hy, Option.bind_some, hrenders rest a h ha]
        constructor
        · exact fun hkeeps => ⟨shape, x, rfl, hx, hkeeps⟩
        · rintro ⟨_, _, ⟨⟩, hx', hkeeps⟩
          rwa [Option.some.inj (hx.symm.trans hx')]

theorem renders_whole_object
    (hall : ∀ name a, (object members).get? name = some a → a ≠ .null →
      ∃ b, (object members').get? name = some b ∧ whole.Renders a b) :
    whole.Renders (.object members) (.object members') := by
  intro path a h ha
  refine iff_of_true ?_ (by cases path <;> trivial)
  cases path with
  | nil =>
    cases h
    exact ⟨_, rfl, trivial⟩
  | cons step rest =>
    cases step with
    | item i => cases h
    | member name =>
      obtain ⟨x, hx, h⟩ := Option.bind_eq_some_iff.mp h
      obtain ⟨y, hy, hrenders⟩ := hall name x hx (ne_null_of_at? h ha)
      rw [at?, hy, Option.bind_some]
      exact (hrenders rest a h ha).mpr (by cases rest <;> trivial)

theorem renders_list (hitems : List.Forall₂ shape.Renders items items') :
    (list shape).Renders (.array items) (.array items') := by
  intro path a h ha
  cases path with
  | nil =>
    cases h
    exact iff_of_true ⟨_, rfl, hitems.length_eq⟩ trivial
  | cons step rest =>
    cases step with
    | member name => cases h
    | item i =>
      obtain ⟨x, hx, h⟩ := Option.bind_eq_some_iff.mp h
      obtain ⟨hi, rfl⟩ := List.getElem?_eq_some_iff.mp hx
      have hi' : i < items'.length := hitems.length_eq ▸ hi
      have hrenders : shape.Renders items[i] items'[i] := hitems.get hi hi'
      rw [at?, List.getElem?_eq_getElem hi', Option.bind_some, hrenders rest a h ha, Keeps]
      constructor
      · exact fun hkeeps => ⟨_, hx, hkeeps⟩
      · rintro ⟨x, hx', hkeeps⟩
        rwa [Option.some.inj (hx.symm.trans hx')]

end Shape

/-! ## Readers and writers -/

/-- What is written of a thing that was read keeps so much of the value it was read from. -/
def Carries (read : Json → Option α) (write : α → Json) (shape : Shape) : Prop :=
  ∀ v a, read v = some a → shape.Renders v (write a)

theorem carries_text : Carries text? .string .whole := by
  intro v s h
  cases v with
  | string s' => cases h; exact Shape.renders_same _
  | _ => cases h

theorem carries_flag : Carries flag? .bool .whole := by
  intro v b h
  cases v with
  | bool b' => cases h; exact Shape.renders_same _
  | _ => cases h

theorem carries_signed64 : Carries signed64? ofInt .whole := by
  intro v n h
  obtain ⟨rfl, -⟩ := integer?_eq_some_iff.mp h
  exact Shape.renders_same _

theorem carries_target : Carries TargetId.ofJson? TargetId.toJson .whole := by
  intro v id h
  obtain ⟨text, htext, rfl⟩ := Option.map_eq_some_iff.mp h
  exact carries_text v text htext

theorem carries_list {read : Json → Option α} {write : α → Json} {shape : Shape}
    (h : Carries read write shape) : Carries (list? read) (ofList write) (.list shape) := by
  intro v as hv
  obtain ⟨items, rfl, hitems⟩ := list?_eq_some_iff.mp hv
  exact Shape.renders_list (List.forall₂_map_right_iff.mpr (hitems.imp fun j a => h j a))

theorem carries_texts : Carries (list? text?) ofTexts .whole := by
  intro v texts hv
  obtain ⟨items, rfl, hitems⟩ := list?_eq_some_iff.mp hv
  have hsame : items = texts.map .string := by
    rw [← List.forall₂_eq_eq_eq, List.forall₂_map_right_iff]
    refine hitems.imp fun j s hj => ?_
    cases j with
    | string s' => exact congrArg Json.string (Option.some.inj hj)
    | _ => cases hj
  rw [hsame]
  exact Shape.renders_same _

/-! ## Fields -/

/-- What is written under a name keeps so much of the member of this name, unless that is `null`. -/
def CarriesMember (members : List (String × Json)) (name : String) (shape : Shape)
    (written : List (String × Json)) : Prop :=
  ∀ v, (object members).get? name = some v → v ≠ .null →
    ∃ w, (object written).get? name = some w ∧ shape.Renders v w

theorem get?_of_next {members : List (String × Json)} {name : String} {o : Option Json}
    {f : Fields Json} (h : (Fields.named members).next name = some (o, f)) :
    (object members).get? name = o := by
  rw [get?, ← List.head?_filter, List.filter_reverse]
  rw [Fields.next] at h
  split at h
  · next hnone => cases h; rw [hnone]; rfl
  · next m hone => cases h; rw [hone]; rfl
  · cases h

theorem eq_named_of_required {read : Json → Option α} {members : List (String × Json)}
    {name : String} {a : α} {f : Fields Json}
    (hf : (Fields.named members).required name read = some (a, f)) : f = .named members := by
  rw [Fields.required] at hf
  split at hf
  · next hnext =>
    obtain ⟨b, -, hbf⟩ := Option.map_eq_some_iff.mp hf
    cases hbf
    exact Fields.next_named hnext
  · cases hf

/-- A field that is taken as it stands. -/
theorem eq_of_optional_self {members : List (String × Json)} {name : String} {v : Json}
    {o : Option Json} {f : Fields Json} (hv : (object members).get? name = some v)
    (hf : (Fields.named members).optional name (some ∘ some) = some (o, f)) : o = some v := by
  rw [Fields.optional] at hf
  split at hf
  · next hnext =>
    cases hf
    exact (get?_of_next hnext).symm.trans hv
  · next hnext => cases hv.symm.trans (get?_of_next hnext)
  · cases hf

namespace Carries

variable {read : Json → Option α} {write : α → Json} {shape : Shape} (h : Carries read write shape)
  {name : String} {members : List (String × Json)} {f : Fields Json}

include h

theorem required {a : α} (hf : (Fields.named members).required name read = some (a, f)) :
    f = .named members ∧ CarriesMember members name shape [(name, write a)] := by
  rw [Fields.required] at hf
  split at hf
  · next v rest hnext =>
    obtain ⟨b, hb, hbf⟩ := Option.map_eq_some_iff.mp hf
    cases hbf
    refine ⟨Fields.next_named hnext, fun v' hv' _ => ⟨write a, by simp [get?], ?_⟩⟩
    rw [get?_of_next hnext] at hv'
    exact h v' a (Option.some.inj hv' ▸ hb)
  · cases hf

theorem optional {o : Option α}
    (hf : (Fields.named members).optional name (nullable? read) = some (o, f)) :
    f = .named members ∧ CarriesMember members name shape (memberOf name write o) := by
  rw [Fields.optional] at hf
  split at hf
  · next v rest hnext =>
    obtain ⟨b, hb, hbf⟩ := Option.map_eq_some_iff.mp hf
    cases hbf
    refine ⟨Fields.next_named hnext, fun v' hv' hgiven => ?_⟩
    rw [get?_of_next hnext] at hv'
    cases hv'
    rw [nullable?_of_ne hgiven] at hb
    obtain ⟨a, ha, rfl⟩ := Option.map_eq_some_iff.mp hb
    exact ⟨write a, by simp [get?, memberOf], h v a ha⟩
  · next rest hnext =>
    split at hf
    · cases hf
    · cases hf
      refine ⟨Fields.next_named hnext, fun v' hv' _ => ?_⟩
      rw [get?_of_next hnext] at hv'
      cases hv'
  · cases hf

theorem defaulted {a default : α}
    (hf : (Fields.named members).defaulted name read default = some (a, f)) :
    f = .named members ∧ CarriesMember members name shape [(name, write a)] := by
  rw [Fields.defaulted] at hf
  split at hf
  · next v rest hnext =>
    obtain ⟨b, hb, hbf⟩ := Option.map_eq_some_iff.mp hf
    cases hbf
    refine ⟨Fields.next_named hnext, fun v' hv' _ => ⟨write a, by simp [get?], ?_⟩⟩
    rw [get?_of_next hnext] at hv'
    exact h v' a (Option.some.inj hv' ▸ hb)
  · next rest hnext =>
    cases hf
    refine ⟨Fields.next_named hnext, fun v' hv' _ => ?_⟩
    rw [get?_of_next hnext] at hv'
    cases hv'
  · cases hf

end Carries

/-! ## Records -/

@[simp]
theorem get?_append (members members' : List (String × Json)) (name : String) :
    (object (members ++ members')).get? name =
      ((object members').get? name).or ((object members).get? name) := by
  simp only [get?, List.reverse_append, List.find?_append]
  cases members'.reverse.find? fun m => m.1 == name <;> rfl

@[simp]
theorem get?_memberOf (name name' : String) (write : α → Json) (o : Option α) :
    (object (memberOf name write o)).get? name' = if name' = name then o.map write else none := by
  cases o with
  | none => exact (ite_self none).symm
  | some a => by_cases hname : name = name' <;> simp [get?, memberOf, hname, eq_comm (a := name')]

@[simp]
theorem get?_cons (name name' : String) (v : Json) (rest : List (String × Json)) :
    (object ((name, v) :: rest)).get? name' =
      ((object rest).get? name').or (if name' = name then some v else none) :=
  (get?_append [(name, v)] rest name').trans
    (congrArg _ (get?_memberOf name name' id (some v)))

@[simp]
theorem get?_nil (name : String) : (object []).get? name = none := rfl

theorem CarriesMember.among {members written all : List (String × Json)} {name : String}
    {shape : Shape} (h : CarriesMember members name shape written)
    (hget : (object all).get? name = (object written).get? name) :
    CarriesMember members name shape all := by
  intro v hv hgiven
  obtain ⟨w, hw, hrenders⟩ := h v hv hgiven
  exact ⟨w, hget.trans hw, hrenders⟩

/-- **A record that knows its members** keeps those that it knows, if it is given by names. -/
theorem carries_record {ofFields : Fields Json → Option (α × Fields Json)} {write : α → Json}
    (members : α → List (String × Json)) {fields : List (String × Shape)}
    (hwrite : ∀ a, write a = .object (members a))
    (hknown : ∀ given a f, ofFields (.named given) = some (a, f) →
      ∀ e ∈ fields, CarriesMember given e.1 e.2 (members a))
    (hunknown : ∀ a name, name ∉ fields.map (·.1) → (object (members a)).get? name = none) :
    Carries (record? ofFields) write (.record fields) := by
  intro v a hv
  rw [hwrite]
  rcases fields_of_record? hv with ⟨given, f, rfl, hf⟩ | ⟨items, f, rfl, hf⟩
  · exact Shape.renders_object (hknown given a f hf)
      fun name hname => hunknown a name (Index.find?_eq_none_iff.mp hname)
  · exact Shape.renders_listed

/-- **A record that carries members along** keeps everything. -/
theorem renders_others {given members : List (String × Json)} {depth : Nat} {known : List String}
    {others : Index String Json} (hothers : others? depth known given = some others)
    (hknown : ∀ name ∈ known, CarriesMember given name .whole members) :
    Shape.whole.Renders (.object given) (.object (members ++ others.entries)) := by
  refine Shape.renders_whole_object fun name v hv hgiven => ?_
  rw [get?_append, get?_others hothers]
  split
  · next hname => exact hknown name hname v hv hgiven
  · exact ⟨v.canonical, by rw [hv]; rfl, Shape.renders_canonical v⟩

/-! ## Breakpoints -/

/-- What is kept of a source. -/
def SourceDescriptor.shape : Shape :=
  .record [("name", .whole), ("path", .whole), ("sourceReference", .whole)]

theorem SourceDescriptor.carries :
    Carries SourceDescriptor.ofJson? SourceDescriptor.toJson SourceDescriptor.shape := by
  refine carries_record _ (fun _ => rfl) (fun given s f h => ?_) fun s name hname => ?_
  · simp only [SourceDescriptor.ofFields, Option.bind_eq_bind, Option.bind_eq_some_iff, Prod.exists,
      Option.some.injEq, Prod.mk.injEq] at h
    obtain ⟨name, _, hname, path, _, hpath, reference, _, hreference, rfl, -⟩ := h
    obtain ⟨rfl, hname'⟩ := carries_text.optional hname
    obtain ⟨rfl, hpath'⟩ := carries_text.optional hpath
    obtain ⟨rfl, hreference'⟩ := carries_signed64.optional hreference
    simp only [List.forall_mem_cons]
    refine ⟨hname'.among ?_, hpath'.among ?_, hreference'.among ?_, List.forall_mem_nil _⟩ <;> simp
  · simp at hname
    simp [hname]

/-- What is kept of a breakpoint. -/
def SourceBreakpoint.shape : Shape :=
  .record [("line", .whole), ("column", .whole), ("condition", .whole), ("hitCondition", .whole),
    ("logMessage", .whole)]

theorem SourceBreakpoint.carries :
    Carries SourceBreakpoint.ofJson? SourceBreakpoint.toJson SourceBreakpoint.shape := by
  refine carries_record _ (fun _ => rfl) (fun given b f h => ?_) fun b name hname => ?_
  · simp only [SourceBreakpoint.ofFields, Option.bind_eq_bind, Option.bind_eq_some_iff, Prod.exists,
      Option.some.injEq, Prod.mk.injEq] at h
    obtain ⟨line, _, hline, column, _, hcolumn, condition, _, hcondition, hits, _, hhits, text, _,
      htext, rfl, -⟩ := h
    obtain ⟨rfl, hline'⟩ := carries_signed64.required hline
    obtain ⟨rfl, hcolumn'⟩ := carries_signed64.optional hcolumn
    obtain ⟨rfl, hcondition'⟩ := carries_text.optional hcondition
    obtain ⟨rfl, hhits'⟩ := carries_text.optional hhits
    obtain ⟨rfl, htext'⟩ := carries_text.optional htext
    simp only [List.forall_mem_cons]
    refine ⟨hline'.among ?_, hcolumn'.among ?_, hcondition'.among ?_, hhits'.among ?_,
      htext'.among ?_, List.forall_mem_nil _⟩ <;> simp
  · simp at hname
    simp [hname]

/-- What is kept of the breakpoints of a source. -/
def SetBreakpoints.shape : Shape :=
  .record [("source", SourceDescriptor.shape), ("breakpoints", .list SourceBreakpoint.shape),
    ("sourceModified", .whole)]

theorem SetBreakpoints.carries :
    Carries SetBreakpoints.ofJson? SetBreakpoints.toJson SetBreakpoints.shape := by
  refine carries_record _ (fun _ => rfl) (fun given b f h => ?_) fun b name hname => ?_
  · simp only [SetBreakpoints.ofFields, Option.bind_eq_bind, Option.bind_eq_some_iff, Prod.exists,
      Option.some.injEq, Prod.mk.injEq] at h
    obtain ⟨source, _, hsource, breakpoints, _, hbreakpoints, modified, _, hmodified, rfl, -⟩ := h
    obtain ⟨rfl, hsource'⟩ := SourceDescriptor.carries.required hsource
    obtain ⟨rfl, hbreakpoints'⟩ := (carries_list SourceBreakpoint.carries).defaulted hbreakpoints
    obtain ⟨rfl, hmodified'⟩ := carries_flag.optional hmodified
    simp only [List.forall_mem_cons]
    refine ⟨hsource'.among ?_, hbreakpoints'.among ?_, hmodified'.among ?_, List.forall_mem_nil _⟩
      <;> simp
  · simp at hname
    simp [hname]

/-- What is kept of a filter of exceptions. -/
def ExceptionFilter.shape : Shape :=
  .record [("filterId", .whole), ("condition", .whole)]

theorem ExceptionFilter.carries :
    Carries ExceptionFilter.ofJson? ExceptionFilter.toJson ExceptionFilter.shape := by
  refine carries_record _ (fun _ => rfl) (fun given x f h => ?_) fun x name hname => ?_
  · simp only [ExceptionFilter.ofFields, Option.bind_eq_bind, Option.bind_eq_some_iff, Prod.exists,
      Option.some.injEq, Prod.mk.injEq] at h
    obtain ⟨id, _, hid, condition, _, hcondition, rfl, -⟩ := h
    obtain ⟨rfl, hid'⟩ := carries_text.required hid
    obtain ⟨rfl, hcondition'⟩ := carries_text.optional hcondition
    simp only [List.forall_mem_cons]
    refine ⟨hid'.among ?_, hcondition'.among ?_, List.forall_mem_nil _⟩ <;> simp
  · simp at hname
    simp [hname]

/-- What is kept of the choice of exceptions. -/
def SetExceptionBreakpoints.shape : Shape :=
  .record [("filters", .whole), ("filterOptions", .list ExceptionFilter.shape)]

theorem SetExceptionBreakpoints.carries :
    Carries SetExceptionBreakpoints.ofJson? SetExceptionBreakpoints.toJson
      SetExceptionBreakpoints.shape := by
  refine carries_record _ (fun _ => rfl) (fun given x f h => ?_) fun x name hname => ?_
  · simp only [SetExceptionBreakpoints.ofFields, Option.bind_eq_bind, Option.bind_eq_some_iff,
      Prod.exists, Option.some.injEq, Prod.mk.injEq] at h
    obtain ⟨filters, _, hfilters, options, _, hoptions, rfl, -⟩ := h
    obtain ⟨rfl, hfilters'⟩ := carries_texts.defaulted hfilters
    obtain ⟨rfl, hoptions'⟩ := (carries_list ExceptionFilter.carries).optional hoptions
    simp only [List.forall_mem_cons]
    refine ⟨hfilters'.among ?_, hoptions'.among ?_, List.forall_mem_nil _⟩ <;> simp
  · simp at hname
    simp [hname]

/-- What is kept of the choice of the runtime's own breakpoints. -/
def EnableCustomBreakpoints.shape : Shape :=
  .record [("ids", .whole)]

theorem EnableCustomBreakpoints.carries :
    Carries EnableCustomBreakpoints.ofJson? EnableCustomBreakpoints.toJson
      EnableCustomBreakpoints.shape := by
  refine carries_record _ (fun _ => rfl) (fun given x f h => ?_) fun x name hname => ?_
  · simp only [EnableCustomBreakpoints.ofFields, Option.bind_eq_bind, Option.bind_eq_some_iff,
      Prod.exists, Option.some.injEq, Prod.mk.injEq] at h
    obtain ⟨ids, _, hids, rfl, -⟩ := h
    obtain ⟨rfl, hids'⟩ := carries_texts.required hids
    simp only [List.forall_mem_cons]
    exact ⟨hids'.among (by simp), List.forall_mem_nil _⟩
  · simp at hname
    simp [hname]

/-! ## Records that carry members along -/

variable {depth : Nat}

theorem Initialize.carries : Carries (Initialize.ofJson? depth) Initialize.toJson .whole := by
  intro v a h
  cases v with
  | object given =>
    simp only [Initialize.ofJson?, Option.bind_eq_bind, Option.bind_eq_some_iff, Prod.exists,
      Option.some.injEq] at h
    obtain ⟨adapter, _, hadapter, client, _, hclient, lines, _, hlines, columns, _, hcolumns,
      supports, _, hsupports, others, hothers, rfl⟩ := h
    obtain ⟨rfl, hadapter'⟩ := carries_text.required hadapter
    obtain ⟨rfl, hclient'⟩ := carries_text.optional hclient
    obtain ⟨rfl, hlines'⟩ := carries_flag.optional hlines
    obtain ⟨rfl, hcolumns'⟩ := carries_flag.optional hcolumns
    obtain ⟨rfl, hsupports'⟩ := carries_flag.optional hsupports
    refine renders_others hothers ?_
    simp only [Initialize.known, List.forall_mem_cons]
    refine ⟨hadapter'.among ?_, hclient'.among ?_, hlines'.among ?_, hcolumns'.among ?_,
      hsupports'.among ?_, List.forall_mem_nil _⟩ <;> simp
  | _ => cases h

theorem Launch.carries : Carries (Launch.ofJson? depth) Launch.toJson .whole := by
  intro v a h
  cases v with
  | object given =>
    simp only [Launch.ofJson?, Option.bind_eq_bind, Option.bind_eq_some_iff, Prod.exists,
      Option.some.injEq] at h
    obtain ⟨target, _, htarget, others, hothers, rfl⟩ := h
    obtain ⟨-, htarget'⟩ := carries_target.optional htarget
    exact renders_others hothers (List.forall_mem_singleton.mpr (htarget'.among (by simp)))
  | _ => cases h

/-! ## Requests -/

/-- What is kept of the arguments of a request. -/
def Command.shape : Command → Shape
  | .initialization | .launch | .attach | .configurationDone => .whole
  | .setExceptionBreakpoints => SetExceptionBreakpoints.shape
  | .setBreakpoints => SetBreakpoints.shape
  | .enableCustomBreakpoints => EnableCustomBreakpoints.shape

namespace Request

variable {r : Request} {command : Command} {members args : List (String × Json)}

theorem renders_of_ofArguments? (h : ofArguments? depth (.object args) command = some r) :
    r.command = command ∧ ∃ w, r.arguments? = some w ∧ command.shape.Renders (.object args) w := by
  cases command with
  | initialization =>
    obtain ⟨a, ha, rfl⟩ := Option.map_eq_some_iff.mp h
    exact ⟨rfl, _, rfl, Initialize.carries _ a ha⟩
  | setExceptionBreakpoints =>
    obtain ⟨a, ha, rfl⟩ := Option.map_eq_some_iff.mp h
    exact ⟨rfl, _, rfl, SetExceptionBreakpoints.carries _ a ha⟩
  | setBreakpoints =>
    obtain ⟨a, ha, rfl⟩ := Option.map_eq_some_iff.mp h
    exact ⟨rfl, _, rfl, SetBreakpoints.carries _ a ha⟩
  | enableCustomBreakpoints =>
    obtain ⟨a, ha, rfl⟩ := Option.map_eq_some_iff.mp h
    exact ⟨rfl, _, rfl, EnableCustomBreakpoints.carries _ a ha⟩
  | configurationDone => cases h
  | launch =>
    obtain ⟨a, ha, rfl⟩ := Option.map_eq_some_iff.mp h
    exact ⟨rfl, _, rfl, Launch.carries _ a ha⟩
  | attach =>
    obtain ⟨a, ha, rfl⟩ := Option.map_eq_some_iff.mp h
    exact ⟨rfl, _, rfl, Launch.carries _ a ha⟩

theorem get?_toJson (r : Request) : r.toJson.get? "arguments" = r.arguments? := by
  rw [toJson, get?_append, get?_memberOf, get?_cons, get?_nil]
  simp

/-- **What a request brings back of its arguments.**  What is written of a request has, at the end
of a way into its arguments, what stood there, exactly if the way is one that the command keeps.  An
`initialize`, a `launch` and an `attach` keep every way; the others keep those that go by known
names from record to record, each given by names itself. -/
theorem kept_iff (h : Request.ofJson? depth (.object members) = some r)
    (hargs : (Json.object members).get? "arguments" = some (.object args)) :
    ∃ written, r.toJson.get? "arguments" = some written ∧
      ∀ path a, (Json.object args).at? path = some a → a ≠ .null →
        ((∃ b, written.at? path = some b ∧ a.SameValue b) ↔
          r.command.shape.Keeps path (.object args)) := by
  have h : ofMembers? (depth - 1) members = some r := h
  simp only [ofMembers?, Option.bind_eq_bind, Option.bind_eq_some_iff, Prod.exists] at h
  obtain ⟨command, f, hcommand, given, f', hgiven, h⟩ := h
  obtain rfl := eq_named_of_required hcommand
  obtain rfl := eq_of_optional_self hargs hgiven
  simp only at h
  split at h
  · obtain ⟨rfl, written, hwritten, hrenders⟩ := renders_of_ofArguments? h
    exact ⟨written, (get?_toJson r).trans hwritten, hrenders⟩
  · cases h

/-- A source that carries data of the adapter's, and a breakpoint in it with a mode. -/
def detailed : List (String × Json) :=
  [("source", .object [("path", .string "/a.js"), ("adapterData", .number (.int 7))]),
    ("breakpoints", .array [.object [("line", .number (.int 3)), ("mode", .string "x")]])]

/-- The request for it. -/
def detailedMembers : List (String × Json) :=
  [("command", .string "setBreakpoints"), ("arguments", .object detailed)]

/-- The request as it is known here. -/
def plain : Request :=
  .setBreakpoints ⟨⟨none, some "/a.js", none⟩, [⟨3, none, none, none, none⟩], none⟩

/-- The path of the source comes back, and the adapter's data do not. -/
theorem kept_iff_detailed : ∃ written, plain.toJson.get? "arguments" = some written ∧
    (∃ b, written.at? [.member "source", .member "path"] = some b ∧
      (Json.string "/a.js").SameValue b) ∧
    ¬ ∃ b, written.at? [.member "source", .member "adapterData"] = some b ∧
      (Json.number (.int 7)).SameValue b := by
  have hread : Request.ofJson? nestingLimit (.object detailedMembers) = some plain := by rfl
  obtain ⟨written, hwritten, hkept⟩ := kept_iff hread rfl
  refine ⟨written, hwritten, (hkept _ _ rfl (by simp)).mpr ?_, fun hlost => ?_⟩
  · exact ⟨_, _, rfl, rfl, _, _, rfl, rfl, trivial⟩
  · obtain ⟨source, a, hsource, -, hdeeper⟩ := (hkept _ _ rfl (by simp)).mp hlost
    cases hsource
    obtain ⟨data, b, hdata, -⟩ := hdeeper
    cases hdata

/-- Members that the records do not know are there in the request and are not there in what is
written of it. -/
theorem unknown_members_lost :
    Request.ofJson? nestingLimit (.object detailedMembers) = some plain ∧
    (Json.object detailedMembers).at?
      [.member "arguments", .member "source", .member "adapterData"] = some (.number (.int 7)) ∧
    plain.toJson.at? [.member "arguments", .member "source", .member "adapterData"] = none ∧
    (Json.object detailedMembers).at? [.member "arguments", .member "breakpoints", .item 0,
      .member "mode"] = some (.string "x") ∧
    plain.toJson.at? [.member "arguments", .member "breakpoints", .item 0, .member "mode"] = none :=
  ⟨rfl, rfl, rfl, rfl, rfl⟩

end Request
end Protocol
end DebugTree
