/-!
# Fields of a record

A record is written either as members under names, in any order, or as a list of the values of
its fields in their own order.  One description of a record serves both: it asks for its fields
one after the other, and each question takes the field's value out of what is left.

## What may be missing

A *required* field has to be there.  An *optional* field may be left out under its name, but a
list has a place for it all the same.  A *defaulted* field may be left out of both.  A name that
is given twice spoils the record, and names that nobody asks for are passed over.
-/

namespace DebugTree

/-- What is left of a record that is being read. -/
inductive Fields (ν : Type) where
  /-- Values under names. -/
  | named (members : List (String × ν))
  /-- Values in the order of the fields. -/
  | listed (items : List ν)

namespace Fields

variable {ν α : Type}

/-- The value of the next field, if it is given, and what is left after it; nothing at all if its
name is given twice. -/
def next (name : String) : Fields ν → Option (Option ν × Fields ν)
  | .named members =>
    match members.filter fun m => m.1 == name with
    | [] => some (none, .named members)
    | [m] => some (some m.2, .named members)
    | _ => none
  | .listed [] => some (none, .listed [])
  | .listed (v :: rest) => some (some v, .listed rest)

/-- A list has come to its end. -/
def isExhausted : Fields ν → Bool
  | .listed [] => true
  | _ => false

/-- A field that has to be there. -/
def required (name : String) (read : ν → Option α) (f : Fields ν) : Option (α × Fields ν) :=
  match f.next name with
  | some (some v, rest) => (read v).map fun a => (a, rest)
  | _ => none

/-- A field that may be left out under its name. -/
def optional (name : String) (read : ν → Option (Option α)) (f : Fields ν) :
    Option (Option α × Fields ν) :=
  match f.next name with
  | some (some v, rest) => (read v).map fun a => (a, rest)
  | some (none, rest) => if f.isExhausted then none else some (none, rest)
  | none => none

/-- A field with a value of its own for when it is left out. -/
def defaulted (name : String) (read : ν → Option α) (default : α) (f : Fields ν) :
    Option (α × Fields ν) :=
  match f.next name with
  | some (some v, rest) => (read v).map fun a => (a, rest)
  | some (none, rest) => some (default, rest)
  | none => none

/-- Nothing was given beyond the fields. -/
def isDone : Fields ν → Bool
  | .listed (_ :: _) => false
  | _ => true

/-! ## Small laws -/

@[simp] theorem next_listed_cons (name : String) (v : ν) (rest : List ν) :
    (listed (v :: rest)).next name = some (some v, .listed rest) := rfl

@[simp] theorem next_listed_nil (name : String) :
    (listed ([] : List ν)).next name = some (none, .listed []) := rfl

/-- Asking members for a field leaves them as they are. -/
theorem next_named {name : String} {members : List (String × ν)} {v : Option ν} {f : Fields ν}
    (h : (named members).next name = some (v, f)) : f = named members := by
  simp only [next] at h
  split at h <;> simp_all

end Fields
end DebugTree
