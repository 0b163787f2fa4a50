import DebugTree.Protocol.Names
import DebugTree.SkipBus

/-!
# Toggling the skipping of a file

The editor names a file by its URL or path, or by the number of a loaded source; nothing in the
message says which of the two it is, so the first reading that fits is taken.  The answer is
tagged by its `status`.
-/

namespace DebugTree
namespace Protocol

/-- Which file is to be toggled. -/
inductive ToggleRequest where
  /-- A URL or an absolute path. -/
  | resource (name : String)
  /-- A loaded source. -/
  | reference (number : SourceReference)
  deriving DecidableEq

namespace ToggleRequest

def ofMembers? (members : List (String × Json)) : Option ToggleRequest :=
  match (Fields.named members).required "resource" Json.text? with
  | some (name, _) => some (.resource name)
  | none => ((Fields.named members).required "sourceReference" Json.signed64?).map fun r =>
      .reference r.1

/-- The message is kept until a reading fits, so all of it has to be storable. -/
def ofJson? (depth : Nat) (j : Json) : Option ToggleRequest :=
  match j with
  | .object members => if j.storable depth then ofMembers? members else none
  | _ => none

def toJson : ToggleRequest → Json
  | .resource name => .object [("resource", .string name)]
  | .reference number => .object [("sourceReference", .ofInt number)]

end ToggleRequest

/-- What became of a toggle. -/
inductive ToggleOutcome where
  | toggled (url : String) (skipped : Bool)
  | notFound
  deriving DecidableEq

namespace ToggleOutcome

/-- The outcome with a status, given what stands beside the status. -/
def ofStatus? (status : String) (f : Fields Json) : Option ToggleOutcome :=
  match status with
  | "toggled" => do
    let (url, f) ← f.required "url" Json.text?
    let (skipped, f) ← f.required "skipped" Json.flag?
    if f.isDone then some (.toggled url skipped) else none
  | "notFound" => if f.isDone then some .notFound else none
  | _ => none

/-- What stands beside the status is kept until the status is known, so it has to be storable. -/
def ofJson? (depth : Nat) : Json → Option ToggleOutcome
  | .object members => do
    let (status, f) ← (Fields.named members).required "status" Json.text?
    if Json.membersStorable (depth - 1) members then ofStatus? status f else none
  | .array (.string status :: items) =>
    if Json.allStorable (depth - 1) items then ofStatus? status (.listed items) else none
  | _ => none

def toJson : ToggleOutcome → Json
  | .toggled url skipped =>
    .object [("status", .string "toggled"), ("url", .string url), ("skipped", .bool skipped)]
  | .notFound => .object [("status", .string "notFound")]

end ToggleOutcome
end Protocol

/-! ## The change that siblings hear of -/

namespace SkipToggled

def ofFields (f : Fields Json) : Option (SkipToggled × Fields Json) := do
  let (root, f) ← f.required "rootSessionId" TargetId.ofJson?
  let (origin, f) ← f.required "originSessionId" TargetId.ofJson?
  let (url, f) ← f.required "url" Json.text?
  let (skipped, f) ← f.required "skipped" Json.flag?
  some (⟨root, origin, url, skipped⟩, f)

def ofJson? : Json → Option SkipToggled :=
  Json.record? ofFields

def toJson (e : SkipToggled) : Json :=
  .object [("rootSessionId", e.root.toJson), ("originSessionId", e.origin.toJson),
    ("url", .string e.url), ("skipped", .bool e.skipped)]

end SkipToggled
end DebugTree
