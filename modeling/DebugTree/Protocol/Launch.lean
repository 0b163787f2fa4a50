import DebugTree.Protocol.Names

/-!
# Starting a session

The records that start a session name a few members and carry every other one along as it is, so
that what the editor said to the multiplexer can be said again to an adapter.  Such a record is
always written with names, never as a list.

A reader takes a *depth*: how many containers may be open inside one another from here on.  Only
the members that are carried along need it.
-/

namespace DebugTree
namespace Protocol

/-- What an editor says about itself when it connects. -/
structure Initialize where
  adapter : String
  client : Option String
  linesStartAtOne : Option Bool
  columnsStartAtOne : Option Bool
  supportsStartDebugging : Option Bool
  others : Index String Json

namespace Initialize

def known : List String :=
  ["adapterID", "clientID", "linesStartAt1", "columnsStartAt1", "supportsStartDebuggingRequest"]

def ofJson? (depth : Nat) : Json → Option Initialize
  | .object members => do
    let f := Fields.named members
    let (adapter, f) ← f.required "adapterID" Json.text?
    let (client, f) ← f.optional "clientID" (Json.nullable? Json.text?)
    let (lines, f) ← f.optional "linesStartAt1" (Json.nullable? Json.flag?)
    let (columns, f) ← f.optional "columnsStartAt1" (Json.nullable? Json.flag?)
    let (supports, _) ← f.optional "supportsStartDebuggingRequest" (Json.nullable? Json.flag?)
    let others ← Json.others? (depth - 1) known members
    some ⟨adapter, client, lines, columns, supports, others⟩
  | _ => none

def toJson (a : Initialize) : Json :=
  .object ([("adapterID", .string a.adapter)] ++ Json.memberOf "clientID" .string a.client ++
    Json.memberOf "linesStartAt1" .bool a.linesStartAtOne ++
    Json.memberOf "columnsStartAt1" .bool a.columnsStartAtOne ++
    Json.memberOf "supportsStartDebuggingRequest" .bool a.supportsStartDebugging ++
    a.others.entries)

end Initialize

/-- The member that says which target a session is for. -/
def targetTag : String := "__pendingTargetId"

/-- The arguments of the request that ends the traffic before a launch. -/
structure Launch where
  /-- The target that the session was asked for. -/
  target : Option TargetId
  others : Index String Json

namespace Launch

def ofJson? (depth : Nat) : Json → Option Launch
  | .object members => do
    let (target, _) ← (Fields.named members).optional targetTag (Json.nullable? TargetId.ofJson?)
    let others ← Json.others? (depth - 1) [targetTag] members
    some ⟨target, others⟩
  | _ => none

def toJson (a : Launch) : Json :=
  .object (Json.memberOf targetTag TargetId.toJson a.target ++ a.others.entries)

end Launch

/-- The session that the editor is asked to start for a target. -/
structure NestedSession where
  debugType : String
  name : String
  target : TargetId
  others : Index String Json

namespace NestedSession

def known : List String :=
  ["type", "name", targetTag]

def ofJson? (depth : Nat) : Json → Option NestedSession
  | .object members => do
    let f := Fields.named members
    let (debugType, f) ← f.required "type" Json.text?
    let (name, f) ← f.required "name" Json.text?
    let (target, _) ← f.required targetTag TargetId.ofJson?
    let others ← Json.others? (depth - 1) known members
    some ⟨debugType, name, target, others⟩
  | _ => none

def toJson (s : NestedSession) : Json :=
  .object ([("type", .string s.debugType), ("name", .string s.name),
    (targetTag, s.target.toJson)] ++ s.others.entries)

end NestedSession

/-- The request for a nested session, sent to the editor. -/
structure StartDebugging where
  kind : LaunchKind
  session : NestedSession

namespace StartDebugging

def ofFields (depth : Nat) (f : Fields Json) : Option (StartDebugging × Fields Json) := do
  let (kind, f) ← f.required "request" LaunchKind.ofJson?
  let (session, f) ← f.required "configuration" (NestedSession.ofJson? (depth - 1))
  some (⟨kind, session⟩, f)

def ofJson? (depth : Nat) : Json → Option StartDebugging :=
  Json.record? (ofFields depth)

def toJson (a : StartDebugging) : Json :=
  .object [("request", a.kind.toJson), ("configuration", a.session.toJson)]

end StartDebugging
end Protocol
end DebugTree
