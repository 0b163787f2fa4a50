import DebugTree.Protocol.Breakpoints
import DebugTree.Protocol.Launch

/-!
# Requests of an editor

A connection that has not said which target it is for may send these requests.  A request is
written as a command and its arguments, by names or as a list of the two.  Only
`configurationDone` has no arguments.

A reader that meets the arguments before the command has to keep them until it knows what they
are.  So they must be storable throughout in that case, and only in that one.
-/

namespace DebugTree
namespace Protocol

/-- The commands of the requests. -/
inductive Command where
  | initialization
  | setExceptionBreakpoints
  | setBreakpoints
  | enableCustomBreakpoints
  | configurationDone
  | launch
  | attach
  deriving DecidableEq

namespace Command

def word : Command → String
  | .initialization => "initialize"
  | .setExceptionBreakpoints => "setExceptionBreakpoints"
  | .setBreakpoints => "setBreakpoints"
  | .enableCustomBreakpoints => "enableCustomBreakpoints"
  | .configurationDone => "configurationDone"
  | .launch => "launch"
  | .attach => "attach"

def all : List Command :=
  [.initialization, .setExceptionBreakpoints, .setBreakpoints, .enableCustomBreakpoints,
   .configurationDone, .launch, .attach]

def ofWord? (w : String) : Option Command :=
  all.find? fun c => c.word == w

/-- The command ends the traffic before a launch. -/
def isTerminal : Command → Bool
  | .launch | .attach => true
  | _ => false

end Command

/-- A request with its arguments. -/
inductive Request where
  | initialization (args : Initialize)
  | setExceptionBreakpoints (args : SetExceptionBreakpoints)
  | setBreakpoints (args : SetBreakpoints)
  | enableCustomBreakpoints (args : EnableCustomBreakpoints)
  | configurationDone
  | launch (kind : LaunchKind) (args : Launch)

namespace Request

def command : Request → Command
  | .initialization _ => .initialization
  | .setExceptionBreakpoints _ => .setExceptionBreakpoints
  | .setBreakpoints _ => .setBreakpoints
  | .enableCustomBreakpoints _ => .enableCustomBreakpoints
  | .configurationDone => .configurationDone
  | .launch .launch _ => .launch
  | .launch .attach _ => .attach

/-! ## Reading -/

/-- The request of a command with these arguments. -/
def ofArguments? (depth : Nat) (args : Json) : Command → Option Request
  | .initialization => (Initialize.ofJson? depth args).map .initialization
  | .setExceptionBreakpoints =>
    (SetExceptionBreakpoints.ofJson? args).map .setExceptionBreakpoints
  | .setBreakpoints => (SetBreakpoints.ofJson? args).map .setBreakpoints
  | .enableCustomBreakpoints =>
    (EnableCustomBreakpoints.ofJson? args).map .enableCustomBreakpoints
  | .configurationDone => match args with
    | .null => some .configurationDone
    | _ => none
  | .launch => (Launch.ofJson? depth args).map (.launch .launch)
  | .attach => (Launch.ofJson? depth args).map (.launch .attach)

/-- The request of a command that comes without arguments. -/
def ofCommand? : Command → Option Request
  | .configurationDone => some .configurationDone
  | _ => none

/-- The command stands before the arguments. -/
def commandFirst (members : List (String × Json)) : Bool :=
  (members.find? fun m => m.1 == "command" || m.1 == "arguments").any fun m => m.1 == "command"

/-- The request that the members of an object make up. -/
def ofMembers? (depth : Nat) (members : List (String × Json)) : Option Request := do
  let (command, f) ← (Fields.named members).required "command" (Json.word? Command.ofWord?)
  let (args, _) ← f.optional "arguments" (some ∘ some)
  match args with
  | none => ofCommand? command
  | some args =>
    if commandFirst members || args.storable depth then ofArguments? depth args command else none

def ofJson? (depth : Nat) : Json → Option Request
  | .object members => ofMembers? (depth - 1) members
  | .array [command, args] =>
    (Json.word? Command.ofWord? command).bind (ofArguments? (depth - 1) args)
  | _ => none

/-! ## Writing -/

/-- The arguments of a request, if it has any. -/
def arguments? : Request → Option Json
  | .initialization args => some args.toJson
  | .setExceptionBreakpoints args => some args.toJson
  | .setBreakpoints args => some args.toJson
  | .enableCustomBreakpoints args => some args.toJson
  | .configurationDone => none
  | .launch _ args => some args.toJson

def toJson (r : Request) : Json :=
  .object ([("command", .string r.command.word)] ++ Json.memberOf "arguments" id r.arguments?)

end Request
end Protocol
end DebugTree
