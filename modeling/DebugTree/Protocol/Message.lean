import DebugTree.Protocol.Places
import DebugTree.Protocol.Request
import DebugTree.Protocol.Toggle

/-!
# Messages

Some messages are only read here, and some only written.  Those that are both can be passed on, and
each of them has a type of its own.
-/

namespace DebugTree
namespace Protocol

/-- The messages that are both read and written. -/
inductive MessageType where
  | initialization
  | setBreakpoints
  | setExceptionBreakpoints
  | enableCustomBreakpoints
  | launch
  | request
  | nestedSession
  | startDebugging
  | breakpoint
  | toggleRequest
  | toggleOutcome
  | position

namespace MessageType

/-- What a message of this type says. -/
def Content : MessageType → Type
  | .initialization => Initialize
  | .setBreakpoints => SetBreakpoints
  | .setExceptionBreakpoints => SetExceptionBreakpoints
  | .enableCustomBreakpoints => EnableCustomBreakpoints
  | .launch => Launch
  | .request => Request
  | .nestedSession => NestedSession
  | .startDebugging => StartDebugging
  | .breakpoint => Breakpoint
  | .toggleRequest => ToggleRequest
  | .toggleOutcome => ToggleOutcome
  | .position => Position

/-- The message that a value stands for, read with so much room for open containers. -/
def read (depth : Nat) : (T : MessageType) → Json → Option T.Content
  | .initialization => Initialize.ofJson? depth
  | .setBreakpoints => SetBreakpoints.ofJson?
  | .setExceptionBreakpoints => SetExceptionBreakpoints.ofJson?
  | .enableCustomBreakpoints => EnableCustomBreakpoints.ofJson?
  | .launch => Launch.ofJson? depth
  | .request => Request.ofJson? depth
  | .nestedSession => NestedSession.ofJson? depth
  | .startDebugging => StartDebugging.ofJson? depth
  | .breakpoint => Breakpoint.ofJson?
  | .toggleRequest => ToggleRequest.ofJson? depth
  | .toggleOutcome => ToggleOutcome.ofJson? depth
  | .position => Position.ofJson?

/-- The value that is written for a message. -/
def write : (T : MessageType) → T.Content → Json
  | .initialization => Initialize.toJson
  | .setBreakpoints => SetBreakpoints.toJson
  | .setExceptionBreakpoints => SetExceptionBreakpoints.toJson
  | .enableCustomBreakpoints => EnableCustomBreakpoints.toJson
  | .launch => Launch.toJson
  | .request => Request.toJson
  | .nestedSession => NestedSession.toJson
  | .startDebugging => StartDebugging.toJson
  | .breakpoint => Breakpoint.toJson
  | .toggleRequest => ToggleRequest.toJson
  | .toggleOutcome => ToggleOutcome.toJson
  | .position => Position.toJson

end MessageType
end Protocol
end DebugTree
