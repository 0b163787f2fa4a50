import DebugTree.Identity
import DebugTree.Text.Quoted

/-!
# What can go wrong

Each fault names its cause; the wording is in `message`, in one place.  Faults of order (a
terminal request too early, too often, or for nobody) mean that the editor or the runtime broke
its contract.  These are `isFatal`: the session cannot go on, and answering one request with an
error would hide it.  Collaborators word their own faults, so those carry a text.
-/

namespace DebugTree

/-- The two requests that end the traffic before a launch. -/
inductive LaunchKind where
  | launch
  | attach
  deriving DecidableEq

/-- The kind as a capitalised word. -/
def LaunchKind.word : LaunchKind → String
  | .launch => "Launch"
  | .attach => "Attach"

/-- Where the session of a target stands in its handshake. -/
inductive SessionState where
  /-- Requested, and no connection has come for it. -/
  | pendingAcquire
  /-- A connection has come, and its traffic has not been replayed. -/
  | matched
  /-- The adapter has the traffic and the launch has been answered. -/
  | initialized
  deriving DecidableEq

/-- The state as a capitalised word. -/
def SessionState.word : SessionState → String
  | .pendingAcquire => "PendingAcquire"
  | .matched => "Matched"
  | .initialized => "Initialized"

/-- How the order of requests can be broken. -/
inductive ProtocolFault where
  /-- A terminal request came on a connection that never said `initialize`. -/
  | terminalBeforeInitialize (kind : LaunchKind) (connection : ConnectionId)
  /-- A terminal request does not say which target it is for. -/
  | untagged (connection : ConnectionId)
  /-- A handshake is completed for a target without `initialize`. -/
  | launchBeforeInitialize (target : TargetId)
  /-- A second connection claims a target. -/
  | alreadyConnected (target : TargetId) (state : SessionState)
  /-- A fault reported in words. -/
  | report (text : String)
  deriving DecidableEq

/-- What a configuration can get wrong, beyond its types. -/
inductive ConfigFault where
  | debounceOutOfRange (limit value : Nat)
  | emptyDebugType
  | emptySkipGlob (glob : String)
  | unknownPathCase (text : String)
  /-- The process already writes its log somewhere. -/
  | loggingInstalled
  | report (text : String)
  deriving DecidableEq

/-- A fault, by cause. -/
inductive Fault where
  | protocol (cause : ProtocolFault)
  | unknownPendingTarget (target : TargetId)
  | unknownTarget (target : TargetId)
  | duplicateTarget (target : TargetId)
  | sessionRejected (target : TargetId) (reason : String)
  | invalidGlob (glob reason : String)
  | inspector (text : String)
  | connection (text : String)
  | config (cause : ConfigFault)
  | io (text : String)
  | toml (text : String)
  | json (text : String)
  | other (text : String)
  deriving DecidableEq

/-! ## Wording -/

def ProtocolFault.message : ProtocolFault → String
  | .terminalBeforeInitialize kind connection =>
    kind.word ++ " received before initialize on connection " ++ connection.text
  | .untagged connection =>
    "terminal request on connection " ++ connection.text ++ " carries no target tag"
  | .launchBeforeInitialize target =>
    "launch received before initialize for target " ++ target.text
  | .alreadyConnected target state =>
    "target " ++ target.text ++ " already has a connection (" ++ state.word ++ ")"
  | .report text => text

def ConfigFault.message : ConfigFault → String
  | .debounceOutOfRange limit value =>
    "pattern_debounce_ms must be within 1..=" ++ toString limit ++ ", got " ++ toString value
  | .emptyDebugType => "debug_type must not be empty"
  | .emptySkipGlob glob => "Empty skip glob: " ++ Text.quoted glob
  | .unknownPathCase text =>
    "Invalid path case '" ++ text ++ "'. Must be one of: auto, sensitive, insensitive"
  | .loggingInstalled =>
    "Failed to initialize logging: a global default trace dispatcher has already been set"
  | .report text => text

/-- The text of a fault as it is shown. -/
def Fault.message : Fault → String
  | .protocol cause => "Protocol error: " ++ cause.message
  | .unknownPendingTarget target => "No pending session for target " ++ target.text
  | .unknownTarget target => "Unknown target: " ++ target.text
  | .duplicateTarget target => "Target already exists: " ++ target.text
  | .sessionRejected target reason =>
    "Session for target " ++ target.text ++ " was rejected: " ++ reason
  | .invalidGlob glob reason => "Invalid glob " ++ Text.quoted glob ++ ": " ++ reason
  | .inspector text => "Inspector error: " ++ text
  | .connection text => "Connection error: " ++ text
  | .config cause => "Configuration error: " ++ cause.message
  | .io text => "IO error: " ++ text
  | .toml text => "TOML error: " ++ text
  | .json text => "Serialization error: " ++ text
  | .other text => text

/-- The editor or the runtime broke its contract. -/
def Fault.isFatal : Fault → Bool
  | .protocol _ | .unknownPendingTarget _ => true
  | _ => false

end DebugTree
