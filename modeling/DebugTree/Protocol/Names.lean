import DebugTree.Fault
import DebugTree.Json.Member
import DebugTree.PathCase
import DebugTree.Target.Tree
import DebugTree.Text.Uuid

/-!
# Names and words in messages

A name is written as its text.  A word out of a fixed list is written as that word, with the
spelling that messages use.
-/

namespace DebugTree

/-! ## Names -/

def TargetId.ofJson? (j : Json) : Option TargetId :=
  j.text?.map TargetId.mk

def TargetId.toJson (id : TargetId) : Json :=
  .string id.text

def ScriptId.ofJson? (j : Json) : Option ScriptId :=
  j.text?.map ScriptId.mk

def ScriptId.toJson (id : ScriptId) : Json :=
  .string id.text

/-- A connection is named by a universally unique identifier, kept in its written form. -/
def ConnectionId.ofJson? (j : Json) : Option ConnectionId :=
  (j.text?.bind Text.uuid?).map ConnectionId.mk

def ConnectionId.toJson (id : ConnectionId) : Json :=
  .string id.text

/-! ## Words -/

def TargetKind.ofJson? : Json → Option TargetKind :=
  Json.word? TargetKind.ofWord?

def TargetKind.toJson (k : TargetKind) : Json :=
  .string k.word

namespace LaunchKind

/-- The name of the request. -/
def command : LaunchKind → String
  | .launch => "launch"
  | .attach => "attach"

def ofCommand? : String → Option LaunchKind
  | "launch" => some .launch
  | "attach" => some .attach
  | _ => none

def ofJson? : Json → Option LaunchKind :=
  Json.word? ofCommand?

def toJson (k : LaunchKind) : Json :=
  .string k.command

end LaunchKind

namespace SessionState

/-- The state as messages spell it. -/
def label : SessionState → String
  | .pendingAcquire => "pendingAcquire"
  | .matched => "matched"
  | .initialized => "initialized"

def ofLabel? : String → Option SessionState
  | "pendingAcquire" => some .pendingAcquire
  | "matched" => some .matched
  | "initialized" => some .initialized
  | _ => none

def ofJson? : Json → Option SessionState :=
  Json.word? ofLabel?

def toJson (s : SessionState) : Json :=
  .string s.label

end SessionState

namespace PathCase

/-- The case rule that is spelled exactly so. -/
def ofWord? : String → Option PathCase
  | "auto" => some .auto
  | "sensitive" => some .sensitive
  | "insensitive" => some .insensitive
  | _ => none

def ofJson? : Json → Option PathCase :=
  Json.word? ofWord?

def toJson (c : PathCase) : Json :=
  .string c.word

end PathCase
end DebugTree
