import DebugTree.Identity
import DebugTree.Json.Member

/-!
# Breakpoints in messages

What the editor asks for before a target runs, and what it is told about it.  The records here
know their members: a member of another name is passed over when the record is read and is not
there when it is written.
-/

namespace DebugTree
namespace Protocol

/-- How the editor names a source: by a path, or by the number of a loaded source. -/
structure SourceDescriptor where
  name : Option String
  path : Option String
  reference : Option SourceReference
  deriving DecidableEq

namespace SourceDescriptor

def ofFields (f : Fields Json) : Option (SourceDescriptor × Fields Json) := do
  let (name, f) ← f.optional "name" (Json.nullable? Json.text?)
  let (path, f) ← f.optional "path" (Json.nullable? Json.text?)
  let (reference, f) ← f.optional "sourceReference" (Json.nullable? Json.signed64?)
  some (⟨name, path, reference⟩, f)

def ofJson? : Json → Option SourceDescriptor :=
  Json.record? ofFields

def toJson (s : SourceDescriptor) : Json :=
  .object (Json.memberOf "name" .string s.name ++ Json.memberOf "path" .string s.path ++
    Json.memberOf "sourceReference" .ofInt s.reference)

end SourceDescriptor

/-- A breakpoint that the editor asks for. -/
structure SourceBreakpoint where
  line : Int
  column : Option Int
  condition : Option String
  hitCondition : Option String
  logMessage : Option String
  deriving DecidableEq

namespace SourceBreakpoint

def ofFields (f : Fields Json) : Option (SourceBreakpoint × Fields Json) := do
  let (line, f) ← f.required "line" Json.signed64?
  let (column, f) ← f.optional "column" (Json.nullable? Json.signed64?)
  let (condition, f) ← f.optional "condition" (Json.nullable? Json.text?)
  let (hitCondition, f) ← f.optional "hitCondition" (Json.nullable? Json.text?)
  let (logMessage, f) ← f.optional "logMessage" (Json.nullable? Json.text?)
  some (⟨line, column, condition, hitCondition, logMessage⟩, f)

def ofJson? : Json → Option SourceBreakpoint :=
  Json.record? ofFields

def toJson (b : SourceBreakpoint) : Json :=
  .object ([("line", .ofInt b.line)] ++ Json.memberOf "column" .ofInt b.column ++
    Json.memberOf "condition" .string b.condition ++
    Json.memberOf "hitCondition" .string b.hitCondition ++
    Json.memberOf "logMessage" .string b.logMessage)

end SourceBreakpoint

/-- All breakpoints that the editor wants in one source. -/
structure SetBreakpoints where
  source : SourceDescriptor
  breakpoints : List SourceBreakpoint
  sourceModified : Option Bool
  deriving DecidableEq

namespace SetBreakpoints

def ofFields (f : Fields Json) : Option (SetBreakpoints × Fields Json) := do
  let (source, f) ← f.required "source" SourceDescriptor.ofJson?
  let (breakpoints, f) ← f.defaulted "breakpoints" (Json.list? SourceBreakpoint.ofJson?) []
  let (sourceModified, f) ← f.optional "sourceModified" (Json.nullable? Json.flag?)
  some (⟨source, breakpoints, sourceModified⟩, f)

def ofJson? : Json → Option SetBreakpoints :=
  Json.record? ofFields

def toJson (a : SetBreakpoints) : Json :=
  .object ([("source", a.source.toJson),
    ("breakpoints", Json.ofList SourceBreakpoint.toJson a.breakpoints)] ++
    Json.memberOf "sourceModified" .bool a.sourceModified)

end SetBreakpoints

/-- A breakpoint as the editor is told about it. -/
structure Breakpoint where
  id : Option BreakpointId
  verified : Bool
  message : Option String
  line : Option Int
  source : Option SourceDescriptor
  deriving DecidableEq

namespace Breakpoint

/-- The answer for a breakpoint that is asked for before there is a target. -/
def unverified (id : BreakpointId) (line : Int) (source : SourceDescriptor) : Breakpoint :=
  ⟨some id, false, none, some line, some source⟩

def ofFields (f : Fields Json) : Option (Breakpoint × Fields Json) := do
  let (id, f) ← f.optional "id" (Json.nullable? (Json.unsigned? 64))
  let (verified, f) ← f.required "verified" Json.flag?
  let (message, f) ← f.optional "message" (Json.nullable? Json.text?)
  let (line, f) ← f.optional "line" (Json.nullable? Json.signed64?)
  let (source, f) ← f.optional "source" (Json.nullable? SourceDescriptor.ofJson?)
  some (⟨id, verified, message, line, source⟩, f)

def ofJson? : Json → Option Breakpoint :=
  Json.record? ofFields

def toJson (b : Breakpoint) : Json :=
  .object (Json.memberOf "id" .ofNat b.id ++ [("verified", .bool b.verified)] ++
    Json.memberOf "message" .string b.message ++ Json.memberOf "line" .ofInt b.line ++
    Json.memberOf "source" SourceDescriptor.toJson b.source)

end Breakpoint

/-- A filter of exceptions, with the condition under which it applies. -/
structure ExceptionFilter where
  id : String
  condition : Option String
  deriving DecidableEq

namespace ExceptionFilter

def ofFields (f : Fields Json) : Option (ExceptionFilter × Fields Json) := do
  let (id, f) ← f.required "filterId" Json.text?
  let (condition, f) ← f.optional "condition" (Json.nullable? Json.text?)
  some (⟨id, condition⟩, f)

def ofJson? : Json → Option ExceptionFilter :=
  Json.record? ofFields

def toJson (x : ExceptionFilter) : Json :=
  .object ([("filterId", .string x.id)] ++ Json.memberOf "condition" .string x.condition)

end ExceptionFilter

/-- On which exceptions the editor wants to stop. -/
structure SetExceptionBreakpoints where
  filters : List String
  options : Option (List ExceptionFilter)
  deriving DecidableEq

namespace SetExceptionBreakpoints

def ofFields (f : Fields Json) : Option (SetExceptionBreakpoints × Fields Json) := do
  let (filters, f) ← f.defaulted "filters" (Json.list? Json.text?) []
  let (options, f) ← f.optional "filterOptions"
    (Json.nullable? (Json.list? ExceptionFilter.ofJson?))
  some (⟨filters, options⟩, f)

def ofJson? : Json → Option SetExceptionBreakpoints :=
  Json.record? ofFields

def toJson (a : SetExceptionBreakpoints) : Json :=
  .object ([("filters", Json.ofTexts a.filters)] ++
    Json.memberOf "filterOptions" (Json.ofList ExceptionFilter.toJson) a.options)

end SetExceptionBreakpoints

/-- Which of the runtime's own breakpoints the editor wants. -/
structure EnableCustomBreakpoints where
  ids : List String
  deriving DecidableEq

namespace EnableCustomBreakpoints

def ofFields (f : Fields Json) : Option (EnableCustomBreakpoints × Fields Json) := do
  let (ids, f) ← f.required "ids" (Json.list? Json.text?)
  some (⟨ids⟩, f)

def ofJson? : Json → Option EnableCustomBreakpoints :=
  Json.record? ofFields

def toJson (a : EnableCustomBreakpoints) : Json :=
  .object [("ids", Json.ofTexts a.ids)]

end EnableCustomBreakpoints
end Protocol
end DebugTree
