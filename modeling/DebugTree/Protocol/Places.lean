import DebugTree.Protocol.Names
import DebugTree.Source.Basic

/-!
# Places and sources in messages
-/

namespace DebugTree

namespace Position

def ofFields (f : Fields Json) : Option (Position × Fields Json) := do
  let (line, f) ← f.required "lineNumber" (Json.unsigned? 32)
  let (column, f) ← f.required "columnNumber" (Json.unsigned? 32)
  some (⟨line, column⟩, f)

def ofJson? : Json → Option Position :=
  Json.record? ofFields

def toJson (p : Position) : Json :=
  .object [("lineNumber", .ofNat p.line), ("columnNumber", .ofNat p.column)]

end Position

namespace Source

def ofFields (f : Fields Json) : Option (Source × Fields Json) := do
  let (reference, f) ← f.required "sourceReference" Json.signed64?
  let (url, f) ← f.required "url" Json.text?
  some (⟨reference, url⟩, f)

def ofJson? : Json → Option Source :=
  Json.record? ofFields

def toJson (s : Source) : Json :=
  .object [("sourceReference", .ofInt s.reference), ("url", .string s.url)]

end Source

namespace AuthoredSource

def ofFields (f : Fields Json) : Option (AuthoredSource × Fields Json) := do
  let (source, f) ← f.required "source" Source.ofJson?
  let (finish, f) ← f.required "end" Position.ofJson?
  some (⟨source, finish⟩, f)

def ofJson? : Json → Option AuthoredSource :=
  Json.record? ofFields

def toJson (a : AuthoredSource) : Json :=
  .object [("source", a.source.toJson), ("end", a.finish.toJson)]

end AuthoredSource
end DebugTree
