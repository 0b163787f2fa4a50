import DebugTree.Config.Basic
import DebugTree.Fields
import DebugTree.Protocol.Names
import DebugTree.Toml.Basic

/-!
# Settings as records

The settings are one record in two notations.  What its fields are called and which may be left
out is said once; a `Dialect` says how the values of a field are read in a notation.  Every field
may be left out.
-/

namespace DebugTree

/-- How a notation writes the values of settings. -/
structure Dialect (ν : Type) where
  text? : ν → Option String
  flag? : ν → Option Bool
  /-- A number of 64 bits without a sign. -/
  natural? : ν → Option Nat
  texts? : ν → Option (List String)
  pathCase? : ν → Option PathCase
  /-- A text that may be given as absent. -/
  optionalText? : ν → Option (Option String)
  /-- A record within the record. -/
  log? : (Fields ν → Option (LogConfig × Fields ν)) → ν → Option LogConfig

namespace LogConfig

def ofFields {ν : Type} (d : Dialect ν) (f : Fields ν) : Option (LogConfig × Fields ν) := do
  let (level, f) ← f.defaulted "level" d.text? default.level
  let (json, f) ← f.defaulted "json" d.flag? default.json
  let (file, f) ← f.defaulted "file" d.optionalText? default.file
  some (⟨level, json, file⟩, f)

end LogConfig

namespace Config

def ofFields {ν : Type} (d : Dialect ν) (f : Fields ν) : Option (Config × Fields ν) := do
  let (skipFiles, f) ← f.defaulted "skip_files" d.texts? default.skipFiles
  let (pathCase, f) ← f.defaulted "path_case" d.pathCase? default.pathCase
  let (patternWindow, f) ← f.defaulted "pattern_debounce_ms" d.natural? default.patternWindow
  let (debugType, f) ← f.defaulted "debug_type" d.text? default.debugType
  let (log, f) ← f.defaulted "log" (d.log? (LogConfig.ofFields d)) default.log
  some (⟨skipFiles, pathCase, patternWindow, debugType, log⟩, f)

end Config

/-! ## JSON -/

namespace Json

def dialect : Dialect Json where
  text? := text?
  flag? := flag?
  natural? := unsigned? 64
  texts? := list? text?
  pathCase? := PathCase.ofJson?
  optionalText? := nullable? text?
  log? := record?

end Json

namespace LogConfig

def ofJson? : Json → Option LogConfig :=
  Json.record? (ofFields Json.dialect)

def toJson (c : LogConfig) : Json :=
  .object ([("level", .string c.level), ("json", .bool c.json)] ++
    Json.memberOf "file" .string c.file)

end LogConfig

namespace Config

def ofJson? : Json → Option Config :=
  Json.record? (ofFields Json.dialect)

def toJson (c : Config) : Json :=
  .object [("skip_files", Json.ofTexts c.skipFiles), ("path_case", c.pathCase.toJson),
    ("pattern_debounce_ms", .ofNat c.patternWindow), ("debug_type", .string c.debugType),
    ("log", c.log.toJson)]

end Config

/-! ## TOML -/

namespace Toml

def text? : Toml → Option String
  | .text s => some s
  | _ => none

def flag? : Toml → Option Bool
  | .boolean b => some b
  | _ => none

def natural? : Toml → Option Nat
  | .integer n => if 0 ≤ n ∧ n < (Nat.pow 2 64 : Int) then some n.toNat else none
  | _ => none

def texts? : Toml → Option (List String)
  | .array items => items.mapM text?
  | _ => none

/-- A word, alone or as the only key of a table with nothing under it. -/
def word? {α : Type} (read : String → Option α) : Toml → Option α
  | .text w => read w
  | .table [(w, .table [])] => read w
  | .table [(w, .array [])] => read w
  | _ => none

/-- A record, given by names or in order.  What is given under other names is passed over but has
to be readable; what a list has beyond the fields is not looked at. -/
def record? {α : Type} (known : List String)
    (read : Fields Toml → Option (α × Fields Toml)) : Toml → Option α
  | .table members =>
    if membersReadable (members.filter fun m => !known.contains m.1) then
      (read (.named members)).map (·.1)
    else none
  | .array items => (read (.listed items)).map (·.1)
  | _ => none

def dialect : Dialect Toml where
  text? := text?
  flag? := flag?
  natural? := natural?
  texts? := texts?
  pathCase? := word? PathCase.ofWord?
  optionalText? v := v.text?.map some
  log? := record? ["level", "json", "file"]

end Toml

/-- The settings that a table gives. -/
def Config.ofToml? : Toml → Option Config :=
  Toml.record? ["skip_files", "path_case", "pattern_debounce_ms", "debug_type", "log"]
    (ofFields Toml.dialect)

end DebugTree
