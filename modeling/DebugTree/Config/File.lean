import DebugTree.Config.Record
import DebugTree.Text.Utf8
import DebugTree.Toml.Reader

/-!
# The configuration file

A file is its octets.  A file that is not there or is not UTF-8 cannot be read, and a file that can
be read is decoded and checked before anything else changes the settings.  Where a file is optional
and absent, the defaults stand in for it.
-/

namespace DebugTree
namespace Config

/-- The settings in a text. -/
def ofText (text : String) : Except Fault Config := do
  match (Toml.parse? text).bind ofToml? with
  | some c => c.validate; return c
  | none => throw (.toml "malformed settings")

/-- The settings in a file, given its octets if it is there. -/
def load (file : Option (List UInt8)) : Except Fault Config := do
  match file with
  | none => throw (.io "no such file")
  | some octets => match Text.Utf8.decode? octets with
    | some text => ofText (String.ofList text)
    | none => throw (.io "not UTF-8")

/-- The settings in force: those of the file, or the defaults, changed by the environment. -/
def loadOrDefault (file : Option (List UInt8)) (env : Environment) : Except Fault Config := do
  let c ← match file with
    | some octets => load (some octets)
    | none => pure default
  let c := c.override env
  c.validate
  return c

/-! ## Where it is -/

/-- A path with one more part: a slash between them unless there is one, or nothing before it. -/
def joinPath (base part : String) : String :=
  if base.isEmpty || base.toList.getLast? = some '/' then base ++ part
  else base ++ "/" ++ part

/-- The directory for configuration files: the one that is set, if that is an absolute path, and
else the one in the home directory.  The account's home stands in for an unset one. -/
def directory? (env : Environment) (accountHome : Option String) : Option String :=
  match (env "XDG_CONFIG_HOME").filter fun d => d.toList.head? = some '/' with
  | some d => some d
  | none =>
    let home := ((env "HOME").filter (!·.isEmpty)).orElse fun _ => accountHome
    home.map fun h => joinPath h ".config"

/-- Where the configuration file is looked for. -/
def defaultPath? (env : Environment) (accountHome : Option String) : Option String :=
  match env "DAP_MUX_CONFIG_PATH" with
  | some path => some path
  | none => (directory? env accountHome).map fun d =>
      joinPath (joinPath d "dap-mux") "config.toml"

end Config
end DebugTree
