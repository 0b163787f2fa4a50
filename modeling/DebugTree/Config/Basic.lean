import DebugTree.PathCase
import DebugTree.Text.Blank
import DebugTree.Text.Splitting

/-!
# Configuration

Every setting has a default, so no file is needed.  Settings come from a file first and from the
environment second; what the types cannot say about them is checked by `validate`, which reports
the first fault in a fixed order: the window, the debug type, the globs.
-/

namespace DebugTree

/-- Where and how the log is written. -/
structure LogConfig where
  level : String
  /-- Write one JSON object per line. -/
  json : Bool
  /-- Write to a file and not to the error stream. -/
  file : Option String
  deriving DecidableEq

def LogConfig.default : LogConfig := ⟨"info", false, none⟩

/-- The settings of the multiplexer. -/
structure Config where
  /-- Globs, with marks for internal modules and for negations. -/
  skipFiles : List String
  pathCase : PathCase
  /-- For how many milliseconds changes of the pattern list are gathered before it is pushed. -/
  patternWindow : Nat
  /-- The type of nested sessions. -/
  debugType : String
  log : LogConfig
  deriving DecidableEq

namespace Config

def default : Config := ⟨[], .auto, 500, "pwa-node", .default⟩

/-! ## Checking -/

/-- The longest window. -/
def windowLimit : Nat := 60000

/-- A glob that says nothing. -/
def isEmptyGlob (glob : String) : Bool :=
  let rest := Text.trim glob
  rest.isEmpty || rest == "!"

/-- The first thing that is wrong with the settings. -/
def validate (c : Config) : Except Fault Unit :=
  if c.patternWindow = 0 ∨ windowLimit < c.patternWindow then
    .error (.config (.debounceOutOfRange windowLimit c.patternWindow))
  else if (Text.trim c.debugType).isEmpty then .error (.config .emptyDebugType)
  else match c.skipFiles.find? isEmptyGlob with
    | some glob => .error (.config (.emptySkipGlob glob))
    | none => .ok ()

/-! ## The environment -/

/-- The values of the variables that are set. -/
abbrev Environment := String → Option String

/-- The globs in a text, between commas; blanks around them do not count, nor do empty ones. -/
def globsOfText (text : String) : List String :=
  ((Text.splitOn ',' text.toList).map fun part => Text.trim (String.ofList part)).filter
    (!·.isEmpty)

/-- The settings after the variables that change them.  A case rule that is none is passed over. -/
def override (c : Config) (env : Environment) : Config :=
  let c := match env "DAP_MUX_LOG_LEVEL" with
    | some level => { c with log := { c.log with level } }
    | none => c
  let c := match env "DAP_MUX_SKIP_FILES" with
    | some globs => { c with skipFiles := globsOfText globs }
    | none => c
  match (env "DAP_MUX_PATH_CASE").map PathCase.ofText with
  | some (.ok pathCase) => { c with pathCase }
  | _ => c

end Config
end DebugTree
