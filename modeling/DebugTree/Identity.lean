/-!
# Names of things

Targets, scripts and connections are named by whoever reports them, and the names mean nothing
here beyond being equal or not.  Each kind of name is a type of its own, so that a script cannot
be looked up under a target.
-/

namespace DebugTree

/-- A debuggable target of the runtime. -/
structure TargetId where
  text : String
  deriving DecidableEq

/-- A script of the runtime. -/
structure ScriptId where
  text : String
  deriving DecidableEq

/-- An inbound connection from the editor. -/
structure ConnectionId where
  text : String
  deriving DecidableEq

instance : Inhabited TargetId := ⟨⟨""⟩⟩
instance : Inhabited ScriptId := ⟨⟨""⟩⟩
instance : Inhabited ConnectionId := ⟨⟨""⟩⟩

/-- The number under which a loaded source is known. -/
abbrev SourceReference := Int

/-- The number under which the editor knows a breakpoint. -/
abbrev BreakpointId := Nat

end DebugTree
