import DebugTree.Config.Basic
import DebugTree.Logging.FileTree

/-!
# Installing the log

A process installs its log once; a second attempt is a fault of configuration.  The file for the
log is opened before that is noticed, so a file that cannot be opened is the fault that counts,
and one that can be opened is there afterwards even if the attempt fails.
-/

namespace DebugTree
namespace Logging

/-- Whether a process has installed its log, and the files it can see. -/
structure Setup where
  isInstalled : Bool
  tree : FileTree

/-- Install the log. -/
def install (p : Setup) (c : LogConfig) : Except Fault Unit × Setup :=
  let (opened, tree) := match c.file with
    | none => (true, p.tree)
    | some path => p.tree.append path
  if !opened then (.error (.io "the log file cannot be opened"), { p with tree })
  else if p.isInstalled then (.error (.config .loggingInstalled), { p with tree })
  else (.ok (), { isInstalled := true, tree })

end Logging
end DebugTree
