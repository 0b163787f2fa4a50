/-!
# Runs

Sessions and registries are machines: an action leads from one state to the next, and others see
something of it.  A run carries out a list of actions, one after the other.
-/

namespace DebugTree

/-- A run: the actions one after the other, with everything that is seen of them. -/
def runOf {σ α ε : Type} (act : σ → α → σ × List ε) (w : σ) : List α → σ × List ε
  | [] => (w, [])
  | a :: rest =>
    let (w, seen) := act w a
    let (w, more) := runOf act w rest
    (w, seen ++ more)

end DebugTree
