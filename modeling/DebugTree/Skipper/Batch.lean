import DebugTree.Ranges.Below

/-!
# Batches of ranges

The runtime keeps ranges for scripts, while ranges are computed for sources.  A batch is what a
computation comes to in scripts: at most one list of ranges for each.  If a script comes up more
than once, the last ranges count, and they are sent where the script came up first.

A script without ranges need not be told that it has none.  So a session remembers which scripts
it has given ranges to, and an empty list is sent to those only.  The memory is brought up to date
while a batch is put together, before anything is sent; whoever puts batches together has to see
to it that they are sent in the same order.
-/

namespace DebugTree

/-- Ranges on their way to the runtime. -/
abbrev RangeBatch := Index ScriptId (List Position)

/-- A batch and the scripts that will have ranges after it. -/
structure RangePlan where
  batch : RangeBatch
  skipping : List ScriptId
  deriving DecidableEq

namespace RangePlan

/-- Nothing to send. -/
def start (skipping : List ScriptId) : RangePlan :=
  ⟨.empty, skipping⟩

/-- The ranges of one more script. -/
def add (positions : List Position) (plan : RangePlan) (script : ScriptId) : RangePlan :=
  if positions.isEmpty then
    if plan.skipping.contains script then
      ⟨plan.batch.insert script [], plan.skipping.filter (· != script)⟩
    else plan
  else ⟨plan.batch.insert script positions, plan.skipping.insert script⟩

/-- The ranges of one more source, which go to every script that runs it. -/
def addUpdate (g : SourceGraph) (plan : RangePlan) (u : Ranges.Update) : RangePlan :=
  (g.scriptsOf u.source).foldl (add u.positions) plan

/-- What several sources come to, given the scripts that have ranges. -/
def ofUpdates (g : SourceGraph) (skipping : List ScriptId) (updates : List Ranges.Update) :
    RangePlan :=
  updates.foldl (addUpdate g) (start skipping)

end RangePlan
end DebugTree
