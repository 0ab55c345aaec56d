import Retrace.Command.Basic
import Retrace.Lock.Session
import Retrace.Source
import Retrace.Text.Duration

/-!
# The state of a session

Show whether a live session traces a file.
-/

namespace Retrace.Command

open Output (Style)

/-- Show whether a live session traces a file, and which. -/
def status (s : Surroundings) (file : Path) : Action Unit := do
  let source ← Action.ofJob (Source.resolve file)
  let dir ← Action.ofExcept s.env.lockDir
  Action.printLine ("Source:        " ++ Style.cyan.apply source.display)
  Action.print "Live session:  "
  match ← Action.ofJob (Lock.inspect s.isLive dir source) with
  | some holder =>
    Action.printLine (Style.green.apply "Running ✓")
    Action.printLine ("  PID:         " ++ toString holder.pid)
    Action.printLine ("  Started:     " ++ Text.timeAgo s.now holder.startedAt)
  | none =>
    Action.printLine (Style.yellow.apply "Not running")
    Action.printLine ("  " ++ Style.dimmed.apply ("Tip: Start with 'lt watch " ++ file.display ++ "'"))

end Retrace.Command
