import CloudTerminal.Home.Commands
import CloudTerminal.Host.Commands
import CloudTerminal.Instance.Commands
import CloudTerminal.Key.Commands
import CloudTerminal.Registry
import CloudTerminal.Repository.Commands

/-!
All commands of the terminal.
-/

namespace CloudTerminal.Terminal

/-- `register_builtins`: the commands of all families. -/
def commands : List Command :=
  Home.commands ++ Instance.commands ++ Key.commands ++ Host.commands ++ Repository.commands

/-- The registry of a session. -/
def registry : Registry := Registry.registerAll {} commands

end CloudTerminal.Terminal
