import CloudTerminal.Command
import CloudTerminal.Home

/-!
The commands about the terminal itself: `clear`, `pwd`, `ls` and `status`.
-/

namespace CloudTerminal.Home

def clearManual : Manual where
  name := "clear"
  summary := "Clear the screen"
  usage := "clear"
  category := "system"

def clear : Command := .reading clearManual fun _ _ arguments =>
  (clearManual.noArgument arguments).map fun _ => .clear

def pwdManual : Manual where
  name := "pwd"
  summary := "Print working directory"
  usage := "pwd"
  category := "system"

def pwd : Command := .reading pwdManual fun setting _ arguments =>
  (pwdManual.noArgument arguments).map fun _ => .text setting.config.home

def lsManual : Manual where
  name := "ls"
  summary := "List directory contents"
  usage := "ls [path]"
  category := "system"

/-- `LsCmd`: lists a directory, home if none is given. An empty one shows nothing. -/
def ls : Command := .reading lsManual fun setting store arguments =>
  match lsManual.optionalArgument arguments with
  | .error e => .error e
  | .ok path? =>
    let path := path?.getD ""
    match list? store (relative setting.config.home path) with
    | none => .error (.noSuchPath path)
    | some [] => .ok .silent
    | some lines => .ok (.text ("\n".intercalate lines))

def statusManual : Manual where
  name := "status"
  summary := "Show resource counts"
  usage := "status"
  category := "system"

def status : Command := .reading statusManual fun _ store arguments =>
  (statusManual.noArgument arguments).map fun _ => .text store.summary.text

/-- The commands about the terminal itself. -/
def commands : List Command := [clear, pwd, ls, status]

end CloudTerminal.Home
