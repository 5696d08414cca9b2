import CloudTerminal.Repository.Status
import CloudTerminal.Text.Split

/-!
The URLs that a clone accepts, and the directory that it goes into. A URL is cloneable in one of two forms:
a known scheme followed by a host and a path, or `user@host:path` without a scheme.
-/

namespace CloudTerminal.Repository

/-- `is_valid_repo_name`: whether a name can be that of a directory to clone into. -/
def isValidDirectory (name : String) : Bool :=
  name != "" && name != "." && name != ".." &&
    name.toList.all fun c => c.isAlphanum || ['-', '_', '.'].contains c

/-- `repo_name_from_url`, the directory that a URL names: its last segment without one `.git` at the end. -/
def directoryOfUrl? (url : String) : Option String :=
  let path := Text.trimEnd (· == '/') url.toList
  let segment := Text.afterLast (fun c => c == '/' || c == ':') path
  let name := String.ofList ((".git".toList.isSuffixOf? segment).getD segment)
  if isValidDirectory name then some name else none

/-- `SCHEMES`: the schemes of URLs that can be cloned. -/
def schemes : List String := ["https://", "http://", "ssh://", "git://"]

/-- The host in `[user@]host[:port]`. -/
def hostOfAuthority (authority : List Char) : List Char :=
  Text.beforeFirst (· == ':') (Text.afterLast (· == '@') authority)

/-- `is_valid_host`: whether the host in `[user@]host[:port]` is made of ASCII letters, digits, hyphens
and dots. -/
def hasValidHost (authority : List Char) : Bool :=
  let host := hostOfAuthority authority
  !host.isEmpty && host.all fun c => c.isAlphanum || ['-', '.'].contains c

/-- Whether a path holds more than slashes. -/
def hasSegment (path : List Char) : Bool := path.any (· != '/')

/-- `is_cloneable_url`: whether a clone of the URL can succeed. -/
def isCloneable (url : String) : Bool :=
  match schemes.findSome? (fun scheme => scheme.toList.isPrefixOf? url.toList) with
  | some rest =>
    match Text.cutFirst (· == '/') rest with
    | none => false
    | some (authority, path) => hasValidHost authority && hasSegment path
  | none =>
    match Text.cutFirst (· == ':') url.toList with
    | none => false
    | some (login, path) =>
      match Text.cutFirst (· == '@') login with
      | none => false
      | some (user, host) => !user.isEmpty && hasValidHost host && hasSegment path

/-- `clone_outcome`: how the clone of a URL ends. -/
def cloneOutcome (url : String) : CloneStatus := if isCloneable url then .cloned else .failed

end CloudTerminal.Repository
