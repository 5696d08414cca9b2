import CloudTerminal.Store
import CloudTerminal.Text.Blank

/-!
The home directory: fixed entries, and a directory for every repository that has been cloned. A path is
taken relative to home, and may also begin with the path of home itself.
-/

namespace CloudTerminal.Home

/-- `HOME_ENTRIES`: the directories and the file that every home has. -/
def fixedEntries : List String := [".ssh/", "Documents/", "Downloads/", "README.md"]

/-- The path without slashes at its end. -/
def withoutSlashes (path : String) : List Char := Text.trimEnd (· == '/') path.toList

/-- `is_home_entry`: whether a name is that of a fixed entry. -/
def isFixed (name : String) : Bool :=
  fixedEntries.any fun entry => withoutSlashes entry == name.toList

/-- `relative_to_home`: the part of a path below home, or the whole path if it does not begin with the
path of home. Home's path only counts up to the end of one of the path's segments. -/
def relative (home path : String) : String :=
  let path := withoutSlashes path
  String.ofList <|
    match (withoutSlashes home).isPrefixOf? path with
    | some [] => []
    | some ('/' :: rest) => Text.trimStart (· == '/') rest
    | _ => path

/-- The entries of home itself. -/
def entries (store : Store) : List String :=
  fixedEntries ++
    (store.repositories.filter (·.status == .cloned)).map fun repository => repository.name ++ "/"

/-- The files of the keys, two for each, and the file of known hosts. -/
def keyFiles (store : Store) : List String :=
  (store.keys.toList.flatMap fun key => [key.name, key.name ++ ".pub"]) ++ ["known_hosts"]

/-- What a directory of a cloned repository holds. -/
def checkout : List String := [".git/", "README.md", "src/"]

/-- The entries of the directory at a path below home, if it exists. -/
def list? (store : Store) (path : String) : Option (List String) :=
  if path = "" ∨ path = "." then some (entries store)
  else if path = ".ssh" then some (keyFiles store)
  else if path = "Documents" ∨ path = "Downloads" then some []
  else
    match store.repositories.get? path with
    | some repository => if repository.status = .cloned then some checkout else none
    | none => none

/-- `key_path`: the path of a key's file. -/
def keyPath (home name : String) : String := s!"{String.ofList (withoutSlashes home)}/.ssh/{name}"

end CloudTerminal.Home
