/-!
# Files in directories

A tree of directories and the way a path leads through it.  A path is followed name by name; `.`
stays in a directory and `..` goes back up, and both need a directory to stand in.

* `Entry`: a file or a directory.
* `Disk`: a tree with the directory that relative paths start from.
* `Disk.read?`: the text of the file that a path leads to.
* `join`: a path taken relative to another.
-/

namespace PropCheck

/-- A file with its text, or a directory. -/
inductive Entry where
  | file (text : String)
  | directory (entries : List (String × Entry))
deriving Inhabited

/-- A tree of directories; relative paths start from the directory that some names lead to. -/
structure Disk where
  root : Entry
  base : List String
deriving Inhabited

/-- A path taken relative to a directory; an absolute one stands for itself. -/
def join (directory path : String) : String :=
  if path.startsWith "/" || directory.isEmpty then path
  else if directory.endsWith "/" then directory ++ path
  else directory ++ "/" ++ path

namespace Entry

def child? (entry : Entry) (name : String) : Option Entry :=
  match entry with
  | directory entries => (entries.find? (·.1 == name)).map (·.2)
  | file _ => none

def isDirectory : Entry → Bool
  | directory _ => true
  | file _ => false

end Entry

namespace Disk

/-- Follows names from an entry, `above` being the directories it stands in, innermost first. -/
def follow? : (above : List Entry) → Entry → List String → Option Entry
  | _, entry, [] => some entry
  | above, entry, name :: names =>
    if !entry.isDirectory then none
    else if name == "" || name == "." then follow? above entry names
    else if name == ".." then
      match above with
      | [] => follow? [] entry names
      | outer :: above => follow? above outer names
    else
      match entry.child? name with
      | some inner => follow? (entry :: above) inner names
      | none => none

/-- The text of the file that a path leads to. -/
def read? (disk : Disk) (path : String) : Option String :=
  if path.isEmpty then none
  else
    let names := path.splitOn "/"
    match follow? [] disk.root (if path.startsWith "/" then names else disk.base ++ names) with
    | some (.file text) => some text
    | _ => none

end Disk

end PropCheck
