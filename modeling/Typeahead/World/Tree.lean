import Typeahead.Text.Basic

/-!
# Trees of files

A file tree says what stands at each location.  A location is the list of the names on the way to
it from the root, innermost first, so that the parent of a location is its tail and the root is the
empty list.  The root is a directory whatever the tree says.

What may be done with a directory has two sides.  To list it is to be told the names in it, and to
search it is to look one of them up; either may be granted without the other.

## Main definitions

* `Access` — what may be done with a directory.
* `Entry` — a directory, a file or a link.
* `FileTree` — the entries by location, with `FileTree.at?`.
* `FileTree.names` — the names in a directory.
* `FileTree.put`, `FileTree.remove` — changes of one entry.
-/

namespace Typeahead

/-- The names on the way from the root, innermost first. -/
abbrev Location := List Text

/-- What may be done with a directory. -/
inductive Access
  /-- Its names can be listed and looked up. -/
  | free
  /-- Its names can be looked up only. -/
  | unlistable
  /-- Its names can be listed only. -/
  | unsearchable
  /-- Neither. -/
  | locked
  deriving DecidableEq, Repr

namespace Access

/-- Whether the names in a directory can be listed. -/
def lists : Access → Bool
  | .free | .unsearchable => true
  | .unlistable | .locked => false

/-- Whether the names in a directory can be looked up. -/
def searches : Access → Bool
  | .free | .unlistable => true
  | .unsearchable | .locked => false

end Access

/-- A file. -/
structure File where
  executable : Bool
  readable : Bool
  content : Text
  deriving DecidableEq, Repr

/-- What stands at a location. -/
inductive Entry
  | directory (access : Access)
  | file (f : File)
  /-- A symbolic link to a path. -/
  | link (target : Text)
  deriving DecidableEq, Repr

/-- The entries of a file system by location; of two entries at one location the first counts. -/
structure FileTree where
  entries : List (Location × Entry)
  deriving DecidableEq, Repr

namespace FileTree

/-- The tree with nothing but the root. -/
def empty : FileTree := ⟨[]⟩

/-- The entry that a list of entries has for a location. -/
def lookup (here : Location) : List (Location × Entry) → Option Entry
  | [] => none
  | (place, entry) :: rest => if place = here then some entry else lookup here rest

/-- What stands at a location. -/
def at? (files : FileTree) (here : Location) : Option Entry :=
  match lookup here files.entries with
  | some entry => some entry
  | none => if here = [] then some (.directory .free) else none

/-- The name of a location in the directory `here`, if that is where it stands. -/
def nameIn (here : Location) : Location → Option Text
  | [] => none
  | name :: above => if above = here then some name else none

/-- The names in a directory, each once, in the order in which the tree has them. -/
def names (files : FileTree) (here : Location) : List Text :=
  (files.entries.filterMap fun (place, _) => nameIn here place).eraseDups

/-- Whether the entry at `place` is `here` or stands below it. -/
def isWithin (here place : Location) : Bool := here.isSuffixOf place

/-- The tree without a location and all that stands below it. -/
def remove (files : FileTree) (here : Location) : FileTree :=
  ⟨files.entries.filter fun (place, _) => !isWithin here place⟩

/-- The tree with one entry set, the rest kept. -/
def set (files : FileTree) (here : Location) (entry : Entry) : FileTree :=
  ⟨files.entries.filter (fun (place, _) => place ≠ here) ++ [(here, entry)]⟩

/-- Whether a location holds a directory. -/
def isDirectory (files : FileTree) (here : Location) : Bool :=
  match files.at? here with
  | some (.directory _) => true
  | _ => false

/-- The tree with a directory at a location and at every one above it; what is there and is no
directory gives way. -/
def ensureDirectory (files : FileTree) : Location → FileTree
  | [] => files
  | name :: above =>
    let files := files.ensureDirectory above
    if files.isDirectory (name :: above) then files
    else (files.remove (name :: above)).set (name :: above) (.directory .free)

/-- The tree with an entry put at a location.  The directories above it come into being if need be.
A directory put over a directory keeps what stands in it; everything else is replaced as a whole. -/
def put (files : FileTree) (here : Location) (entry : Entry) : FileTree :=
  let files := match here with
    | [] => files
    | _ :: above => files.ensureDirectory above
  match entry with
  | .directory _ =>
    if files.isDirectory here then files.set here entry else (files.remove here).set here entry
  | _ => (files.remove here).set here entry

end FileTree

end Typeahead
