import Typeahead.Json.Basic
import Typeahead.World.Lookup

/-!
# Worlds given as data

A world can be given as a JSON object: its files by path, its environment by name and its working
directory.  The kind of a file is a word, or an object with the target of a link or the content of a
file.

## Main definitions

* `Entry.ofJson?` — an entry from its kind.
* `Location.ofText` — the location that a path spells out.
* `FileTree.ofMembers`, `World.ofJson` — a tree and a world from data.
-/

namespace Typeahead

/-- An entry from its kind. -/
def Entry.ofJson? : Json → Option Entry
  | .text kind =>
    if kind = "dir".toList then some (.directory .free)
    else if kind = "unlistable".toList then some (.directory .unlistable)
    else if kind = "locked".toList then some (.directory .locked)
    else if kind = "file".toList then some (.file ⟨false, true, []⟩)
    else if kind = "exec".toList then some (.file ⟨true, true, []⟩)
    else if kind = "unreadable".toList then some (.file ⟨false, false, []⟩)
    else none
  | .object members =>
    match Json.find? "link".toList members with
    | some (.text target) => some (.link target)
    | _ =>
      match Json.find? "text".toList members with
      | some (.text content) => some (.file ⟨false, true, content⟩)
      | _ => none
  | _ => none

/-- The location that a path from the root spells out. -/
def Location.ofText (t : Text) : Location := ((Text.splitOn '/' t).filter Path.isName).reverse

/-- A tree from its paths and kinds, put one after the other. -/
def FileTree.ofMembers (members : List (Text × Json)) : FileTree :=
  members.foldl (fun files (path, kind) =>
    match Entry.ofJson? kind with
    | some entry => files.put (Location.ofText path) entry
    | none => files) FileTree.empty

/-- The text at a key of an object. -/
def Json.textAt? (key : String) (v : Json) : Option Text :=
  match v.member? key.toList with
  | some (.text t) => some t
  | _ => none

/-- A world from its description.  The home directory and the working directory are the root unless
something else is given. -/
def World.ofJson (v : Json) : World :=
  let environment := (v.member? "env".toList).getD .null
  { files :=
      match v.member? "fs".toList with
      | some (.object members) => FileTree.ofMembers members
      | _ => FileTree.empty
    workingDirectory := (v.textAt? "process_cwd").getD ['/']
    environment :=
      { home := (environment.textAt? "HOME").getD ['/']
        searchPath := environment.textAt? "PATH"
        programExtensions := environment.textAt? "PATHEXT"
        settingsDirectory := environment.textAt? "HINTLINE_CONFIG_DIR" } }

end Typeahead
