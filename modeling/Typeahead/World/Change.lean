import Typeahead.World.Lookup

/-!
# Changing files

Writing a file follows links and brings the file into being if its directory is there.  Making a
directory goes wrong if there is anything of that name; making a directory with all that are missing
above it is content with a directory that is there.

## Main definitions

* `World.write` — a file's content replaced.
* `World.makeDirectory`, `World.ensureDirectory` — one directory, and one with those above it.
-/

namespace Typeahead

namespace World

/-- The world with other files. -/
def withFiles (w : World) (files : FileTree) : World := { w with files }

/-- The world after a file was written. -/
def write (w : World) (t : Text) (content : Text) : Except PathFault World :=
  match w.locateFor .create t with
  | .error fault => .error fault
  | .ok here =>
    match w.files.at? here with
    | some (.directory _) => .error .directory
    | some (.file f) =>
      if f.readable then .ok (w.withFiles (w.files.set here (.file { f with content })))
      else .error .denied
    | _ => .ok (w.withFiles (w.files.set here (.file ⟨false, true, content⟩)))

/-- The world after a directory was made in a directory that is there. -/
def makeDirectory (w : World) (p : Path) : Except PathFault World :=
  if p.toText.contains '\x00' then .error .nullCharacter
  else if 4096 ≤ p.toText.byteSize then .error .tooLong
  else
    match p.names.getLast? with
    | none => .error .occupied
    | some name =>
      match w.locate p.parent.toText with
      | .error fault => .error fault
      | .ok here =>
        match w.files.stride here name with
        | .error fault => .error fault
        | .ok (.vacant place) => .ok (w.withFiles (w.files.set place (.directory .free)))
        | .ok _ => .error .occupied

/-- Contentment with a fault if there is a directory at the path. -/
def unlessDirectory (w : World) (p : Path) (fault : PathFault) : Except PathFault World :=
  match w.isDirectory p.toText with
  | .error other => .error other
  | .ok true => .ok w
  | .ok false => .error fault

/-- A directory with those above it, of which at most `depth` may be missing. -/
def ensureDirectoryUpTo : Nat → World → Path → Except PathFault World
  | depth, w, p =>
    match w.makeDirectory p with
    | .ok made => .ok made
    | .error .missing =>
      match depth with
      | 0 => .error .missing
      | depth + 1 =>
        match ensureDirectoryUpTo depth w p.parent with
        | .error fault => .error fault
        | .ok above =>
          -- Once more, now that the directory above is there.
          match above.makeDirectory p with
          | .ok made => .ok made
          | .error .missing => .error .missing
          | .error fault => above.unlessDirectory p fault
    | .error .nullCharacter => .error .nullCharacter
    | .error fault => w.unlessDirectory p fault

/-- The world with a directory at a path, made with those missing above it if need be. -/
def ensureDirectory (w : World) (p : Path) : Except PathFault World :=
  ensureDirectoryUpTo p.names.length w p

end World

end Typeahead
