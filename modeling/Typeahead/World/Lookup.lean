import Typeahead.Text.Bytes
import Typeahead.World.Path
import Typeahead.World.Tree

/-!
# Looking up paths

A path is walked from the root, or from the working directory if it does not start with a slash, one
component at a time.  An empty component, which a slash at the end or a repeated one leaves, asks
for a directory; `.` stays; `..` goes to the directory above; a link is followed, at most forty of
them in one walk.  At each component the reasons to fail are, in this order: where we stand is no
directory; it may not be searched; the component is too long; there is no such name.

## Main definitions

* `PathFault` — why a path cannot be used.
* `World` — a file tree, a working directory and the environment.
* `FileTree.walk` — the walk; `walkWith` is the part between two links.
* `World.locate`, `World.entry?` — the location of a path and what stands there.
* `World.isDirectory`, `World.isPresent` — the two questions that take a path's absence for a no.
* `World.list`, `World.read` — the names in a directory and the content of a file.
-/

namespace Typeahead

/-- Why a path cannot be used. -/
inductive PathFault
  /-- There is nothing of that name. -/
  | missing
  /-- Something on the way is no directory. -/
  | notDirectory
  /-- Access is not granted. -/
  | denied
  /-- A component or the whole path has too many bytes. -/
  | tooLong
  /-- Too many links on the way. -/
  | linkLoop
  /-- There is something there already. -/
  | occupied
  /-- It is a directory and no file. -/
  | directory
  /-- The text of the path holds the null character. -/
  | nullCharacter
  deriving DecidableEq, Repr

/-- The wording of a fault. -/
def PathFault.message : PathFault → String
  | .missing => "No such file or directory"
  | .notDirectory => "Not a directory"
  | .denied => "Permission denied"
  | .tooLong => "File name too long"
  | .linkLoop => "Too many levels of symbolic links"
  | .occupied => "File exists"
  | .directory => "Is a directory"
  | .nullCharacter => "embedded null byte"

/-- The settings that surround a process. -/
structure Environment where
  /-- The home directory. -/
  home : Text
  /-- The directories searched for programs. -/
  searchPath : Option Text
  /-- The extensions of programs. -/
  programExtensions : Option Text
  /-- The directory of the settings file. -/
  settingsDirectory : Option Text
  deriving DecidableEq, Repr

/-- All that is outside of the command line: the files, the directory the process works in, and its
environment. -/
structure World where
  files : FileTree
  workingDirectory : Text
  environment : Environment
  deriving DecidableEq, Repr

/-! ### Walking -/

/-- What a walk does with a last component that is missing. -/
inductive Purpose
  /-- Find what is there. -/
  | find
  /-- Find the place for something new. -/
  | create
  deriving DecidableEq, Repr

/-- The outcome of one component. -/
inductive Stride
  /-- The walk goes on at a location. -/
  | arrive (here : Location)
  /-- A link takes the walk elsewhere. -/
  | follow (target : Text)
  /-- There is nothing of that name in the directory. -/
  | vacant (here : Location)
  deriving DecidableEq, Repr

namespace FileTree

/-- One component of a walk that stands at `here`. -/
def stride (files : FileTree) (here : Location) (component : Text) : Except PathFault Stride :=
  match files.at? here with
  | none => .error .missing
  | some (.directory access) =>
    if component = [] then .ok (.arrive here)
    else if !access.searches then .error .denied
    else if 255 < component.byteSize then .error .tooLong
    else if component = ['.'] then .ok (.arrive here)
    else if component = ['.', '.'] then .ok (.arrive here.tail)
    else
      match files.at? (component :: here) with
      | none => .ok (.vacant (component :: here))
      | some (.link target) => if target = [] then .error .missing else .ok (.follow target)
      | some _ => .ok (.arrive (component :: here))
  | some _ => .error .notDirectory

/-- Where a walk along a text starts: at the root if it starts with a slash. -/
def origin (here : Location) (t : Text) : Location := if t.head? = some '/' then [] else here

/-- A walk along components as far as the first link, which `follow` takes over. -/
def walkWith (files : FileTree) (purpose : Purpose)
    (follow : Location → List Text → Except PathFault Location) :
    Location → List Text → Except PathFault Location
  | here, [] => .ok here
  | here, component :: rest =>
    match files.stride here component with
    | .error fault => .error fault
    | .ok (.arrive next) => walkWith files purpose follow next rest
    | .ok (.vacant place) => if purpose = .create && rest = [] then .ok place else .error .missing
    | .ok (.follow target) => follow (origin here target) (Text.splitOn '/' target ++ rest)

/-- A walk along components with at most the given number of links. -/
def walk (files : FileTree) (purpose : Purpose) :
    Nat → Location → List Text → Except PathFault Location
  | 0 => files.walkWith purpose fun _ _ => .error .linkLoop
  | links + 1 => files.walkWith purpose (walk files purpose links)

end FileTree

/-- The greatest number of links in one walk. -/
def linkLimit : Nat := 40

namespace World

/-- The location of the working directory. -/
def start (w : World) : Except PathFault Location :=
  w.files.walk .find linkLimit [] (Text.splitOn '/' w.workingDirectory)

/-- The location of a path. -/
def locateFor (w : World) (purpose : Purpose) (t : Text) : Except PathFault Location :=
  if t.contains '\x00' then .error .nullCharacter
  else if t = [] then .error .missing
  else if 4096 ≤ t.byteSize then .error .tooLong
  else if t.head? = some '/' then w.files.walk purpose linkLimit [] (Text.splitOn '/' t)
  else
    match w.start with
    | .error fault => .error fault
    | .ok here => w.files.walk purpose linkLimit here (Text.splitOn '/' t)

/-- The location of what a path names. -/
def locate (w : World) (t : Text) : Except PathFault Location := w.locateFor .find t

/-- What a path names. -/
def entry? (w : World) (t : Text) : Except PathFault Entry :=
  match w.locate t with
  | .error fault => .error fault
  | .ok here =>
    match w.files.at? here with
    | some entry => .ok entry
    | none => .error .missing

/-- Whether a fault only says that a path names nothing. -/
def isAbsence : PathFault → Bool
  | .missing | .notDirectory | .linkLoop | .nullCharacter => true
  | _ => false

/-- Whether a path names something of a kind; a path that names nothing does not. -/
def test (w : World) (kind : Entry → Bool) (t : Text) : Except PathFault Bool :=
  match w.entry? t with
  | .ok entry => .ok (kind entry)
  | .error fault => if isAbsence fault then .ok false else .error fault

/-- Whether a path names a directory. -/
def isDirectory (w : World) (t : Text) : Except PathFault Bool :=
  w.test (fun | .directory _ => true | _ => false) t

/-- Whether a path names anything. -/
def isPresent (w : World) (t : Text) : Except PathFault Bool := w.test (fun _ => true) t

/-- The names in the directory that a path names, in no order that means anything. -/
def list (w : World) (t : Text) : Except PathFault (List Text) :=
  match w.locate t with
  | .error fault => .error fault
  | .ok here =>
    match w.files.at? here with
    | some (.directory access) =>
      if access.lists then .ok (w.files.names here) else .error .denied
    | _ => .error .notDirectory

/-- The content of the file that a path names. -/
def read (w : World) (t : Text) : Except PathFault Text :=
  match w.entry? t with
  | .error fault => .error fault
  | .ok (.file f) => if f.readable then .ok f.content else .error .denied
  | .ok _ => .error .directory

end World

end Typeahead
