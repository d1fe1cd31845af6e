import Typeahead.Fault
import Typeahead.Notice
import Typeahead.Text.Lowercase
import Typeahead.Text.Order

/-!
# Programs on the search path

The programs that can be run by name are those in the directories of a search path.  Without program
extensions a file is a program if it may be executed, under its own name; with extensions it is one
if it has one of them, capital or small, under its name without it.  A directory that cannot be
listed is passed over.

A catalog lists the search path when its names are first asked for and keeps them from then on.

## Main definitions

* `Platform` — the separators of a system.
* `Text.extension` — a file name cut before its extension.
* `Catalog` — a search path, the extensions and the names once they are known.
* `Catalog.gather` — the names as the world has them now.
* `Catalog.names` — the names, listed at most once.
-/

namespace Typeahead

/-- The two kinds of systems. -/
inductive Platform
  | posix
  | windows
  deriving DecidableEq, Repr

/-- The mark between the directories of a search path. -/
def Platform.listMark : Platform → Char
  | .posix => ':'
  | .windows => ';'

/-- The characters that separate the components of a path as it is typed. -/
def Platform.isSeparator : Platform → Char → Bool
  | .posix, c => c == '/'
  | .windows, c => c == '/' || c == '\\'

/-- A file name cut before its extension, which starts at the last dot; dots at the start of the
name do not count. -/
def Text.extension (name : Text) : Text × Text :=
  match Text.lastIndexOf '.' name with
  | none => (name, [])
  | some i => if (name.take i).all (· == '.') then (name, []) else (name.take i, name.drop i)

/-- A search path, the extensions of programs, and the names of the programs once they are known. -/
structure Catalog where
  /-- The directories; `none` if the setting is no text. -/
  directories : Option (List Text)
  /-- The extensions in small letters; none if programs are told by the right to execute them. -/
  extensions : List Text
  /-- The names, if they were asked for before. -/
  known : Option (List Text)
  deriving DecidableEq, Repr

namespace Catalog

/-- The parts of a text between marks, the empty ones left out. -/
def parts (mark : Char) (t : Text) : List Text := (Text.splitOn mark t).filter (· ≠ [])

/-- The catalog of a search path and a list of extensions. -/
def ofTexts (platform : Platform) (searchPath extensions : Text) : Catalog :=
  { directories := some (parts platform.listMark searchPath)
    extensions := (parts ';' extensions).map Text.toSmall
    known := none }

/-- The extensions of programs on a system that tells programs by extension. -/
def standardExtensions : Text := ".COM;.EXE;.BAT;.CMD".toList

/-- The extensions in use where none are given: those of the environment on a system that tells
programs by extension, none elsewhere. -/
def surroundingExtensions (platform : Platform) (environment : Environment) : Text :=
  match platform with
  | .posix => []
  | .windows => environment.programExtensions.getD standardExtensions

/-- The catalog of a search path and extensions, each taken from the surroundings if not given. -/
def create (platform : Platform) (environment : Environment) (searchPath extensions : Option Text) :
    Catalog :=
  ofTexts platform (searchPath.getD (environment.searchPath.getD []))
    (extensions.getD (surroundingExtensions platform environment))

/-- The text of an entry's path in a directory. -/
def pathIn (directory name : Text) : Text :=
  if Text.endsIn '/' directory then directory ++ name else directory ++ '/' :: name

/-- The file that an entry of a directory is, links followed. -/
def fileIn? (w : World) (here : Location) (directory name : Text) : Option File :=
  match w.files.at? (name :: here) with
  | some (.file f) => some f
  | some (.link _) =>
    match w.entry? (pathIn directory name) with
    | .ok (.file f) => some f
    | _ => none
  | _ => none

/-- Whether the file of a path may be executed. -/
def mayExecute (w : World) (t : Text) : Bool :=
  match w.entry? t with
  | .ok (.file f) => f.executable
  | _ => false

/-- The name under which an entry of a directory is a program. -/
def programName? (w : World) (extensions : List Text) (here : Location) (directory name : Text) :
    Option Text :=
  match fileIn? w here directory name with
  | none => none
  | some _ =>
    if extensions = [] then
      if mayExecute w (pathIn directory name) then some name else none
    else
      let (stem, extension) := Text.extension name
      if extensions.contains extension.toSmall && stem ≠ [] then some stem else none

/-- The programs of one directory; `none` if it cannot be listed. -/
def programsIn (w : World) (extensions : List Text) (directory : Text) :
    Except Fault (Option (List Text)) :=
  match w.list directory with
  | .error .nullCharacter => .error (.path .nullCharacter)
  | .error _ => .ok none
  | .ok names =>
    match w.locate directory with
    | .error _ => .ok none
    | .ok here => .ok (some (names.filterMap (programName? w extensions here directory)))

/-- The programs of some directories, with a notice for each one that cannot be listed. -/
def collect (w : World) (extensions : List Text) : List Text →
    List Notice × Except Fault (List Text)
  | [] => ([], .ok [])
  | directory :: rest =>
    match programsIn w extensions directory with
    | .error fault => ([], .error fault)
    | .ok found =>
      let (notices, names) := collect w extensions rest
      match found with
      | none => (⟨.debug, .programs⟩ :: notices, names)
      | some here => (notices, names.map (here ++ ·))

/-- The names of the programs as the world has them now. -/
def gather (c : Catalog) (w : World) : List Notice × Except Fault (List Text) :=
  match c.directories with
  | none => ([], .error .searchPathShape)
  | some directories =>
    match collect w c.extensions directories with
    | (notices, .error fault) => (notices, .error fault)
    | (notices, .ok names) => (notices ++ [⟨.debug, .programs⟩], .ok (Text.sortDistinct names))

/-- The names of the programs: those known, or else those that the world has now, which are known
from then on. -/
def names (c : Catalog) (w : World) : Catalog × List Notice × Except Fault (List Text) :=
  match c.known with
  | some known => (c, [], .ok known)
  | none =>
    match c.gather w with
    | (notices, .error fault) => (c, notices, .error fault)
    | (notices, .ok found) => ({ c with known := some found }, notices, .ok found)

end Catalog

end Typeahead
