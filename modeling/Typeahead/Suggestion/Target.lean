import Typeahead.World.Programs

/-!
# The directory that a path argument points into

A path argument is cut behind its last separator.  What stands before names a directory, and what
stands behind is the name being typed.  A double quote at the start takes no part in either, nor
does one at the end.  The directory is seen from the working directory of the line, a tilde at the
start stands for the home directory, and `..` steps back over the component before it.  If there is
no such directory, the one above it is taken; if that is not there either, the argument points
nowhere.

## Main definitions

* `Target` — a directory, the length of what is passed over, and the name being typed.
* `Target.split` — the parts of an argument.
* `Target.directoryOf` — the directory that the first part names.
* `Target.resolve` — the target of an argument.
-/

namespace Typeahead

/-- Where a path argument points to. -/
structure Target where
  directory : Path
  /-- How many characters of the argument stand before the name being typed. -/
  skip : Nat
  /-- The name being typed. -/
  typed : Text
  deriving DecidableEq, Repr

namespace Target

/-- The parts of an argument. -/
structure Parts where
  /-- What names the directory, the separator at its end included. -/
  lead : Text
  skip : Nat
  typed : Text
  deriving DecidableEq, Repr

/-- The number of characters up to the last separator, itself included. -/
def cut (p : Platform) (t : Text) : Nat :=
  match Text.lastIndexWhere p.isSeparator t with
  | some i => i + 1
  | none => 0

/-- A text without a double quote at its end. -/
def unclosed (t : Text) : Text := if Text.endsIn '"' t then t.dropLast else t

/-- The parts of an argument behind `before` characters. -/
def splitBehind (before : Nat) (t : Text) : Parts :=
  let body := unclosed t
  let n := cut .posix body
  ⟨body.take n, before + n, body.drop n⟩

/-- The parts of an argument. -/
def split : Text → Parts
  | '"' :: t => splitBehind 1 t
  | t => splitBehind 0 t

/-- A text with a tilde at its start replaced by the home directory. -/
def expandHome (home : Path) : Text → Text
  | ['~'] => home.toText
  | '~' :: '/' :: t => home.toText ++ '/' :: t
  | t => t

/-- The directory that a text names, seen from `here`. -/
def directoryOf (home here : Path) (t : Text) : Path :=
  (here.append (Path.ofText (expandHome home t))).normalize

/-- The target of the parts of an argument. -/
def ofParts (w : World) (here : Path) (p : Parts) : Except PathFault (Option Target) :=
  let directory := directoryOf (Path.ofText w.environment.home) here p.lead
  match w.isDirectory directory.toText with
  | .error fault => .error fault
  | .ok true => .ok (some ⟨directory, p.skip, p.typed⟩)
  | .ok false =>
    match w.isDirectory directory.parent.toText with
    | .error fault => .error fault
    | .ok true => .ok (some ⟨directory.parent, p.skip, p.typed⟩)
    | .ok false => .ok none

/-- The target of an argument, seen from `here`. -/
def resolve (w : World) (here : Path) (argument : Text) : Except PathFault (Option Target) :=
  ofParts w here (split argument)

end Target

end Typeahead
