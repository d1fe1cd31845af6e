import Typeahead.Text.Basic

/-!
# Paths

A path is a root and the names behind it.  Reading a path from text drops the repeated and trailing
slashes and the components `.`; a component `..` is a name like any other until the path is
normalised.  A text that starts with exactly two slashes keeps a root of its own.

Normalising takes `..` as stepping back over the component before it, without regard to links.  The
first component is never stepped back over, be it the root or, in a relative path, a name.

## Main definitions

* `Path` — the paths, with `Path.ofText` and `Path.toText`.
* `Path.append`, `Path.parent` — one path seen from another, and the path without its last name.
* `Path.normalize` — the path without `..`; `Path.push` is the step for one component.
-/

namespace Typeahead

/-- Where a path starts. -/
inductive Root
  /-- Wherever it is seen from. -/
  | relative
  /-- The root `/`. -/
  | single
  /-- The root `//`. -/
  | double
  deriving DecidableEq, Repr

/-- A path: a root and the names behind it. -/
structure Path where
  root : Root
  names : List Text
  deriving DecidableEq, Repr

namespace Path

/-- Where the path of a text starts: two slashes and no third make a root of their own. -/
def rootOf : Text → Root
  | '/' :: '/' :: '/' :: _ => .single
  | '/' :: '/' :: _ => .double
  | '/' :: _ => .single
  | _ => .relative

/-- Whether a component is a name: neither empty nor the single dot. -/
def isName (component : Text) : Bool := component ≠ [] && component ≠ ['.']

/-- The path of a text. -/
def ofText (t : Text) : Path := ⟨rootOf t, (Text.splitOn '/' t).filter isName⟩

/-- The text of a path; that of the path without any component is a dot. -/
def toText (p : Path) : Text :=
  match p.root, p.names with
  | .relative, [] => ['.']
  | .relative, names => Text.join '/' names
  | .single, names => '/' :: Text.join '/' names
  | .double, names => '/' :: '/' :: Text.join '/' names

/-- Whether a path starts at a root. -/
def isAbsolute (p : Path) : Bool := p.root ≠ .relative

/-- The path `q` as seen from `p`: `q` itself if it is absolute. -/
def append (p q : Path) : Path := if q.isAbsolute then q else ⟨p.root, p.names ++ q.names⟩

/-- The path with one more name. -/
def child (p : Path) (name : Text) : Path := ⟨p.root, p.names ++ [name]⟩

/-- The path without its last name; itself if it has none. -/
def parent (p : Path) : Path := ⟨p.root, p.names.dropLast⟩

/-- One component behind the names so far, last name first: `..` takes the last one away, but never
the first component of the path. -/
def push (root : Root) (names : List Text) (component : Text) : List Text :=
  if component = ['.', '.'] then
    match root, names with
    | .relative, [] => []
    | .relative, [first] => [first]
    | _, names => names.tail
  else component :: names

/-- The path without `..`. -/
def normalize (p : Path) : Path := ⟨p.root, (p.names.foldl (push p.root) []).reverse⟩

end Path

end Typeahead
