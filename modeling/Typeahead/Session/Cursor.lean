import Typeahead.Session.Basic

/-!
# Moving cursors

A cursor moves by characters, which is arithmetic, or by arguments, which goes from boundary to
boundary of the spans.  Two boundaries may be at one place, around an empty argument.

## Main definitions

* `Side` — a direction, or none.
* `Session.closestBoundary` — the boundary nearest to a position; of two equally near the right one.
* `Session.jump` — the next boundary in a direction.
* `Session.shift` — a number of characters in a direction.
-/

namespace Typeahead

/-- A direction from a position, or none. -/
inductive Side
  | left
  | right
  | neither
  deriving DecidableEq, Repr

namespace Session

/-- The boundary nearest to a position among increasing ones: its index and the side on which it
lies.  The first of the list has the index `i`, and `before` is the one before it, if any. -/
def closestFrom (position : Int) (i : Nat) (before : Option Nat) : List Nat → Nat × Side
  | [] =>
    match before with
    | none => (i, .neither)
    | some _ => (i - 1, .left)
  | b :: rest =>
    if (b : Int) = position then (i, .neither)
    else if position < b then
      match before with
      | none => (i, .right)
      -- Of two boundaries equally near the right one is taken.
      | some a => if b - position ≤ position - a then (i, .right) else (i - 1, .left)
    else closestFrom position (i + 1) (some b) rest

/-- The boundary nearest to a position: its index and the side on which it lies. -/
def closestBoundary (s : Session) (position : Int) : Nat × Side :=
  closestFrom position 0 none (Line.boundaries s.analysis.spans)

/-- Why a cursor cannot be moved to a side. -/
def obstacle? (c : Cursor) (side : Side) : Option Fault :=
  if !c.active then some .inactiveCursor else if side = .neither then some .noDirection else none

/-- The place of the next boundary to the left: that with the index `i` and those before it are
looked through for one that lies before `position`. -/
def leftward (boundaries : List Nat) (i position : Nat) : Nat :=
  ((boundaries.take (i + 1)).reverse.find? (· < position)).getD 0

/-- The place of the next boundary to the right: that with the index `i` and those behind it are
looked through for one that lies behind `position`; the end of the line if there is none. -/
def rightward (boundaries : List Nat) (length i position : Nat) : Nat :=
  ((boundaries.drop i).find? (position < ·)).getD length

/-- The place of the next boundary to a side of a cursor, the ends of the line counted in. -/
def jumpFrom (s : Session) (side : Side) (position : Nat) : Nat :=
  let boundaries := Line.boundaries s.analysis.spans
  if boundaries = [] then if side = .left then 0 else s.text.length
  else
    let (i, nearest) := s.closestBoundary position
    if nearest = side then boundaries[i]?.getD 0
    else if side = .left then leftward boundaries i position
    else rightward boundaries s.text.length i position

/-- The place of the next boundary to a side of a cursor. -/
def jump (s : Session) (side : Side) (c : Cursor) : Except Fault Nat :=
  match obstacle? c side with
  | some fault => .error fault
  | none => .ok (s.jumpFrom side c.position)

/-- The place `n` characters to a side of a position, not beyond that end of the line. -/
def shiftFrom (s : Session) (side : Side) (n : Int) (position : Nat) : Int :=
  if side = .left then max 0 (position - n) else min s.text.length (position + n)

/-- The place `n` characters to a side of a cursor. -/
def shift (s : Session) (side : Side) (n : Int) (c : Cursor) : Except Fault Int :=
  match obstacle? c side with
  | some fault => .error fault
  | none => .ok (s.shiftFrom side n c.position)

/-- A place moved into the line. -/
def clamp (s : Session) (position : Int) : Nat := (max 0 (min position s.text.length)).toNat

/-- The session with the caret at a place. -/
def place (s : Session) (position : Int) : Session := { s with caret := s.clamp position }

/-- The session with the anchor at a place and active. -/
def anchorAt (s : Session) (position : Int) : Session :=
  { s with anchor := ⟨s.clamp position, true⟩ }

/-- The session without a selection. -/
def deselect (s : Session) : Session := { s with anchor := { s.anchor with active := false } }

end Session

end Typeahead
