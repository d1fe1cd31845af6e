import Typeahead.Session.Complete

/-!
# Actions

An action is what a key does.  Every action but one that has nothing to do ends with an update, so
that the analysis belongs to the line as it is then.

## Main definitions

* `Direction`, `Reach`, `Action` — the actions.
* `Session.perform` — an action carried out.
* `Session.run` — some actions one after the other.
-/

namespace Typeahead

/-- A direction in the line. -/
inductive Direction
  | left
  | right
  deriving DecidableEq, Repr

/-- The side that a direction leads to. -/
def Direction.side : Direction → Side
  | .left => .left
  | .right => .right

/-- How far an action reaches. -/
inductive Reach
  | character
  | word
  deriving DecidableEq, Repr

/-- What a key does. -/
inductive Action
  /-- A text put in instead of the selection. -/
  | insert (t : Text)
  /-- The line emptied. -/
  | clear
  /-- The selection taken out or, if there is none, what lies within reach. -/
  | delete (d : Direction) (r : Reach)
  /-- The selection taken out. -/
  | deleteSelection
  /-- The caret moved, with the selection drawn along or dropped. -/
  | move (d : Direction) (r : Reach) (selecting : Bool)
  /-- The caret moved to the start of the line. -/
  | toStart
  /-- The caret moved to the end of the line. -/
  | toEnd
  /-- The current argument completed. -/
  | accept
  /-- The current argument completed with a choice made from a list. -/
  | choose (choice : Text)
  deriving DecidableEq, Repr

namespace Session

/-- The place within reach of the caret. -/
def reach (s : Session) (d : Direction) : Reach → Int
  | .character => s.shiftFrom d.side 1 s.caret
  | .word => s.jumpFrom d.side s.caret

/-- A text put in instead of the selection; an empty one is no action at all. -/
def insert (s : Session) (t : Text) : Outcome Unit :=
  let freed := if s.anchor.active then s.removeSelection else s
  match t with
  | [] => ⟨s, .ok ()⟩
  | [c] => (freed.insertChar c).update
  | t => (freed.insertAll t).update

/-- The selection taken out or, if there is none, what lies within reach. -/
def delete (s : Session) (d : Direction) (r : Reach) : Outcome Unit :=
  (if s.anchor.active then s else s.anchorAt (s.reach d r)).removeSelection.update

/-- The caret moved to a place, with the selection drawn along or dropped. -/
def moveTo (s : Session) (position : Int) (selecting : Bool) : Outcome Unit :=
  let anchored :=
    if selecting then if s.anchor.active then s else s.anchorAt s.caret else s.deselect
  (anchored.place position).update

/-- The current argument completed with a choice made from a list; in an empty line the choice is
put in as it is. -/
def choose (s : Session) (choice : Text) : Outcome Bool :=
  match s.currentIndex? with
  | none =>
    let outcome := s.insert choice
    ⟨outcome.session, outcome.answer.map fun _ => true⟩
  | some i => (s.setBest i (some choice)).accept

/-- An outcome whose answer says nothing. -/
def silent (outcome : Outcome Unit) : Outcome (Option Bool) :=
  ⟨outcome.session, outcome.answer.map fun _ => none⟩

/-- An outcome whose answer says whether the action did something. -/
def told (outcome : Outcome Bool) : Outcome (Option Bool) :=
  ⟨outcome.session, outcome.answer.map some⟩

/-- An action carried out; completing an argument answers whether it did something. -/
def perform (s : Session) : Action → Outcome (Option Bool)
  | .insert t => silent (s.insert t)
  | .clear => silent s.reset.update
  | .delete d r => silent (s.delete d r)
  | .deleteSelection =>
    if s.anchor.active then silent s.removeSelection.update else ⟨s, .ok none⟩
  | .move d r selecting => silent (s.moveTo (s.reach d r) selecting)
  | .toStart => silent (s.moveTo 0 false)
  | .toEnd => silent (s.moveTo s.text.length false)
  | .accept => told s.accept
  | .choose choice => told (s.choose choice)

/-- Some actions one after the other; one that fails does not keep the next from being done. -/
def run (s : Session) : List Action → Session
  | [] => s
  | a :: rest => run (s.perform a).session rest

end Session

end Typeahead
