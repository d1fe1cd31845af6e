import Typeahead.Json.Writer
import Typeahead.Number.Numeral

/-!
# Spelling a value out

In the text of a notice a value stands in another form than in a file: nothing and the truth values
have words of their own, and texts are printed between single quotes.  Each value inside another one
takes some of the room that there is for values inside each other, and an integer may only have so
many digits.  So not every value can be written, and what comes first on the way through it decides
what stands in the way.

## Main definitions

* `Json.spell`, `Json.spelling` — the text of a value.
* `Json.Obstacle`, `Json.obstacle?` — what stands in the way of writing it.
-/

namespace Typeahead

namespace Json

/-- Floating-point numbers in the text of a value. -/
def spelledFloats : FloatLayout := { floats with infinite := "inf", notANumber := "nan" }

mutual

/-- The text of a value inside another one. -/
def spell : Json → Text
  | .null => "None".toList
  | .bool true => "True".toList
  | .bool false => "False".toList
  | .int n => Text.ofInt n
  | .float x => x.render spelledFloats
  | .text t => Text.quoted t
  | .list items => '[' :: spellItems items ++ [']']
  | .object members => '{' :: spellMembers members ++ ['}']

/-- The items of a list in its text. -/
def spellItems : List Json → Text
  | [] => []
  | [v] => spell v
  | v :: rest => spell v ++ ',' :: ' ' :: spellItems rest

/-- The members of an object in its text. -/
def spellMembers : List (Text × Json) → Text
  | [] => []
  | [(k, v)] => Text.quoted k ++ ':' :: ' ' :: spell v
  | (k, v) :: rest =>
    Text.quoted k ++ ':' :: ' ' :: (spell v ++ ',' :: ' ' :: spellMembers rest)

end

/-- The text of a value; a text is its own. -/
def spelling : Json → Text
  | .text t => t
  | v => spell v

/-- What may stand in the way of writing a value. -/
inductive Obstacle
  /-- There is no room for one more value inside those around it. -/
  | tooDeep
  /-- An integer has too many digits. -/
  | longInteger
  deriving DecidableEq, Repr

mutual

/-- What stands in the way of writing a value first, with room for so many values inside each
other. -/
def obstacle? : Nat → Json → Option Obstacle
  | 0, _ => some .tooDeep
  | _ + 1, .int n =>
    if Numeral.digitLimit < (Text.ofNat n.natAbs).length then some .longInteger else none
  | room + 1, .list items => itemsObstacle? room items
  | room + 1, .object members => membersObstacle? room members
  | _ + 1, _ => none

/-- What stands in the way of writing the items of a list. -/
def itemsObstacle? (room : Nat) : List Json → Option Obstacle
  | [] => none
  | v :: rest =>
    match obstacle? room v with
    | some obstacle => some obstacle
    | none => itemsObstacle? room rest

/-- What stands in the way of writing the members of an object.  A key lies as deep as its value. -/
def membersObstacle? (room : Nat) : List (Text × Json) → Option Obstacle
  | [] => none
  | (_, v) :: rest =>
    match obstacle? room v with
    | some obstacle => some obstacle
    | none => membersObstacle? room rest

end

end Json

end Typeahead
