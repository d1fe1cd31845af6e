import Typeahead.Json.Reader
import Typeahead.World.Lookup

/-!
# Faults

The reasons for which an operation of the library gives no answer, whatever part of it they come
from.

## Main definitions

* `Fault` — the reasons.
* `Fault.message` — their wording, if they have one.
-/

namespace Typeahead

/-- Why an operation gives no answer. -/
inductive Fault
  /-- A path cannot be used. -/
  | path (fault : PathFault)
  /-- A text is no usable numeral. -/
  | numeral (fault : Numeral.Fault)
  /-- An infinite number has no integer part. -/
  | infiniteNumber
  /-- The value that is not a number has no integer part. -/
  | notANumber
  /-- A value of this kind has no integer part. -/
  | noInteger
  /-- A list or an object of a JSON text has too many others around it. -/
  | deepNesting (container : Json.Container)
  /-- The settings are no object. -/
  | settingsShape
  /-- The search path is no text. -/
  | searchPathShape
  /-- A cursor that is not active has no position. -/
  | inactiveCursor
  /-- A move needs a direction. -/
  | noDirection
  /-- There is no entry of that index. -/
  | noEntry
  /-- An index is no machine word. -/
  | hugeIndex
  /-- The name of a threshold stands for a layout of log lines. -/
  | layoutThreshold
  /-- The name of a threshold stands for the table of layout styles. -/
  | styleThreshold
  deriving DecidableEq, Repr

/-- The word for a container in the wording of a fault. -/
def Json.Container.word : Json.Container → String
  | .list => "array"
  | .object => "object"

/-- The wording of a container that has too many others around it. -/
def Json.Container.depthMessage (c : Json.Container) : Text :=
  "maximum recursion depth exceeded while decoding a JSON ".toList ++ c.word.toList ++
    " from a unicode string".toList

/-- The wording of a fault; the faults of shape have none. -/
def Fault.message : Fault → Option Text
  | .path fault => some fault.message.toList
  | .numeral fault => some fault.message
  | .infiniteNumber => some "cannot convert float infinity to integer".toList
  | .notANumber => some "cannot convert float NaN to integer".toList
  | .deepNesting container => some container.depthMessage
  | .inactiveCursor => some "Cursor is not active".toList
  | .noDirection => some "Side must be 'left' or 'right'".toList
  | .noEntry => some "list index out of range".toList
  | .hugeIndex => some "cannot fit 'int' into an index-sized integer".toList
  | .layoutThreshold => some "Unknown level: '%(levelname)s:%(name)s:%(message)s'".toList
  | .noInteger | .settingsShape | .searchPathShape | .styleThreshold => none

end Typeahead
