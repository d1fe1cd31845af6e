import Typeahead.Console.Run
import Typeahead.World.Image

/-!
# The program

The world is described on standard input as JSON text; an input that is none describes a world with
nothing in it.  What the run prints goes to standard output, and its exit code is the program's.
-/

open Typeahead

/-- The program. -/
def main (arguments : List String) : IO UInt32 := do
  let image ← (← IO.getStdin).readToEnd
  let world := World.ofJson ((Json.read image.toList).toOption.getD .null)
  let result := Console.run world (arguments.map String.toList)
  IO.print (String.ofList result.text)
  return result.exitCode.toUInt32
