import Typeahead.Text.Basic

/-!
# Terminal sequences

A terminal sequence asks a terminal for a colour or the like: the escape character, an opening
bracket, any number of parameters, any number of marks and a character that ends it.  What is not
shown on a terminal goes without them.  The text is read one character at a time; what may be the
start of a sequence is held back until it turns out to be one, and is dropped, or not to be one, and
is let go.

## Main definitions

* `SequencePart` — what may come next in a sequence, with `SequencePart.read`.
* `Text.withoutSequences` — a text without its terminal sequences.
-/

namespace Typeahead

/-- The escape character. -/
def escapeMark : Char := '\x1b'

/-- What may come next in the start of a sequence. -/
inductive SequencePart
  /-- The bracket alone. -/
  | bracket
  /-- A parameter, a mark or the end. -/
  | parameter
  /-- A mark or the end. -/
  | mark

/-- What a character means for the start of a sequence. -/
inductive SequenceStep
  /-- The sequence goes on, and this may come next. -/
  | more (next : SequencePart)
  /-- The sequence is complete. -/
  | complete
  /-- It is no sequence after all. -/
  | broken

/-- The step from the marks on: the parameters, the marks and the ends are the three stretches of
printable ASCII from `0`, from the space and from `@`. -/
def SequencePart.readMark (c : Char) : SequenceStep :=
  if ' ' ≤ c && c ≤ '/' then .more .mark
  else if '@' ≤ c && c ≤ '~' then .complete
  else .broken

/-- The step that a character makes. -/
def SequencePart.read : SequencePart → Char → SequenceStep
  | .bracket, c => if c = '[' then .more .parameter else .broken
  | .parameter, c => if '0' ≤ c && c ≤ '?' then .more .parameter else readMark c
  | .mark, c => readMark c

namespace Text

/-- The rest of a text without its terminal sequences, behind the start of a sequence that is held
back and what may come next in it. -/
def withoutSequencesFrom : Option (Text × SequencePart) → Text → Text
  | none, [] => []
  | some (held, _), [] => held
  | none, c :: t =>
    if c = escapeMark then withoutSequencesFrom (some ([c], .bracket)) t
    else c :: withoutSequencesFrom none t
  | some (held, part), c :: t =>
    match part.read c with
    | .more next => withoutSequencesFrom (some (held ++ [c], next)) t
    | .complete => withoutSequencesFrom none t
    | .broken =>
      -- What is held back has no other start of a sequence in it, but `c` may be one.
      if c = escapeMark then held ++ withoutSequencesFrom (some ([c], .bracket)) t
      else held ++ c :: withoutSequencesFrom none t

/-- The text without its terminal sequences. -/
def withoutSequences (t : Text) : Text := withoutSequencesFrom none t

end Text

end Typeahead
