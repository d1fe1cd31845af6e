import Typeahead.Line.Command
import Typeahead.Line.Span
import Typeahead.Session.Table

/-!
# Sessions

A session is a line being typed: its text, which has a greatest length, the caret, the anchor of a
selection, and what is known about the line.  The selection reaches from the anchor to the caret and
is there only while the anchor is active.

What is known about the line, its analysis, belongs to the text and the caret at the last update.
Changing the text or the caret does not change it; updating works it out anew.

## Main definitions

* `Cursor`, `Analysis`, `Session` — the parts and the session.
* `Session.arguments`, `Session.selection`, `Session.command` — views of a session.
* `Session.update` — the analysis brought up to date.
* `Outcome` — a session with the answer of an operation.
-/

namespace Typeahead

/-- A position in the line that is or is not in use. -/
structure Cursor where
  position : Nat
  active : Bool
  deriving DecidableEq, Repr

/-- What is known about a line. -/
structure Analysis where
  spans : List Span
  /-- The positions of the double quotes. -/
  quotes : List Nat
  /-- The index of the argument that the caret is in. -/
  current : Nat
  grammar : Option Grammar
  readings : List Reading
  table : Table
  deriving DecidableEq, Repr

/-- What is known about an empty line. -/
def Analysis.empty : Analysis := ⟨[], [], 0, none, [], []⟩

/-- A line being typed. -/
structure Session where
  context : Context
  /-- The greatest length of the text. -/
  capacity : Int
  text : Text
  caret : Nat
  anchor : Cursor
  analysis : Analysis
  deriving DecidableEq, Repr

/-- A session with the answer of an operation on it. -/
structure Outcome (α : Type) where
  session : Session
  answer : Except Fault α

namespace Session

/-- An empty line. -/
def start (context : Context) (capacity : Int) : Session :=
  ⟨context, capacity, [], 0, ⟨0, false⟩, .empty⟩

/-! ### Views -/

/-- The number of arguments. -/
def count (s : Session) : Nat := s.analysis.spans.length

/-- The texts of the spans. -/
def arguments (s : Session) : List Text := s.analysis.spans.map fun span => span.of s.text

/-- The caret as a cursor; it is always active. -/
def main (s : Session) : Cursor := ⟨s.caret, true⟩

/-- The two ends of the selection in order; both are the caret if there is none. -/
def selection (s : Session) : Nat × Nat :=
  if s.anchor.active then (min s.anchor.position s.caret, max s.anchor.position s.caret)
  else (s.caret, s.caret)

/-- What the line runs. -/
def command (s : Session) : Except Fault Command :=
  Command.ofReadings s.analysis.grammar s.arguments s.analysis.readings

/-- The boundary at an index of the list of all, which counts from the end if it is negative. -/
def boundary (s : Session) (i : Int) : Except Fault Nat :=
  entryAt (Line.boundaries s.analysis.spans) i

/-- The two boundaries of an argument, which counts from the end if its index is negative. -/
def boundariesOf (s : Session) (i : Int) : Except Fault (Nat × Nat) := do
  let start ← s.boundary (2 * i)
  let stop ← s.boundary (2 * i + 1)
  pure (start, stop)

/-! ### Updating -/

/-- The notice of a grammar that is another one than before. -/
def grammarNotice (before after : Option Grammar) : List Notice :=
  if before = after then [] else [⟨.debug, .classification⟩]

/-- The analysis brought up to date: the spans and the current argument first, then the grammar and
the readings, then the suggestions one after the other. -/
def update (s : Session) : Outcome Unit :=
  let arguments := Line.arguments s.text
  let grammar := s.context.grammarFor (arguments.headD [])
  let readings := Reading.ofArguments grammar arguments
  let context := s.context.note (grammarNotice s.analysis.grammar grammar)
  let refreshed := Table.refresh context (arguments.zip readings) s.analysis.table
  { session :=
      { s with
        context := refreshed.context
        analysis :=
          { spans := Line.spans s.text
            quotes := Line.quotes s.text
            current := Line.indexAt s.text s.caret
            grammar, readings
            table := refreshed.table } }
    answer :=
      match refreshed.fault with
      | none => .ok ()
      | some fault => .error fault }

/-- The outcome of an update, with an answer of one's own if it went well. -/
def updateWith {α : Type} (s : Session) (answer : α) : Outcome α :=
  let outcome := s.update
  ⟨outcome.session, outcome.answer.map fun _ => answer⟩

end Session

end Typeahead
