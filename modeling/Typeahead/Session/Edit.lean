import Typeahead.Session.Cursor

/-!
# Changing the text

Text goes in at the caret, whole or not at all: what would go over the capacity is dropped.  Text
goes out between the anchor and the caret.

## Main definitions

* `Session.insertChar`, `Session.insertAll` — putting text in.
* `Session.removeSelection` — taking text out.
* `Session.reset` — an empty line again.
-/

namespace Typeahead

namespace Session

/-- The session with a notice of the line in its journal. -/
def noteLine (s : Session) : Session :=
  { s with context := s.context.note [⟨.debug, .line⟩] }

/-- The session with a text put in at the caret. -/
def splice (s : Session) (t : Text) : Session :=
  { s with text := s.text.take s.caret ++ t ++ s.text.drop s.caret, caret := s.caret + t.length }

/-- A character put in at the caret, if the line is not full. -/
def insertChar (s : Session) (c : Char) : Session :=
  if s.capacity ≤ s.text.length then s.noteLine else s.splice [c]

/-- A text put in at the caret, if all of it fits. -/
def insertAll (s : Session) (t : Text) : Session :=
  if s.capacity < s.text.length + t.length then s.noteLine else s.splice t

/-- The selection taken out, the caret where it was. -/
def removeSelection (s : Session) : Session :=
  { s with
    text := s.text.take s.selection.1 ++ s.text.drop s.selection.2
    caret := s.selection.1
    anchor := { s.anchor with active := false } }

/-- An empty line again, about which nothing is known. -/
def reset (s : Session) : Session :=
  { s with text := [], caret := 0, anchor := ⟨0, false⟩, analysis := .empty }

end Session

end Typeahead
