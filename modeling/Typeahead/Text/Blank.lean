import Typeahead.Text.Basic

/-!
# Blanks and words

Two sets of characters count as blank, each for a purpose of its own: the separators between the
words of a hook, which are also trimmed off a line's end; and the characters around a numeral that
do not belong to it.  They differ only in four control characters.

## Main definitions

* `isBlank` — white space, the four information separators U+001C to U+001F included.
* `isSpace` — white space without those four.
* `Text.words` — the longest runs without a blank.
-/

namespace Typeahead

/-- The blanks from U+0085 on, which every one of the sets has. -/
def isWideSpace (c : Char) : Bool :=
  c == '\u0085' || c == '\u00a0' || c == '\u1680' || ('\u2000' ≤ c && c ≤ '\u200a') ||
    c == '\u2028' || c == '\u2029' || c == '\u202f' || c == '\u205f' || c == '\u3000'

/-- White space: the plain space, the controls that move the carriage, and the wide spaces. -/
def isSpace (c : Char) : Bool := ('\t' ≤ c && c ≤ '\r') || c == ' ' || isWideSpace c

/-- A blank: white space or an information separator. -/
def isBlank (c : Char) : Bool := ('\x1c' ≤ c && c ≤ '\x1f') || isSpace c

namespace Text

/-- The words of a text: its longest runs of characters that are no blanks. -/
def words : Text → List Text
  | [] => []
  | [c] => if isBlank c then [] else [[c]]
  | c :: d :: t =>
    if isBlank c then words (d :: t)
    else if isBlank d then [c] :: words (d :: t)
    else
      match words (d :: t) with
      | [] => [[c]]
      | word :: rest => (c :: word) :: rest

end Text

end Typeahead
