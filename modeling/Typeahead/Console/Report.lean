import Typeahead.Session.Opening
import Typeahead.Text.Blank

/-!
# What the commands print

## Main definitions

* `Console.inspection` — the arguments of a line with their kinds and what fits them best.
* `Console.expansion` — what a line runs.
* `Console.listing` — the grammars.
-/

namespace Typeahead

namespace Console

/-- A text, or a dash for none. -/
def orDash (t : Text) : Text := if t = [] then ['-'] else t

/-- A line about one argument. -/
def argumentLine (s : Session) (i : Nat) (span : Span) (kind : ArgumentKind)
    (suggestion : Suggestion) : Text :=
  (if i = s.analysis.current then '*' else ' ') :: (Text.ofNat i).padLeft 3 ++ ' ' ::
    (Text.ofNat span.start).padLeft 4 ++ '-' :: (Text.ofNat span.stop).padRight 4 ++ ' ' ::
    kind.word.padRight 10 ++ ' ' :: (span.of s.text).quoted.padRight 24 ++ ' ' ::
    orDash (suggestion.best.getD [])

/-- Lines about some arguments, the first of which has the index `i`. -/
def argumentLines (s : Session) (i : Nat) : List (Span × ArgumentKind × Suggestion) → List Text
  | [] => []
  | (span, kind, suggestion) :: rest =>
    argumentLine s i span kind suggestion :: argumentLines s (i + 1) rest

/-- The name of the grammar, and under it the arguments with their kinds and what fits them best. -/
def inspection (s : Session) : List Text :=
  ("grammar: ".toList ++
      match s.analysis.grammar with
      | some g => g.name
      | none => ['-']) ::
    argumentLines s 0 (s.analysis.spans.zip s.analysis.table)

/-- What a line runs, each command on a line of its own. -/
def expansion (c : Command) : List Text :=
  c.before.map ("before: ".toList ++ ·) ++ c.line :: c.after.map ("after: ".toList ++ ·)

/-- A slot in the list of grammars: its placeholder, or the word for its kind. -/
def slotLabel (s : Slot) : Text :=
  '<' :: (if s.placeholder = [] then s.kind.word else s.placeholder) ++ ['>']

/-- Two lines about a grammar. -/
def grammarLines (g : Grammar) : List Text :=
  let slots := Text.join ' ' (g.slots.map slotLabel)
  let flags := Text.joinWith [',', ' '] (g.flags.map Flag.name)
  let valueFlags := Text.joinWith [',', ' '] (g.valueFlags.map ValueFlag.name)
  [Text.trimRight isBlank (g.name ++ " -> ".toList ++ g.target ++ ' ' :: slots),
    "  flags: ".toList ++ orDash flags ++ "  flag pairs: ".toList ++ orDash valueFlags]

/-- The grammars, two lines each. -/
def listing (grammars : List Grammar) : List Text :=
  if grammars = [] then ["No command grammars configured.".toList]
  else grammars.flatMap grammarLines

end Console

end Typeahead
