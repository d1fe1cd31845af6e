import Typeahead.Session.Edit

/-!
# Completing an argument

Completing the current argument puts in what is still missing of what fits it best.  A double quote
that closes the argument stays behind what is put in.

## Main definitions

* `Session.currentArgument` — the current argument with its suggestion.
* `Session.fitting` — the choices that fit it.
* `Session.setBest` — what fits best set by hand.
* `Session.accept` — the current argument completed.
-/

namespace Typeahead

namespace Session

/-- The current argument with its suggestion.  A line without one has the empty argument, for a
program; an index past the end counts as the last. -/
def currentArgument (s : Session) : Outcome (Text × Suggestion) :=
  match (s.analysis.spans.zip s.analysis.table) with
  | [] =>
    match s.context.programs with
    | (context, .ok names) =>
      ⟨{ s with context }, .ok ([], Suggestion.forProgram names [] none)⟩
    | (context, .error fault) => ⟨{ s with context }, .error fault⟩
  | first :: rest =>
    let (span, _, suggestion) := (first :: rest)[min s.analysis.current rest.length]?.getD first
    ⟨s, .ok (span.of s.text, suggestion)⟩

/-- The choices that fit the current argument. -/
def fitting (s : Session) : Outcome (List Text) :=
  let outcome := s.currentArgument
  ⟨outcome.session, outcome.answer.map fun (argument, suggestion) =>
    suggestion.fitting (argument.drop suggestion.skip)⟩

/-- The index of the current argument; none if the line is empty. -/
def currentIndex? (s : Session) : Option Nat :=
  match s.count with
  | 0 => none
  | n + 1 => some (min s.analysis.current n)

/-- What fits an argument best set by hand; an argument that is not there is passed over. -/
def setBest (s : Session) (i : Int) (best : Option Text) : Session :=
  if 0 ≤ i && i < s.analysis.table.length then
    { s with analysis := { s.analysis with table := s.analysis.table.setBest i.toNat best } }
  else s.noteLine

/-- What is put in where to complete an argument. -/
structure Completion where
  /-- Whether a double quote closes the argument. -/
  closed : Bool
  /-- What is still missing of what fits best. -/
  missing : Text
  deriving DecidableEq, Repr

/-- The completion of an argument, if something of what fits it best is missing: not if nothing is
typed and only the placeholder fits. -/
def completion? (argument : Text) (suggestion : Suggestion) : Option Completion :=
  match suggestion.best with
  | none => none
  | some best =>
    let tail := argument.drop suggestion.skip
    -- A closing quote is not part of what is typed.
    let closed := Text.endsIn '"' tail
    let typed := if closed then tail.dropLast else tail
    if best = [] then none
    else if typed = [] && suggestion.best = suggestion.placeholder then none
    else if !typed.isPrefixOf best || best.length = typed.length then none
    else some ⟨closed, best.drop typed.length⟩

/-- The place at which a completion goes in: the end of the current argument, before a double quote
that closes it. -/
def completionPlace (s : Session) (closed : Bool) : Int :=
  match s.currentIndex?.bind fun i => s.analysis.spans[i]? with
  | some span => span.stop - (if closed then 1 else 0)
  | none => 0

/-- The current argument completed; the answer tells whether something was to be put in. -/
def accept (s : Session) : Outcome Bool :=
  let outcome := s.currentArgument
  match outcome.answer with
  | .error fault => ⟨outcome.session, .error fault⟩
  | .ok (argument, suggestion) =>
    match completion? argument suggestion with
    | none => ⟨outcome.session, .ok false⟩
    | some completion =>
      let s := outcome.session
      let placed := s.deselect.place (s.completionPlace completion.closed)
      (placed.insertAll completion.missing).updateWith true

end Session

end Typeahead
