import Typeahead.Proofs.Grammar.Find
import Typeahead.Proofs.Session.Rebuild

/-!
# The analysis keeps in step with the line

Several actions end without an update, an update may fail half way, and the world may change at any
time.  Nevertheless the spans, the current argument, the grammar and the readings are at all times
those of the text and the caret as they are; only the suggestions may lag behind.  So what a line
runs depends on its text and on the grammars, and not on how it was typed.

## Main definitions

* `Session.InStep` — the analysis is that of the line.
* `Command.ofLine` — what a text runs.

## Main results

* `Session.analysis_follow` — **after any events the analysis is that of the line.**
-/

namespace Typeahead

/-- What a text runs in the presence of some grammars. -/
def Command.ofLine (grammars : List Grammar) (t : Text) : Except Fault Command :=
  let arguments := Line.arguments t
  let name := arguments.headD []
  let grammar := if name = [] then none else Grammar.find? name grammars
  Command.ofReadings grammar arguments (Reading.ofArguments grammar arguments)

namespace Session

/-- The analysis, its table apart, is that of the text and the caret. -/
structure InStep (s : Session) : Prop where
  spans : s.analysis.spans = Line.spans s.text
  quotes : s.analysis.quotes = Line.quotes s.text
  current : s.analysis.current = Line.indexAt s.text s.caret
  grammar : s.analysis.grammar = s.context.grammarFor ((Line.arguments s.text).headD [])
  readings : s.analysis.readings =
    Reading.ofArguments s.analysis.grammar (Line.arguments s.text)

theorem inStep_start (context : Context) (capacity : Int) : InStep (start context capacity) :=
  ⟨rfl, rfl, rfl, rfl, rfl⟩

namespace InStep

variable {s t : Session}

/-- The arguments are those of the text. -/
theorem arguments_eq (h : InStep s) : s.arguments = Line.arguments s.text := by
  simp only [arguments, Line.arguments, h.spans]

/-- An update brings the analysis in step with the line, whether it fails or not. -/
protected theorem update (s : Session) : InStep s.update.session :=
  ⟨rfl, rfl, rfl, (s.alike_update.grammarFor_eq _).symm, rfl⟩

theorem of_spared (h : InStep s) (hspared : Spared s t) : InStep t := by
  refine ⟨?_, ?_, ?_, ?_, ?_⟩
  · rw [hspared.spans, hspared.text]; exact h.spans
  · rw [hspared.quotes, hspared.text]; exact h.quotes
  · rw [hspared.current, hspared.text, hspared.caret]; exact h.current
  · rw [hspared.grammar, hspared.text, hspared.context.grammarFor_eq]; exact h.grammar
  · rw [hspared.readings, hspared.grammar, hspared.text]; exact h.readings

/-- A world and a directory to see paths from say nothing about the grammars. -/
theorem inWorld (h : InStep s) (w : World) : InStep (s.inWorld w) :=
  ⟨h.spans, h.quotes, h.current, h.grammar, h.readings⟩

theorem seenFrom (h : InStep s) (here : Path) : InStep (s.seenFrom here) :=
  ⟨h.spans, h.quotes, h.current, h.grammar, h.readings⟩

/-- Every action leaves the analysis in step with the line, whether it fails or not. -/
protected theorem perform (h : InStep s) (a : Action) : InStep (s.perform a).session :=
  perform_induction a (fun t _ => .update t) (fun _ hspared => h.of_spared hspared)

end InStep

theorem inStep_follow (context : Context) (capacity : Int) (events : List Event) :
    InStep ((start context capacity).follow events) :=
  follow_induction (inStep_start context capacity) (fun _ t _ _ => .update t)
    (fun _ _ h hspared => h.of_spared hspared) (fun _ w h => h.inWorld w)
    (fun _ here h => h.seenFrom here) events

/-- The grammars of a line are there from the start. -/
theorem grammars_follow (context : Context) (capacity : Int) (events : List Event) :
    ((start context capacity).follow events).context.grammars = context.grammars :=
  follow_induction (P := fun s => s.context.grammars = context.grammars) rfl
    (fun _ t h hdraft =>
      (t.alike_update.grammars.trans (Drafted.of_draft hdraft).context.grammars).trans h)
    (fun _ _ h hspared => hspared.context.grammars.trans h) (fun _ _ h => h) (fun _ _ h => h) events

/-- The grammar of a line is the last one of the name that its first argument is. -/
theorem grammarFor_eq_some_iff {c : Context} {arguments : List Text} {g : Grammar} :
    c.grammarFor (arguments.headD []) = some g ↔
      ∃ name rest, arguments = name :: rest ∧ name ≠ [] ∧ Grammar.LastNamed name c.grammars g := by
  cases arguments with
  | nil => simp [Context.grammarFor]
  | cons name rest =>
    change c.grammarFor name = some g ↔ _
    simp only [Context.grammarFor, Option.ite_none_left_eq_some, Grammar.find?_eq_some_iff]
    constructor
    · rintro ⟨hne, hlast⟩
      exact ⟨name, rest, rfl, hne, hlast⟩
    · rintro ⟨name', rest', heq, hne, hlast⟩
      cases heq
      exact ⟨hne, hlast⟩

/-- **After any events the analysis is that of the line**, whether the actions among them failed or
not: the spans, the quotes and the current argument are those of the text and the caret, the grammar
is the last one of the name that the line starts with, the readings are those of the arguments with
that grammar, and what the line runs is a matter of its text and the grammars. -/
theorem analysis_follow (context : Context) (capacity : Int) (events : List Event) :
    let s := (start context capacity).follow events
    s.analysis.spans = Line.spans s.text ∧
      s.analysis.quotes = Line.quotes s.text ∧
      s.analysis.current = Line.indexAt s.text s.caret ∧
      (∀ g, s.analysis.grammar = some g ↔
        ∃ name rest, Line.arguments s.text = name :: rest ∧ name ≠ [] ∧
          Grammar.LastNamed name context.grammars g) ∧
      s.analysis.readings = Reading.ofArguments s.analysis.grammar (Line.arguments s.text) ∧
      s.command = Command.ofLine context.grammars s.text := by
  intro s
  have h : InStep s := inStep_follow context capacity events
  have hgrammars : s.context.grammars = context.grammars := grammars_follow context capacity events
  refine ⟨h.spans, h.quotes, h.current, ?_, h.readings, ?_⟩
  · intro g
    rw [h.grammar, grammarFor_eq_some_iff, hgrammars]
  · simp only [command, Command.ofLine, h.readings, h.grammar, h.arguments_eq, Context.grammarFor,
      hgrammars]

end Session

end Typeahead
