import Typeahead.Proofs.Line.Position
import Typeahead.Proofs.Session.InStep

/-!
# The arguments of an updated line

An update divides the line anew, and as long as the analysis is in step with the line its arguments
are those that the line divides into.

## Main results

* `Session.arguments_update` — **an update finds the division of the line.**
* `Session.InStep.exists_around` — a line seen from one of its arguments.
-/

namespace Typeahead

namespace Session

/-- **An update finds the division of the line.**  Whether it fails or not, afterwards the arguments
of a line that is not empty are its one division; their spans follow one another with one place
between them, from the start of the line to its end.  An empty line has no spans. -/
theorem arguments_update (s : Session) :
    let t := s.update.session
    (s.text ≠ [] →
      (∀ pieces, Line.Division s.text pieces ↔ pieces = t.arguments) ∧
        t.analysis.spans.head?.map Span.start = some 0 ∧
        t.analysis.spans.getLast?.map Span.stop = some s.text.length ∧
        t.analysis.spans.IsChain fun span next => next.start = span.stop + 1) ∧
    (s.text = [] → t.analysis.spans = []) := by
  intro t
  have hspans : t.analysis.spans = Line.spans s.text := rfl
  rw [hspans]
  constructor
  · intro hne
    refine ⟨fun pieces => Line.division_iff hne, Line.head?_start_spans hne,
      Line.getLast?_stop_spans hne, ?_⟩
    rw [Line.spans_eq_laid hne]
    exact Line.isChain_laid 0 _
  · intro hnil
    rw [hnil]
    rfl

/-- A quoted space stays in its argument, and a space at the end opens an empty one. -/
theorem arguments_update_sample :
    let s := (start .sample 80).insertAll ['a', ' ', '"', 'b', ' ', 'c', '"', ' ']
    s.text ≠ [] ∧ Line.Division s.text [['a'], ['"', 'b', ' ', 'c', '"'], []] := by
  intro s
  have hne : s.text ≠ [] := by decide
  exact ⟨hne, (((arguments_update s).1 hne).1 _).mpr rfl⟩

theorem length_arguments (s : Session) : s.arguments.length = s.count := by
  simp only [arguments, List.length_map, count]

namespace InStep

variable {s : Session}

/-- The arguments of a line in step are its division. -/
theorem division (h : InStep s) (hne : s.text ≠ []) : Line.Division s.text s.arguments := by
  rw [h.arguments_eq]
  exact Line.division_arguments hne

/-- **A line seen from one of its arguments**: there are the arguments before it and those behind
it, and its span ends where they say. -/
theorem exists_around (h : InStep s) {i : Nat} {span : Span}
    (hspan : s.analysis.spans[i]? = some span) :
    ∃ before after, before.length = i ∧
      s.arguments = before ++ span.of s.text :: after ∧
      span.stop = (Line.leading before).length + (span.of s.text).length := by
  rw [h.spans] at hspan
  obtain ⟨before, after, hlength, harguments, -, hstop⟩ := Line.exists_around hspan
  exact ⟨before, after, hlength, h.arguments_eq.trans harguments, hstop⟩

end InStep

end Session

end Typeahead
