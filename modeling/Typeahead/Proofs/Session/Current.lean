import Typeahead.Proofs.Line.Position
import Typeahead.Proofs.Session.InStep
import Typeahead.Proofs.Session.Operation

/-!
# The current argument

The current argument is found by counting the cuts before the caret while the line is walked
through, and not by a look at the spans.  It is nevertheless the argument whose span takes up the
caret: at a boundary, in an empty argument, between double quotes and at the end of the line, and
after whatever was done to the line.

## Main results

* `Session.current_follow` — **the current argument is the one whose span takes up the caret.**
-/

namespace Typeahead

namespace Session

theorem inBounds_follow (context : Context) (capacity : Int) (events : List Event) :
    InBounds ((start context capacity).follow events) := by
  rw [follow_eq_operateAll]
  exact inBounds_operateAll context capacity _

/-- **The current argument is the one whose span takes up the caret.**  After any events, failed
updates among them, its index is the number of spans that end before the caret.  In a line that is
not empty there is such an argument, its span takes up the caret and no other does; and likewise
every position of the line is taken up by exactly one span. -/
theorem current_follow (context : Context) (capacity : Int) (events : List Event) :
    let s := (start context capacity).follow events
    s.analysis.current = s.analysis.spans.countP (fun span => span.stop < s.caret) ∧
      (s.text ≠ [] → s.analysis.current < s.count ∧
        ∀ (i : Nat) (span : Span), s.analysis.spans[i]? = some span →
          (span.Covers s.caret ↔ i = s.analysis.current)) ∧
      (s.text ≠ [] → ∀ position, position ≤ s.text.length →
        ∃! i : Nat, ∃ span, s.analysis.spans[i]? = some span ∧ span.Covers position) := by
  intro s
  have hs : InStep s := inStep_follow context capacity events
  have hcaret : s.caret ≤ s.text.length := (inBounds_follow context capacity events).caret
  rw [hs.current, count, hs.spans]
  refine ⟨?_, fun hne => ⟨Line.indexAt_lt hne s.caret, fun i span => Line.covers_iff hcaret⟩, ?_⟩
  · rw [Line.indexAt_eq hcaret, ← List.countP_eq_length_filter, List.countP_map]
    rfl
  · intro hne position hle
    obtain ⟨i, span, hspan, hcovers⟩ := Line.exists_covers hne hle
    refine ⟨i, ⟨span, hspan, hcovers⟩, ?_⟩
    rintro j ⟨other, hother, hcovers'⟩
    rw [← Line.indexAt_of_covers hspan hcovers, Line.indexAt_of_covers hother hcovers']

/-- Between two spaces there is an empty argument, and the caret between them is in it. -/
theorem current_follow_sample :
    let s := (start .sample 80).follow
      [.act (.insert ['a', ' ', ' ', '"', 'b', ' ', 'c', '"']), .act (.move .left .word false),
        .act (.move .left .word false)]
    s.text ≠ [] ∧ s.caret = 2 ∧ s.analysis.spans[1]? = some ⟨2, 2⟩ ∧ s.analysis.current = 1 := by
  intro s
  have hne : s.text ≠ [] := by decide
  have hcaret : s.caret = 2 := by decide
  have hspan : s.analysis.spans[1]? = some ⟨2, 2⟩ := by decide
  obtain ⟨-, hcurrent, -⟩ := current_follow .sample 80
    [.act (.insert ['a', ' ', ' ', '"', 'b', ' ', 'c', '"']), .act (.move .left .word false),
      .act (.move .left .word false)]
  obtain ⟨-, hiff⟩ := hcurrent hne
  have hcovers : Span.Covers ⟨2, 2⟩ s.caret := ⟨hcaret.ge, hcaret.le⟩
  exact ⟨hne, hcaret, hspan, ((hiff 1 _ hspan).mp hcovers).symm⟩

end Session

end Typeahead
