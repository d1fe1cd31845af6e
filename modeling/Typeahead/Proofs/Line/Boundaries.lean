import Typeahead.Proofs.Line.Position

/-!
# The boundaries of a line in order

The boundaries of a line are the starts and the stops of its spans, one span after the other.  They
never go back, from the start of the line to its end.  Where an argument is empty its start and its
stop are one place, which stands in the list twice.

## Main results

* `Line.pairwise_boundaries` — **the boundaries of a line never go back.**
* `Line.zero_mem_boundaries`, `Line.length_mem_boundaries` — they reach from the start of the line
  to its end.
-/

namespace Typeahead

namespace Line

variable {t : Text} {here b : Nat} {pieces : List Text} {all : List Span}

@[simp] theorem boundaries_nil : boundaries [] = [] := rfl

@[simp] theorem boundaries_cons (span : Span) (rest : List Span) :
    boundaries (span :: rest) = span.start :: span.stop :: boundaries rest := rfl

/-- A boundary is the start or the stop of a span. -/
theorem mem_boundaries : b ∈ boundaries all ↔ ∃ span ∈ all, b = span.start ∨ b = span.stop := by
  simp only [boundaries, List.mem_flatMap, List.mem_cons, List.not_mem_nil, or_false]

/-- Where pieces are laid out, no boundary is before the place where the first of them starts. -/
theorem le_of_mem_boundaries_laid (h : b ∈ boundaries (laid here pieces)) : here ≤ b := by
  induction pieces generalizing here with
  | nil => cases h
  | cons piece rest ih =>
    simp only [laid, boundaries_cons, List.mem_cons] at h
    rcases h with rfl | rfl | h
    · exact Nat.le_refl _
    · exact Nat.le_add_right _ _
    · have hbehind := ih h
      omega

theorem pairwise_boundaries_laid (here : Nat) (pieces : List Text) :
    (boundaries (laid here pieces)).Pairwise (· ≤ ·) := by
  induction pieces generalizing here with
  | nil => exact .nil
  | cons piece rest ih =>
    have hbehind : ∀ b ∈ boundaries (laid (here + piece.length + 1) rest),
        here + piece.length ≤ b := by
      intro b hb
      have hle := le_of_mem_boundaries_laid hb
      omega
    simp only [laid, boundaries_cons, List.pairwise_cons, List.mem_cons]
    refine ⟨?_, hbehind, ih _⟩
    rintro b (rfl | hb)
    · exact Nat.le_add_right _ _
    · exact (Nat.le_add_right _ _).trans (hbehind b hb)

/-- **The boundaries of a line never go back.** -/
theorem pairwise_boundaries (t : Text) : (boundaries (spans t)).Pairwise (· ≤ ·) := by
  by_cases hne : t = []
  · rw [hne]
    exact .nil
  · rw [spans_eq_laid hne]
    exact pairwise_boundaries_laid 0 _

/-- No boundary is behind the end of the line. -/
theorem le_length_of_mem_boundaries (h : b ∈ boundaries (spans t)) : b ≤ t.length := by
  obtain ⟨span, hspan, hb⟩ := mem_boundaries.mp h
  have hstop : span.stop ≤ t.length := stop_le hspan
  obtain ⟨i, hi⟩ := List.getElem?_of_mem hspan
  have hlength := start_add_length hi
  rcases hb with rfl | rfl <;> omega

/-- The start of a line is a boundary. -/
theorem zero_mem_boundaries (hne : t ≠ []) : 0 ∈ boundaries (spans t) := by
  obtain ⟨span, hhead, hstart⟩ := Option.map_eq_some_iff.mp (head?_start_spans hne)
  exact mem_boundaries.mpr ⟨span, List.mem_of_mem_head? hhead, .inl hstart.symm⟩

/-- The end of a line is a boundary. -/
theorem length_mem_boundaries (hne : t ≠ []) : t.length ∈ boundaries (spans t) := by
  obtain ⟨span, hlast, hstop⟩ := Option.map_eq_some_iff.mp (getLast?_stop_spans hne)
  exact mem_boundaries.mpr ⟨span, List.mem_of_getLast? hlast, .inr hstop.symm⟩

end Line

end Typeahead
