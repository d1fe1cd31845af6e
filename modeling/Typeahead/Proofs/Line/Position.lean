import Typeahead.Proofs.Line.Insertion

/-!
# Which argument a position is in

A position is a place before, between or behind the characters of a line.  An argument takes up the
positions from its start to its stop, both counted in; the space behind it has the stop on its left
and the start of the next argument on its right.  So no position is left out and none is taken up
twice, not even where an argument is empty, and the index of a position is that of the argument
which takes it up.

## Main definitions

* `Span.Covers` — a span takes up a position.

## Main results

* `Line.exists_around` — a line seen from one of its spans.
* `Line.exists_covers` — every position of a line is taken up.
* `Line.covers_iff` — **a position is taken up by the argument at its index and by no other.**
-/

namespace Typeahead

/-- A span takes up a position, its two ends counted in. -/
def Span.Covers (s : Span) (position : Nat) : Prop := s.start ≤ position ∧ position ≤ s.stop

namespace Line

variable {t : Text} {i position : Nat} {span : Span}

/-- An empty line has no spans. -/
theorem ne_nil_of_span (hspan : (spans t)[i]? = some span) : t ≠ [] := by
  rintro rfl
  cases hspan

/-- **A line seen from one of its spans**: there are the arguments before it and those behind it,
and it reaches from the end of what stands before it as far as its own argument. -/
theorem exists_around (hspan : (spans t)[i]? = some span) :
    ∃ before after, before.length = i ∧ arguments t = before ++ span.of t :: after ∧
      span.start = (leading before).length ∧
      span.stop = (leading before).length + (span.of t).length := by
  obtain ⟨hlt, hget⟩ := List.getElem?_eq_some_iff.mp hspan
  have hlt' : i < (arguments t).length := by
    rw [arguments, List.length_map]
    exact hlt
  have hargument : (arguments t)[i] = span.of t := by
    simp only [arguments, List.getElem_map, hget]
  have hsplit : arguments t = (arguments t).take i ++ span.of t :: (arguments t).drop (i + 1) := by
    rw [← hargument, ← List.drop_eq_getElem_cons hlt', List.take_append_drop]
  have hlength : ((arguments t).take i).length = i := List.length_take_of_le hlt'.le
  -- Of the spans laid out, the one behind those of the arguments before is the argument's.
  rw [spans_eq_laid (ne_nil_of_span hspan), hsplit, laid_append_cons, List.getElem?_append_right
    (by rw [length_laid, hlength]), length_laid, hlength, Nat.sub_self,
    List.getElem?_cons_zero, Option.some.injEq, Nat.zero_add] at hspan
  exact ⟨_, _, hlength, hsplit, (congrArg Span.start hspan).symm, (congrArg Span.stop hspan).symm⟩

/-- A span is as long as its argument. -/
theorem start_add_length (hspan : (spans t)[i]? = some span) :
    span.start + (span.of t).length = span.stop := by
  obtain ⟨before, after, -, -, hstart, hstop⟩ := exists_around hspan
  rw [hstart, hstop]

/-- A position belongs to the argument that takes it up. -/
theorem indexAt_of_covers (hspan : (spans t)[i]? = some span) (h : span.Covers position) :
    indexAt t position = i := by
  have hne := ne_nil_of_span hspan
  obtain ⟨before, after, rfl, harguments, hstart, hstop⟩ := exists_around hspan
  obtain ⟨hle, hge⟩ := h
  have hdivision := division_arguments hne
  rw [harguments] at hdivision
  exact hdivision.indexAt_eq hne (hstart ▸ hle) (hstop ▸ hge)

/-- Of pieces laid out one takes up a position from the first start to the last stop: the first one,
or one of the rest if the position is behind the space. -/
theorem exists_covers_laid {here : Nat} {pieces : List Text} (hne : pieces ≠ [])
    (hle : here ≤ position) (hge : position ≤ here + (Text.join ' ' pieces).length) :
    ∃ span ∈ laid here pieces, span.Covers position := by
  -- By induction on the pieces: the first one covers it, or it lies behind the space after that.
  induction pieces generalizing here with
  | nil => exact absurd rfl hne
  | cons piece rest ih =>
    by_cases hfirst : position ≤ here + piece.length
    · exact ⟨_, List.mem_cons_self, hle, hfirst⟩
    · by_cases hlast : rest = []
      · rw [hlast, Text.join_singleton] at hge
        exact absurd hge hfirst
      · rw [Text.join_cons hlast, List.length_append, List.length_cons] at hge
        have hbehind : here + piece.length + 1 ≤ position := by omega
        obtain ⟨span, hspan, hcovers⟩ := ih hlast hbehind (by omega)
        exact ⟨span, List.mem_cons_of_mem _ hspan, hcovers⟩

/-- **Every position of a line is taken up** by some argument. -/
theorem exists_covers (hne : t ≠ []) (hle : position ≤ t.length) :
    ∃ (i : Nat) (span : Span), (spans t)[i]? = some span ∧ span.Covers position := by
  have hdivision := division_arguments hne
  have hend : position ≤ 0 + (Text.join ' ' (arguments t)).length := by
    rw [hdivision.join, Nat.zero_add]
    exact hle
  obtain ⟨span, hspan, hcovers⟩ :=
    exists_covers_laid hdivision.ne_nil (Nat.zero_le position) hend
  rw [← spans_eq_laid hne] at hspan
  obtain ⟨i, hi⟩ := List.getElem?_of_mem hspan
  exact ⟨i, span, hi, hcovers⟩

/-- **A position is taken up by the argument at its index and by no other.** -/
theorem covers_iff (hle : position ≤ t.length) (hspan : (spans t)[i]? = some span) :
    span.Covers position ↔ i = indexAt t position := by
  constructor
  · intro h
    exact (indexAt_of_covers hspan h).symm
  · rintro rfl
    obtain ⟨j, other, hother, hcovers⟩ := exists_covers (ne_nil_of_span hspan) hle
    rw [indexAt_of_covers hother hcovers, hother, Option.some.injEq] at hspan
    rw [← hspan]
    exact hcovers

end Line

end Typeahead
