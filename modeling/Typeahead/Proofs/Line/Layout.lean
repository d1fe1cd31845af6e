import Typeahead.Line.Span

/-!
# Where the arguments of a line end

The arguments of a line end at its cuts, and the last one ends with the line.  So they end one
behind the other, no two of them at one place even where an argument is empty, and there is one more
of them than there are cuts.

## Main results

* `Line.stops_eq` — the ends of the arguments are the cuts and the end of the line.
* `Line.stop_lt_stop` — **an argument ends before every later one does.**
* `Line.indexAt_lt` — every position of a line belongs to an argument of it.
-/

namespace Typeahead

namespace Line

theorem stops_spansFrom (here start : Nat) (quoted : Bool) (t : Text) :
    (spansFrom here start quoted t).map Span.stop =
      cutsFrom here quoted t ++ [here + t.length] := by
  induction t generalizing here start quoted with
  | nil => rfl
  | cons c t ih =>
    have hlength : here + 1 + t.length = here + (c :: t).length := by
      rw [List.length_cons]
      omega
    -- A quote and a character inside an argument only move the position; a cut ends an argument.
    simp only [spansFrom, cutsFrom]
    split
    · rw [ih, hlength]
    · split
      · rw [List.map_cons, ih, hlength]; rfl
      · rw [ih, hlength]

theorem le_of_mem_cutsFrom {here cut : Nat} {quoted : Bool} {t : Text}
    (h : cut ∈ cutsFrom here quoted t) : here ≤ cut ∧ cut < here + t.length := by
  induction t generalizing here quoted with
  | nil => cases h
  | cons c t ih =>
    simp only [cutsFrom] at h
    rw [List.length_cons]
    split at h
    · have := ih h; omega
    · split at h
      · rcases List.mem_cons.mp h with rfl | h
        · omega
        · have := ih h; omega
      · have := ih h; omega

theorem pairwise_cutsFrom (here : Nat) (quoted : Bool) (t : Text) :
    (cutsFrom here quoted t).Pairwise (· < ·) := by
  induction t generalizing here quoted with
  | nil => exact .nil
  | cons c t ih =>
    simp only [cutsFrom]
    split
    · exact ih _ _
    · split
      · exact .cons (fun _ hcut => (le_of_mem_cutsFrom hcut).1) (ih _ _)
      · exact ih _ _

/-! ### The ends of a whole line -/

variable {t : Text}

/-- The ends of the arguments are the cuts and the end of the line. -/
theorem stops_eq (h : t ≠ []) : (spans t).map Span.stop = cuts t ++ [t.length] := by
  rw [spans, if_neg h, stops_spansFrom, Nat.zero_add]
  rfl

theorem pairwise_stops (t : Text) : ((spans t).map Span.stop).Pairwise (· < ·) := by
  by_cases h : t = []
  · rw [h]; exact .nil
  · rw [stops_eq h, List.pairwise_append]
    refine ⟨pairwise_cutsFrom 0 false t, List.pairwise_singleton _ _, ?_⟩
    intro cut hcut stop hstop
    have := le_of_mem_cutsFrom hcut
    rw [List.mem_singleton.mp hstop]
    omega

/-- **An argument ends before every later one does.** -/
theorem stop_lt_stop {i j : Nat} {span other : Span} (hi : (spans t)[i]? = some span)
    (hj : (spans t)[j]? = some other) (hij : i < j) : span.stop < other.stop := by
  obtain ⟨hilt, rfl⟩ := List.getElem?_eq_some_iff.mp hi
  obtain ⟨hjlt, rfl⟩ := List.getElem?_eq_some_iff.mp hj
  have hstops := List.pairwise_iff_getElem.mp (pairwise_stops t) i j
    (by rwa [List.length_map]) (by rwa [List.length_map]) hij
  simpa only [List.getElem_map] using hstops

/-- No two arguments end at one place. -/
theorem eq_of_stop_eq {i j : Nat} {span other : Span} (hi : (spans t)[i]? = some span)
    (hj : (spans t)[j]? = some other) (hstop : span.stop = other.stop) : i = j := by
  rcases Nat.lt_trichotomy i j with hij | hij | hij
  · have := stop_lt_stop hi hj hij; omega
  · exact hij
  · have := stop_lt_stop hj hi hij; omega

/-- An argument ends within the line. -/
theorem stop_le {span : Span} (h : span ∈ spans t) : span.stop ≤ t.length := by
  by_cases hnil : t = []
  · rw [hnil] at h; cases h
  · have hstop : span.stop ∈ (spans t).map Span.stop := List.mem_map_of_mem h
    rw [stops_eq hnil, List.mem_append, List.mem_singleton] at hstop
    rcases hstop with hcut | hend
    · have := le_of_mem_cutsFrom hcut
      omega
    · omega

/-- Every position belongs to an argument, unless the line is empty. -/
theorem indexAt_lt (h : t ≠ []) (position : Nat) : indexAt t position < (spans t).length := by
  have hcount := congrArg List.length (stops_eq h)
  rw [List.length_map, List.length_append, List.length_singleton] at hcount
  have hle : indexAt t position ≤ (cuts t).length := List.length_filter_le _ _
  omega

end Line

end Typeahead
