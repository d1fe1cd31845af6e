import Typeahead.Proofs.Line.Insertion
import Typeahead.Proofs.Line.Reading

/-!
# A line that is typed on

The arguments of a line are read from left to right, and what one of them was taken for is settled
by those before it: whatever is still to come, the first readings stay.  Text put behind a line goes
on with its last argument, or opens another one if it starts with a space outside double quotes; the
arguments before that one stay.

## Main results

* `Reading.take_ofArguments` — **further arguments change no reading of those before them.**
* `Line.dropLast_prefix_arguments` — text behind a line leaves all its arguments but the last.
* `Line.prefix_arguments_space` — it leaves the last one too, if it opens another.
-/

namespace Typeahead

namespace Reading

theorem prefix_readAll (g : Grammar) (u : Used) (arguments more : List Text) :
    readAll g u arguments <+: readAll g u (arguments ++ more) := by
  induction arguments generalizing u with
  | nil => exact List.nil_prefix
  | cons argument rest ih =>
    -- The state behind the argument is the same, whatever follows.
    rw [List.cons_append, readAll, readAll, List.cons_prefix_cons]
    exact ⟨rfl, ih _⟩

theorem prefix_ofArguments (grammar : Option Grammar) (arguments more : List Text) :
    ofArguments grammar arguments <+: ofArguments grammar (arguments ++ more) := by
  cases arguments with
  | nil => exact List.nil_prefix
  | cons first rest =>
    refine List.cons_prefix_cons.mpr ⟨rfl, ?_⟩
    cases grammar with
    | none => exact (List.prefix_append rest more).map _
    | some g => exact prefix_readAll g .initial rest more

/-- **Further arguments change no reading of those before them.** -/
theorem take_ofArguments (grammar : Option Grammar) (arguments more : List Text) :
    (ofArguments grammar (arguments ++ more)).take arguments.length =
      ofArguments grammar arguments := by
  have hprefix := List.prefix_iff_eq_take.mp (prefix_ofArguments grammar arguments more)
  rw [length_ofArguments] at hprefix
  exact hprefix.symm

end Reading

namespace Line

variable {t : Text} {pieces before : List Text}

/-- A line divides behind pieces that are nowhere cut and leave no double quote open. -/
theorem Division.behind (h : Division t pieces)
    (hbefore : ∀ piece ∈ before, Whole false piece ∧ Even (piece.count '"')) :
    Division (leading before ++ t) (before ++ pieces) := by
  induction before with
  | nil => exact h
  | cons piece before ih =>
    obtain ⟨⟨hwhole, hclosed⟩, hrest⟩ := List.forall_mem_cons.mp hbefore
    rw [leading_cons, List.append_assoc, List.cons_append]
    exact (ih hrest).cons hwhole hclosed

theorem even_count_leading (h : ∀ piece ∈ before, Even (piece.count '"')) :
    Even ((leading before).count '"') := by
  induction before with
  | nil => exact Even.zero
  | cons piece before ih =>
    obtain ⟨hpiece, hrest⟩ := List.forall_mem_cons.mp h
    rw [leading_cons, List.count_append, List.count_cons_of_ne (by decide)]
    exact hpiece.add (ih hrest)

/-- A line is its last piece behind the others. -/
theorem Division.exists_last (h : Division t pieces) :
    ∃ init last, pieces = init ++ [last] ∧ t = leading init ++ last ∧ Whole false last ∧
      ∀ piece ∈ init, Whole false piece ∧ Even (piece.count '"') := by
  obtain ⟨init, last, rfl⟩ : ∃ init last, pieces = init ++ [last] :=
    ⟨_, _, (List.dropLast_append_getLast h.ne_nil).symm⟩
  have hwhole : ∀ piece ∈ init ++ [last], Whole false piece :=
    fun piece hpiece => whole_false_iff.mpr (h.whole piece hpiece)
  have hclosed := h.closed
  rw [List.dropLast_concat] at hclosed
  refine ⟨init, last, rfl, ?_, hwhole last (by simp), ?_⟩
  · rw [← h.join, join_append_cons, trailing, List.flatMap_nil, List.append_nil]
  · intro piece hpiece
    exact ⟨hwhole piece (List.mem_append_left _ hpiece), hclosed piece hpiece⟩

/-- **Text behind a line leaves all its arguments but the last.** -/
theorem dropLast_prefix_arguments (t more : Text) :
    (arguments t).dropLast <+: arguments (t ++ more) := by
  by_cases hne : t = []
  · rw [hne]
    exact List.nil_prefix
  obtain ⟨init, last, hpieces, htext, -, hinit⟩ := (division_arguments hne).exists_last
  -- The last argument and the text behind it divide into something or other.
  obtain ⟨rest, hrest⟩ := exists_division (last ++ more)
  have hdivision := hrest.behind hinit
  rw [← List.append_assoc, ← htext, division_iff (List.append_ne_nil_of_left_ne_nil hne _)]
    at hdivision
  rw [hpieces, List.dropLast_concat, ← hdivision]
  exact List.prefix_append init rest

/-- **A space behind a line that leaves no double quote open leaves all its arguments.** -/
theorem prefix_arguments_space {t : Text} (h : Even (t.count '"')) (more : Text) :
    arguments t <+: arguments (t ++ ' ' :: more) := by
  by_cases hne : t = []
  · rw [hne]
    exact List.nil_prefix
  obtain ⟨init, last, hpieces, htext, hlast, hinit⟩ := (division_arguments hne).exists_last
  have hclosed : Even (last.count '"') := by
    rw [htext, List.count_append] at h
    exact (Nat.even_add.mp h).mp (even_count_leading fun piece hpiece => (hinit piece hpiece).2)
  obtain ⟨rest, hrest⟩ := exists_division more
  have hdivision := (hrest.cons hlast hclosed).behind hinit
  rw [← List.append_assoc, ← htext, division_iff (List.append_ne_nil_of_left_ne_nil hne _)]
    at hdivision
  rw [← hdivision, hpieces]
  exact (List.prefix_append_right_inj init).mpr (List.cons_prefix_cons.mpr ⟨rfl, List.nil_prefix⟩)

end Line

end Typeahead
