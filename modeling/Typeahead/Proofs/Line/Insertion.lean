import Typeahead.Proofs.Line.Division

/-!
# Putting text into an argument

Text that is put into an argument may divide it, if there is a space in it that comes to stand
outside double quotes, and it may run the argument together with the next one, if it leaves a double
quote open.  If it does neither, the line divides as before, with the one argument changed.

## Main definitions

* `Line.leading`, `Line.trailing` — what stands before and behind a piece of a line.
* `Line.FitsBehind` — a text that fits into an argument.

## Main results

* `Line.Division.insert_iff` — **the other arguments stay as they are exactly if the text fits.**
* `Line.Division.indexAt_eq` — a position within a piece belongs to that piece.
-/

namespace Typeahead

namespace Line

/-! ### Around a piece -/

/-- What stands before a piece: the pieces before it, each with a space behind it. -/
def leading (before : List Text) : Text := before.flatMap fun piece => piece ++ [' ']

/-- What stands behind a piece: the pieces behind it, each with a space before it. -/
def trailing (after : List Text) : Text := after.flatMap fun piece => ' ' :: piece

theorem leading_cons (piece : Text) (before : List Text) :
    leading (piece :: before) = piece ++ ' ' :: leading before := by
  simp only [leading, List.flatMap_cons, List.append_assoc, List.singleton_append]

theorem join_cons_eq (piece : Text) (after : List Text) :
    Text.join ' ' (piece :: after) = piece ++ trailing after := by
  induction after generalizing piece with
  | nil => simp [trailing]
  | cons next after ih =>
    rw [Text.join_cons (List.cons_ne_nil next after), ih]
    rfl

/-- A line is a piece with what stands before it and what stands behind it. -/
theorem join_append_cons (before after : List Text) (piece : Text) :
    Text.join ' ' (before ++ piece :: after) = leading before ++ piece ++ trailing after := by
  induction before with
  | nil => exact join_cons_eq piece after
  | cons first before ih =>
    rw [List.cons_append, Text.join_cons (List.append_ne_nil_of_right_ne_nil _
      (List.cons_ne_nil piece after)), ih, leading_cons]
    simp only [List.append_assoc, List.cons_append]

theorem length_laid (here : Nat) (pieces : List Text) :
    (laid here pieces).length = pieces.length := by
  induction pieces generalizing here with
  | nil => rfl
  | cons piece rest ih => simp only [laid, List.length_cons, ih]

/-- The spans before a piece, its own span and those behind it. -/
theorem laid_append_cons (here : Nat) (before after : List Text) (piece : Text) :
    laid here (before ++ piece :: after) =
      laid here before ++
        ⟨here + (leading before).length, here + (leading before).length + piece.length⟩ ::
          laid (here + (leading before).length + piece.length + 1) after := by
  induction before generalizing here with
  | nil => rfl
  | cons first before ih =>
    have hlength : here + first.length + 1 + (leading before).length =
        here + (leading (first :: before)).length := by
      rw [leading_cons, List.length_append, List.length_cons]
      omega
    rw [List.cons_append, laid, ih, hlength]
    rfl

theorem stop_lt_of_mem_laid {here : Nat} {before : List Text} {span : Span}
    (h : span ∈ laid here before) : span.stop < here + (leading before).length := by
  induction before generalizing here with
  | nil => cases h
  | cons piece before ih =>
    rw [leading_cons, List.length_append, List.length_cons]
    rcases List.mem_cons.mp h with rfl | h
    · dsimp only
      omega
    · have := ih h
      omega

theorem le_stop_of_mem_laid {here : Nat} {after : List Text} {span : Span}
    (h : span ∈ laid here after) : here ≤ span.stop := by
  induction after generalizing here with
  | nil => cases h
  | cons piece after ih =>
    rcases List.mem_cons.mp h with rfl | h
    · exact Nat.le_add_right here piece.length
    · have := ih h
      omega

/-! ### Text that fits -/

/-- **A text that fits into an argument** behind the part `lead` of it: it has no space outside
double quotes there, and it leaves no double quote open unless the argument is the last one. -/
structure FitsBehind (lead inserted : Text) (last : Prop) : Prop where
  whole : ∀ before after, inserted = before ++ ' ' :: after →
    ¬ Even ((lead ++ before).count '"')
  closed : ¬ last → Even (inserted.count '"')

variable {t lead inserted closing : Text} {before after : List Text} {last : Prop}

/-- The pieces of a line but the last are those before a piece and, if there are any behind it, the
piece and those behind it but the last. -/
theorem dropLast_append_cons (before after : List Text) (piece : Text) :
    (before ++ piece :: after).dropLast =
      before ++ if after = [] then [] else piece :: after.dropLast := by
  rw [List.dropLast_append_of_ne_nil (List.cons_ne_nil piece after)]
  split
  next hnil => rw [hnil]; rfl
  next hne => rw [List.dropLast_cons_of_ne_nil hne]

/-- In a division one piece may be exchanged for another that is nowhere cut, and that leaves no
double quote open unless it is the last. -/
theorem Division.exchange_iff {piece other : Text} (h : Division t (before ++ piece :: after)) :
    Division (leading before ++ other ++ trailing after) (before ++ other :: after) ↔
      Whole false other ∧ (after ≠ [] → Even (other.count '"')) := by
  constructor
  -- The piece is one of the new division, and a last one unless something follows it.
  · intro hother
    refine ⟨whole_false_iff.mpr (hother.whole other (by simp)), ?_⟩
    intro hne
    refine hother.closed other ?_
    rw [dropLast_append_cons, if_neg hne]
    exact List.mem_append_right before List.mem_cons_self
  -- Every other piece is one of the old division too.
  · rintro ⟨hwhole, hclosed⟩
    have hpieces := h.closed
    rw [dropLast_append_cons] at hpieces
    refine ⟨by simp, join_append_cons before after other, ?_, ?_⟩
    · rw [dropLast_append_cons]
      intro p hp
      rcases List.mem_append.mp hp with hp | hp
      · exact hpieces p (List.mem_append_left _ hp)
      · by_cases hlast : after = []
        · rw [if_pos hlast] at hp
          cases hp
        · rw [if_neg hlast] at hp hpieces
          rcases List.mem_cons.mp hp with rfl | hp
          · exact hclosed hlast
          · exact hpieces p (List.mem_append_right _ (List.mem_cons_of_mem _ hp))
    · intro p hp
      rcases List.mem_append.mp hp with hp | hp
      · exact h.whole p (List.mem_append_left _ hp)
      · rcases List.mem_cons.mp hp with rfl | hp
        · exact whole_false_iff.mp hwhole
        · exact h.whole p (List.mem_append_right _ (List.mem_cons_of_mem _ hp))

/-- A text fits behind a part of an argument if it is nowhere cut there. -/
theorem fitsBehind_iff : FitsBehind lead inserted last ↔
    Whole (quotedAfter false lead) inserted ∧ (¬ last → Even (inserted.count '"')) := by
  have hwhole : Whole (quotedAfter false lead) inserted ↔
      ∀ before after, inserted = before ++ ' ' :: after → ¬ Even ((lead ++ before).count '"') := by
    simp only [Whole, ← quotedAfter_append, quotedAfter_false_iff]
  rw [hwhole]
  exact ⟨fun h => ⟨h.whole, h.closed⟩, fun h => ⟨h.1, h.2⟩⟩

/-- **Text put into an argument leaves the other arguments as they are exactly if it fits.**  It is
put in behind the part `lead`, with a part behind it in which there are no spaces. -/
theorem Division.insert_iff (h : Division t (before ++ (lead ++ closing) :: after))
    (hclosing : ' ' ∉ closing) (inserted : Text) :
    Division (leading before ++ (lead ++ inserted ++ closing) ++ trailing after)
        (before ++ (lead ++ inserted ++ closing) :: after) ↔
      FitsBehind lead inserted (after = []) := by
  have hpiece : Whole false (lead ++ closing) :=
    whole_false_iff.mpr (h.whole (lead ++ closing) (by simp))
  obtain ⟨hlead, -⟩ := whole_append_iff.mp hpiece
  have hwhole : Whole false (lead ++ inserted ++ closing) ↔
      Whole (quotedAfter false lead) inserted := by
    rw [whole_append_iff, whole_append_iff]
    exact ⟨fun hall => hall.1.2, fun hinserted => ⟨⟨hlead, hinserted⟩, whole_of_not_mem hclosing _⟩⟩
  rw [h.exchange_iff, fitsBehind_iff, hwhole]
  refine and_congr_right fun _ => ?_
  refine forall_congr' fun hne => ?_
  -- The argument was closed before, so it is closed now if what was put in is.
  have hbefore : Even ((lead ++ closing).count '"') := by
    refine h.closed (lead ++ closing) ?_
    rw [dropLast_append_cons, if_neg hne]
    exact List.mem_append_right before List.mem_cons_self
  rw [List.count_append, Nat.even_add] at hbefore
  rw [List.count_append, List.count_append, Nat.even_add, Nat.even_add, ← hbefore]
  tauto

/-! ### Positions -/

/-- The index of a position in a line is the number of arguments that end before it. -/
theorem indexAt_eq {position : Nat} (h : position ≤ t.length) :
    indexAt t position = (((spans t).map Span.stop).filter (· < position)).length := by
  by_cases hne : t = []
  · rw [hne]
    rfl
  · -- The last argument ends with the line, and so not before the position.
    rw [stops_eq hne, List.filter_append, List.filter_cons_of_neg (by simpa using h),
      List.filter_nil, List.append_nil]
    rfl

/-- **A position within a piece belongs to that piece.** -/
theorem Division.indexAt_eq {piece : Text} (h : Division t (before ++ piece :: after))
    (hne : t ≠ []) {position : Nat} (hle : (leading before).length ≤ position)
    (hge : position ≤ (leading before).length + piece.length) :
    indexAt t position = before.length := by
  have hlength : position ≤ t.length := by
    rw [← h.join, join_append_cons, List.length_append, List.length_append]
    omega
  rw [Line.indexAt_eq hlength, h.spans_eq hne, laid_append_cons, List.map_append, List.map_cons,
    List.filter_append, List.filter_cons_of_neg (by simp; omega)]
  -- All pieces before end before the position, and none behind does.
  have hbefore : ((laid 0 before).map Span.stop).filter (· < position) =
      (laid 0 before).map Span.stop := by
    rw [List.filter_eq_self]
    intro stop hstop
    obtain ⟨span, hspan, rfl⟩ := List.mem_map.mp hstop
    have := stop_lt_of_mem_laid hspan
    rw [decide_eq_true_eq]
    omega
  have hafter : ∀ here, position ≤ here →
      ((laid here after).map Span.stop).filter (· < position) = [] := by
    intro here hhere
    rw [List.filter_eq_nil_iff]
    intro stop hstop
    obtain ⟨span, hspan, rfl⟩ := List.mem_map.mp hstop
    have := le_stop_of_mem_laid hspan
    rw [decide_eq_true_eq]
    omega
  rw [hbefore, hafter _ (by omega), List.append_nil, List.length_map, length_laid]

end Line

end Typeahead
