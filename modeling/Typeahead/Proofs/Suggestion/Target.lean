import Typeahead.Suggestion.Target

/-!
# The name at the end of a path argument

A path argument is cut behind its last separator.  What is passed over and the name being typed are
the two parts of the argument itself, but for a double quote at its end, whichever double quote was
taken away first.

## Main results

* `Target.typed_split` — **the name being typed is what stands behind what is passed over**, without
  a double quote at the end.
* `Target.of_resolve` — a target passes over what the parts of its argument say.
-/

namespace Typeahead

namespace Text

/-- A text ends in its last character. -/
theorem endsIn_concat (c d : Char) (t : Text) : endsIn c (t ++ [d]) = (d == c) := by
  induction t with
  | nil => rfl
  | cons e t ih =>
    cases t with
    | nil => rfl
    | cons f t => exact ih

theorem lt_of_lastIndexWhere {p : Char → Bool} {t : Text} {i : Nat}
    (h : lastIndexWhere p t = some i) : i < t.length := by
  induction t generalizing i with
  | nil => cases h
  | cons c t ih =>
    simp only [lastIndexWhere] at h
    split at h
    next j hj =>
      cases h
      exact Nat.succ_lt_succ (ih hj)
    next =>
      split at h
      · cases h
        exact Nat.zero_lt_succ _
      · cases h

end Text

namespace Target

theorem unclosed_nil : unclosed [] = [] := rfl

/-- Without a double quote at the end. -/
theorem unclosed_concat (d : Char) (t : Text) :
    unclosed (t ++ [d]) = if d = '"' then t else t ++ [d] := by
  simp only [unclosed, Text.endsIn_concat, beq_iff_eq, List.dropLast_concat]

theorem cut_le (p : Platform) (t : Text) : cut p t ≤ t.length := by
  unfold cut
  split
  next i hi => exact Text.lt_of_lastIndexWhere hi
  next => exact Nat.zero_le _

/-- A double quote at the end goes, whether before or after a part at the start was taken away. -/
theorem unclosed_drop {t : Text} {n : Nat} (h : n ≤ (unclosed t).length) :
    unclosed (t.drop n) = (unclosed t).drop n := by
  rcases List.eq_nil_or_concat t with rfl | ⟨u, d, rfl⟩
  · rw [List.drop_nil, unclosed_nil, List.drop_nil]
  · rw [List.concat_eq_append, unclosed_concat] at h ⊢
    by_cases hle : n ≤ u.length
    · rw [List.drop_append_of_le_length hle, unclosed_concat]
      split
      · rfl
      · rw [List.drop_append_of_le_length hle]
    · -- All of the text is taken away, and then its last character was no double quote.
      split at h
      · exact absurd h hle
      next hd =>
        rw [if_neg hd, List.drop_eq_nil_of_le (by simp; omega), unclosed_nil]

theorem typed_splitBehind (lead t : Text) :
    (splitBehind lead.length t).typed =
      unclosed ((lead ++ t).drop (splitBehind lead.length t).skip) := by
  have hdrop : (lead ++ t).drop (lead.length + cut .posix (unclosed t)) =
      t.drop (cut .posix (unclosed t)) := by
    rw [← List.drop_drop, List.drop_left]
  simp only [splitBehind, hdrop, unclosed_drop (cut_le .posix (unclosed t))]

/-- **The name being typed is what stands behind what is passed over**, without a double quote at
the end. -/
theorem typed_split (argument : Text) :
    (split argument).typed = unclosed (argument.drop (split argument).skip) := by
  unfold split
  split
  next t => exact typed_splitBehind ['"'] t
  next => exact typed_splitBehind [] argument

/-- A target passes over what the parts of its argument say. -/
theorem of_resolve {w : World} {here : Path} {argument : Text} {target : Target}
    (h : resolve w here argument = .ok (some target)) :
    target.skip = (split argument).skip ∧ target.typed = (split argument).typed := by
  simp only [resolve, ofParts] at h
  split at h
  · cases h
  · cases h
    exact ⟨rfl, rfl⟩
  · split at h
    · cases h
    · cases h
      exact ⟨rfl, rfl⟩
    · cases h

/-- The name being typed, told by the argument. -/
theorem typed_of_resolve {w : World} {here : Path} {argument : Text} {target : Target}
    (h : resolve w here argument = .ok (some target)) :
    target.typed = unclosed (argument.drop target.skip) := by
  obtain ⟨hskip, htyped⟩ := of_resolve h
  rw [hskip, htyped, typed_split]

end Target

end Typeahead
