import Typeahead.Proofs.Session.Event

/-!
# The caret stays in the line

The text is never longer than the capacity allows, and the caret and the anchor of a selection never
stand behind its end.

## Main definitions

* `Session.InBounds` — the bounds.

## Main results

* `Session.InBounds.of_draft` — a draft of a line in bounds is in bounds.
* `Session.InBounds.removeSelection`, `Session.InBounds.insertAll` — so is a line out of which the
  selection was taken or into which a text was put.
-/

namespace Typeahead

namespace Session

/-- The text fits, and the caret and the anchor of a selection stand in it. -/
structure InBounds (s : Session) : Prop where
  fits : (s.text.length : Int) ≤ max 0 s.capacity
  caret : s.caret ≤ s.text.length
  anchor : s.anchor.active → s.anchor.position ≤ s.text.length

theorem clamp_le (s : Session) (position : Int) : s.clamp position ≤ s.text.length := by
  unfold clamp
  omega

/-- A place in the line is where it is. -/
theorem clamp_of_le {s : Session} {position : Nat} (h : position ≤ s.text.length) :
    s.clamp position = position := by
  unfold clamp
  omega

namespace InBounds

variable {s t : Session}

protected theorem start (context : Context) (capacity : Int) : InBounds (start context capacity) :=
  ⟨by simp only [start, List.length_nil]; omega, Nat.le_refl 0, fun h => nomatch h⟩

/-- The bounds are about the text, its capacity and the positions in it and nothing else. -/
protected theorem congr (h : InBounds s) (text : t.text = s.text) (caret : t.caret = s.caret)
    (anchor : t.anchor = s.anchor) (capacity : t.capacity = s.capacity) : InBounds t := by
  refine ⟨?_, ?_, ?_⟩
  · rw [text, capacity]; exact h.fits
  · rw [text, caret]; exact h.caret
  · rw [text, anchor]; exact h.anchor

theorem of_spared (h : InBounds s) (hspared : Spared s t) : InBounds t :=
  h.congr hspared.text hspared.caret hspared.anchor hspared.capacity

protected theorem place (h : InBounds s) (position : Int) : InBounds (s.place position) :=
  ⟨h.fits, s.clamp_le position, h.anchor⟩

protected theorem anchorAt (h : InBounds s) (position : Int) : InBounds (s.anchorAt position) :=
  ⟨h.fits, h.caret, fun _ => s.clamp_le position⟩

protected theorem deselect (h : InBounds s) : InBounds s.deselect :=
  ⟨h.fits, h.caret, fun hactive => nomatch hactive⟩

protected theorem insertAll (h : InBounds s) (t : Text) : InBounds (s.insertAll t) := by
  unfold insertAll
  split
  · exact h.congr rfl rfl rfl rfl
  next hfits =>
    -- It goes in at the caret, so only what is behind the caret moves.
    have hcaret := h.caret
    have hlength : (s.splice t).text.length = s.text.length + t.length := by
      simp only [splice, List.length_append, List.length_take, List.length_drop]
      omega
    refine ⟨?_, ?_, ?_⟩
    · rw [hlength]
      change _ ≤ max 0 s.capacity
      omega
    · rw [hlength]
      change s.caret + t.length ≤ _
      omega
    · intro hactive
      rw [hlength]
      exact Nat.le_trans (h.anchor hactive) (Nat.le_add_right _ _)

theorem selection_le (h : InBounds s) :
    s.selection.1 ≤ s.caret ∧ s.selection.1 ≤ s.selection.2 ∧ s.selection.2 ≤ s.text.length := by
  have hcaret := h.caret
  have hanchor := h.anchor
  unfold selection
  split
  next hactive =>
    have := hanchor hactive
    dsimp only
    omega
  next => exact ⟨Nat.le_refl _, Nat.le_refl _, hcaret⟩

/-- Taking the selection out makes the text shorter by just as much as was selected. -/
theorem length_removeSelection (h : InBounds s) :
    s.removeSelection.text.length + (s.selection.2 - s.selection.1) = s.text.length := by
  obtain ⟨-, hordered, hstop⟩ := h.selection_le
  simp only [removeSelection, List.length_append, List.length_take, List.length_drop]
  omega

protected theorem removeSelection (h : InBounds s) : InBounds s.removeSelection := by
  have hfits := h.fits
  have hlength := h.length_removeSelection
  obtain ⟨hle, hordered, hstop⟩ := h.selection_le
  refine ⟨?_, ?_, fun hactive => nomatch hactive⟩
  · change _ ≤ max 0 s.capacity
    omega
  · change s.selection.1 ≤ _
    omega

protected theorem reset (s : Session) : InBounds s.reset :=
  ⟨by simp only [reset, List.length_nil]; omega, Nat.le_refl 0, fun h => nomatch h⟩

protected theorem freed (h : InBounds s) : InBounds s.freed := by
  unfold freed
  split
  · exact h.removeSelection
  · exact h

protected theorem moved (h : InBounds s) (position : Int) (selecting : Bool) :
    InBounds (s.moved position selecting) := by
  refine InBounds.place ?_ position
  split
  · split
    · exact h
    · exact h.anchorAt _
  · exact h.deselect

/-- A draft of a line in bounds is in bounds. -/
theorem of_draft (h : InBounds s) (hdraft : Draft s t) : InBounds t := by
  cases hdraft with
  | insert text => exact h.freed.insertAll text
  | clear => exact .reset s
  | deleteSelection => exact h.removeSelection
  | delete position => exact (h.anchorAt position).removeSelection
  | move position selecting => exact h.moved position selecting
  | complete spared position text =>
    exact ((h.of_spared spared).deselect.place position).insertAll text

protected theorem update (h : InBounds s) : InBounds s.update.session := h.congr rfl rfl rfl rfl

end InBounds

end Session

end Typeahead
