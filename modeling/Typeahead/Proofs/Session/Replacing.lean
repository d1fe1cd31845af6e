import Typeahead.Proofs.Session.Erasing

/-!
# A text in the place of the selection

A text that is put in takes the place of the selection.  That is done in two steps: the selection is
taken out, and then the text goes in at the caret if there is room for it.  A text for which there
is no room is dropped whole, as it should be.  But by then the selection is gone, and nothing brings
it back.  So a text that is dropped leaves the line as it was only if nothing was selected.

## Main definitions

* `Session.Room` — there is room for a text in the place of the selection.
* `Session.Whole` — a text went in whole, or it was dropped and nothing else happened.

## Main results

* `Session.between_freed` — the caret is where the selection was once this has been taken out.
* `Session.between_replaced`, `Session.between_dropped` — a text for which there is room stands in
  the place of the selection; if there is none, nothing does.
* `Session.insert_whole_iff` — **a text goes in whole or not at all exactly if there is room for it
  or nothing is selected.**
-/

namespace Typeahead

namespace Session

variable {s t : Session} {before after u : Text}

/-- There is room for a text in the place of the selection: with it the line is no longer than the
capacity allows. -/
def Room (s : Session) (u : Text) : Prop :=
  ((s.text.take s.selection.1 ++ u ++ s.text.drop s.selection.2).length : Int) ≤ s.capacity

/-- `s.Whole u t` says that in `t` the text `u` stands in the place of the selection of the line
`s`, with the caret behind it and nothing selected; or that there was no room for it and that the
text, the caret and the selection of `t` are those of `s`. -/
def Whole (s : Session) (u : Text) (t : Session) : Prop :=
  Between t (s.text.take s.selection.1 ++ u) (s.text.drop s.selection.2) ∨
    ¬ s.Room u ∧ t.text = s.text ∧ t.caret = s.caret ∧ t.anchor = s.anchor

/-! ### Without the selection -/

/-- The caret is where the selection was. -/
theorem between_removeSelection (h : InBounds s) :
    Between s.removeSelection (s.text.take s.selection.1) (s.text.drop s.selection.2) := by
  obtain ⟨-, hordered, hstop⟩ := h.selection_le
  exact ⟨rfl, (List.length_take_of_le (hordered.trans hstop)).symm, rfl⟩

/-- The caret is where the selection was, also if nothing was selected. -/
theorem between_freed (h : InBounds s) :
    Between s.freed (s.text.take s.selection.1) (s.text.drop s.selection.2) := by
  cases hactive : s.anchor.active with
  | true =>
    rw [freed, if_pos hactive]
    exact between_removeSelection h
  | false =>
    have hcaret := between_of_inBounds h hactive
    have hselection : s.selection = (s.caret, s.caret) := by
      rw [selection, hactive]
      rfl
    rw [hcaret.freed_eq, hselection]
    exact hcaret

/-- There is room for a text if it fits once the selection has been taken out. -/
theorem room_iff (h : InBounds s) :
    s.Room u ↔ (s.freed.text.length + u.length : Int) ≤ s.freed.capacity := by
  have hlength : (s.text.take s.selection.1 ++ u ++ s.text.drop s.selection.2).length =
      s.freed.text.length + u.length := by
    rw [(between_freed h).length_eq, List.length_append, List.length_append, Nat.add_right_comm]
  rw [Room, hlength, (Drafted.freed s).capacity, Int.natCast_add]

/-! ### A text put in -/

theorem perform_insert (hne : u ≠ []) :
    (s.perform (.insert u)).session = (s.freed.insertAll u).update.session := by
  rw [perform, insert_eq, if_neg hne]
  rfl

/-- **A text for which there is room stands in the place of the selection.** -/
theorem between_replaced (h : InBounds s) (hne : u ≠ []) (hroom : s.Room u) :
    Between (s.perform (.insert u)).session (s.text.take s.selection.1 ++ u)
      (s.text.drop s.selection.2) := by
  rw [perform_insert hne]
  exact ((between_freed h).insertAll ((room_iff h).mp hroom)).update

theorem insertAll_of_no_room (h : InBounds s) (hroom : ¬ s.Room u) :
    s.freed.insertAll u = s.freed.noteLine := by
  rw [insertAll, if_pos (Int.not_le.mp (mt (room_iff h).mpr hroom))]

/-- **A text for which there is no room is dropped**, and the selection is gone. -/
theorem between_dropped (h : InBounds s) (hne : u ≠ []) (hroom : ¬ s.Room u) :
    Between (s.perform (.insert u)).session (s.text.take s.selection.1)
      (s.text.drop s.selection.2) := by
  have hfreed := between_freed h
  rw [perform_insert hne, insertAll_of_no_room h hroom]
  exact Between.update ⟨hfreed.text, hfreed.caret, hfreed.anchor⟩

/-- If nothing is selected, a text that is dropped leaves the line as it was. -/
theorem kept_of_dropped (h : InBounds s) (hanchor : s.anchor.active = false) (hne : u ≠ [])
    (hroom : ¬ s.Room u) :
    let t := (s.perform (.insert u)).session
    t.text = s.text ∧ t.caret = s.caret ∧ t.anchor = s.anchor := by
  intro t
  have ht : t = s.noteLine.update.session := by
    rw [← (between_of_inBounds h hanchor).freed_eq]
    simp only [t, perform_insert hne, insertAll_of_no_room h hroom]
  rw [ht]
  exact ⟨rfl, rfl, rfl⟩

/-- **A text goes in whole or not at all exactly if there is room for it or nothing is selected.**
After any events let a text be put in.  If there is room for it, it stands in the place of the
selection, with the caret behind it and nothing selected.  If there is none, the text is dropped;
but the selection has been taken out all the same, so that text, caret and selection are as they
were exactly if nothing was selected.  Whether the action fails makes no difference. -/
theorem insert_whole_iff (context : Context) (capacity : Int) (events : List Event) (u : Text)
    (hne : u ≠ []) :
    let s := (start context capacity).follow events
    let t := (s.perform (.insert u)).session
    let before := s.text.take s.selection.1
    let after := s.text.drop s.selection.2
    (s.Room u → Between t (before ++ u) after) ∧
      (¬ s.Room u → Between t before after) ∧
      (Whole s u t ↔ s.Room u ∨ s.anchor.active = false) := by
  intro s t before after
  have hbounds : InBounds s := inBounds_follow context capacity events
  refine ⟨between_replaced hbounds hne, between_dropped hbounds hne, ?_⟩
  constructor
  -- If it is whole although there was no room, nothing was selected: otherwise the selection is
  -- lost.
  · intro hwhole
    by_contra hlost
    obtain ⟨hroom, hactive⟩ := not_or.mp hlost
    have hdropped : Between t before after := between_dropped hbounds hne hroom
    rcases hwhole with hreplaced | ⟨-, -, -, hanchor⟩
    · -- With the text in the place of the selection the line would be longer.
      have hlength := hreplaced.length_eq.symm.trans hdropped.length_eq
      rw [List.length_append] at hlength
      change before.length + u.length + after.length = before.length + after.length at hlength
      exact hne (List.length_eq_zero_iff.mp (by omega))
    · exact hactive (hanchor ▸ hdropped.anchor)
  · intro hor
    by_cases hroom : s.Room u
    · exact .inl (between_replaced hbounds hne hroom)
    · exact .inr ⟨hroom, kept_of_dropped hbounds (hor.resolve_left hroom) hne hroom⟩

/-- In a full line there is room for two characters in the place of two others, and for no more. -/
theorem insert_whole_iff_sample :
    let s := (start .sample 4).follow
      [.act (.insert ['a', 'b', 'c', 'd']), .act (.move .left .character false),
        .act (.move .left .word true), .act (.move .right .character true)]
    s.selection = (1, 3) ∧ s.Room ['x', ' '] ∧
      Whole s ['x', ' '] (s.perform (.insert ['x', ' '])).session ∧
      (s.perform (.insert ['x', ' '])).session.text = ['a', 'x', ' ', 'd'] := by
  intro s
  have hroom : s.Room ['x', ' '] := by
    unfold Room
    decide
  obtain ⟨-, -, hiff⟩ := insert_whole_iff .sample 4
    [.act (.insert ['a', 'b', 'c', 'd']), .act (.move .left .character false),
      .act (.move .left .word true), .act (.move .right .character true)] ['x', ' '] (by simp)
  exact ⟨by decide, hroom, hiff.mpr (.inl hroom), by decide +kernel⟩

/-- A text that is too long by one character is dropped, and takes the selection with it. -/
theorem insert_loses_selection :
    let s := (start .sample 4).follow
      [.act (.insert ['a', 'b', 'c', 'd']), .act (.move .left .character true),
        .act (.move .left .character true)]
    let t := (s.perform (.insert ['x', 'y', 'z'])).session
    s.selection = (2, 4) ∧ ¬ s.Room ['x', 'y', 'z'] ∧ t.text = ['a', 'b'] ∧
      ¬ Whole s ['x', 'y', 'z'] t := by
  intro s t
  have hroom : ¬ s.Room ['x', 'y', 'z'] := by
    unfold Room
    decide
  have htext : t.text = ['a', 'b'] := by decide +kernel
  refine ⟨by decide, hroom, htext, ?_⟩
  -- It neither stands in the place of the selection nor is the line as it was.
  rintro (hreplaced | ⟨-, hkept, -⟩)
  · have hlong := hreplaced.text
    rw [htext] at hlong
    revert hlong
    decide
  · rw [htext] at hkept
    revert hkept
    decide

end Session

end Typeahead
