import Typeahead.Proofs.Session.Replacing

/-!
# Drawing a selection

A selection is drawn from where the caret was when the first key of it was hit.  From then on the
caret may go to and fro, by characters and by words, and come by that place as often as it likes:
the anchor stays.  What is selected is what lies between the two, on whichever side the caret is.  A
text that is put in then stands in its place, and every key that deletes takes just that out,
whatever way it would reach if nothing were selected.

## Main definitions

* `Action.Selects`, `Action.Deletes` — the actions that draw a selection and that take it out.
* `Session.Drawn` — a line with a selection drawn from where the caret was.

## Main results

* `Session.Drawn.start`, `Session.Drawn.perform` — the first move anchors the selection, and every
  further one keeps the anchor.
* `Session.perform_deletes` — whatever deletes takes the selection out.
* `Session.anchored_run` — **selections keep their anchor**, and are replaced and taken out as a
  whole.
-/

namespace Typeahead

/-- The caret is moved and the selection drawn along. -/
inductive Action.Selects : Action → Prop
  | move (d : Direction) (r : Reach) : Selects (.move d r true)

/-- What is selected is taken out, if anything is. -/
inductive Action.Deletes : Action → Prop
  | delete (d : Direction) (r : Reach) : Deletes (.delete d r)
  | deleteSelection : Deletes .deleteSelection

namespace Session

/-- `s.Drawn t` says that `t` is the line `s` with a selection drawn from where the caret was. -/
structure Drawn (s t : Session) : Prop where
  text : t.text = s.text
  anchor : t.anchor = ⟨s.caret, true⟩
  bounds : InBounds t

variable {s t : Session} {a : Action}

/-- Moving the caret changes no text. -/
theorem text_moved (s : Session) (position : Int) (selecting : Bool) :
    (s.moved position selecting).text = s.text := by
  unfold moved
  split
  · split <;> rfl
  · rfl

/-- An active anchor stays where it is while the caret is moved. -/
theorem anchor_moved (h : s.anchor.active) (position : Int) :
    (s.moved position true).anchor = s.anchor := by
  unfold moved
  rw [if_pos rfl, if_pos h]
  rfl

/-- An anchor that is not active is put where the caret is. -/
theorem anchor_moved_of_not_active (h : InBounds s) (hanchor : s.anchor.active = false)
    (position : Int) : (s.moved position true).anchor = ⟨s.caret, true⟩ := by
  have hplace : s.clamp s.caret = s.caret := clamp_of_le h.caret
  unfold moved
  rw [if_pos rfl, hanchor]
  show (⟨s.clamp s.caret, true⟩ : Cursor) = ⟨s.caret, true⟩
  rw [hplace]

namespace Drawn

/-- **The first move anchors the selection** where the caret is. -/
protected theorem start (h : InBounds s) (hanchor : s.anchor.active = false) (ha : a.Selects) :
    Drawn s (s.perform a).session := by
  obtain ⟨d, r⟩ := ha
  let target := s.reach d r
  show Drawn s (s.moved target true).update.session
  exact ⟨s.text_moved target true, anchor_moved_of_not_active h hanchor target,
    (h.moved target true).update⟩

/-- **Every further move keeps the anchor.** -/
protected theorem perform (h : Drawn s t) (ha : a.Selects) : Drawn s (t.perform a).session := by
  obtain ⟨d, r⟩ := ha
  have hactive : t.anchor.active := by rw [h.anchor]
  let target := t.reach d r
  show Drawn s (t.moved target true).update.session
  exact ⟨(t.text_moved target true).trans h.text, (anchor_moved hactive target).trans h.anchor,
    (h.bounds.moved target true).update⟩

/-- The anchor is kept by any number of moves. -/
protected theorem run (h : Drawn s t) {moves : List Action} (hmoves : ∀ a ∈ moves, a.Selects) :
    Drawn s (t.run moves) := by
  induction moves generalizing t with
  | nil => exact h
  | cons a rest ih =>
    obtain ⟨ha, hrest⟩ := List.forall_mem_cons.mp hmoves
    exact ih (h.perform ha) hrest

/-- What is selected lies between the anchor and the caret, on whichever side the caret is. -/
theorem selection_eq (h : Drawn s t) :
    t.selection = (min s.caret t.caret, max s.caret t.caret) := by
  rw [selection, h.anchor]
  rfl

end Drawn

/-- **Whatever deletes takes the selection out.** -/
theorem perform_deletes (h : s.anchor.active) (ha : a.Deletes) :
    (s.perform a).session = s.removeSelection.update.session := by
  cases ha with
  | delete d r =>
    show (s.delete d r).session = _
    rw [delete, if_pos h]
  | deleteSelection =>
    rw [perform, if_pos h]
    rfl

/-- **Selections keep their anchor.**  After any events, while nothing is selected, let the caret be
moved by any keys that select.  Then the text is as it was, the anchor is where the caret was, and
what lies between the two is selected, whichever way the caret went and however often it came by the
anchor.  A text that is put in next stands in the place of the selection, if there is room for it,
with the caret behind it; and any key that deletes takes just the selection out.  In both cases
nothing is selected any more.  Whether any of these actions fails makes no difference. -/
theorem anchored_run (context : Context) (capacity : Int) (events : List Event)
    (moves : List Action) :
    let s := (start context capacity).follow events
    let t := s.run moves
    let low := min s.caret t.caret
    let high := max s.caret t.caret
    s.anchor.active = false → moves ≠ [] → (∀ a ∈ moves, a.Selects) →
      t.text = s.text ∧ t.anchor = ⟨s.caret, true⟩ ∧ t.selection = (low, high) ∧
      (∀ u, u ≠ [] → t.Room u →
        Between (t.perform (.insert u)).session (s.text.take low ++ u) (s.text.drop high)) ∧
      (∀ a, a.Deletes → Between (t.perform a).session (s.text.take low) (s.text.drop high)) := by
  intro s t low high hanchor hne hmoves
  have hbounds : InBounds s := inBounds_follow context capacity events
  -- The first move sets the anchor, and the others keep it.
  have hdrawn : Drawn s t := by
    cases moves with
    | nil => exact absurd rfl hne
    | cons a rest =>
      obtain ⟨ha, hrest⟩ := List.forall_mem_cons.mp hmoves
      exact (Drawn.start hbounds hanchor ha).run hrest
  have hactive : t.anchor.active := by rw [hdrawn.anchor]
  have hselection : t.selection = (low, high) := hdrawn.selection_eq
  refine ⟨hdrawn.text, hdrawn.anchor, hselection, ?_, ?_⟩
  · intro u hu hroom
    have hreplaced := between_replaced hdrawn.bounds hu hroom
    rwa [hselection, hdrawn.text] at hreplaced
  · intro a ha
    have hremoved := between_removeSelection hdrawn.bounds
    rw [hselection, hdrawn.text] at hremoved
    rw [perform_deletes hactive ha]
    exact hremoved.update

/-- The caret goes beyond the anchor and back to the other side of it, in a line that leads into a
locked directory, so that every one of these keys fails. -/
theorem anchored_run_sample :
    let events : List Event :=
      [.act (.insert ['a', ' ', '/', 'p', '/', 'q', '/']), .act (.move .left .character false)]
    let s := (start .sample 8).follow events
    let moves : List Action :=
      [.move .right .character true, .move .left .word true, .move .right .character true]
    let t := s.run moves
    (s.perform (.move .left .word true)).answer = .error (.path .denied) ∧
      (s.caret, t.caret) = (6, 3) ∧ t.selection = (3, 6) ∧ t.Room ['x', 'y', 'z', ' '] ∧
      Between (t.perform (.insert ['x', 'y', 'z', ' '])).session
        ['a', ' ', '/', 'x', 'y', 'z', ' '] ['/'] ∧
      Between (t.perform (.delete .right .word)).session ['a', ' ', '/'] ['/'] := by
  intro events s moves t
  -- The moves select, there is room for what is put in, and these are the parts that stay.
  have hmoves : ∀ a ∈ moves, a.Selects := by
    intro a ha
    simp only [moves, List.mem_cons, List.not_mem_nil, or_false] at ha
    rcases ha with rfl | rfl | rfl <;> exact .move _ _
  have hroom : t.Room ['x', 'y', 'z', ' '] := by
    unfold Room
    decide +kernel
  have hlow : s.text.take (min s.caret t.caret) = ['a', ' ', '/'] := by decide +kernel
  have hhigh : s.text.drop (max s.caret t.caret) = ['/'] := by decide +kernel
  obtain ⟨-, -, -, hreplaced, hdeleted⟩ :=
    anchored_run .sample 8 events moves rfl (by simp [moves]) hmoves
  refine ⟨by decide +kernel, by decide +kernel, by decide +kernel, hroom, ?_, ?_⟩
  · have hplaced : ['a', ' ', '/', 'x', 'y', 'z', ' '] =
        s.text.take (min s.caret t.caret) ++ ['x', 'y', 'z', ' '] := by rw [hlow]; rfl
    rw [hplaced, ← hhigh]
    exact hreplaced ['x', 'y', 'z', ' '] (by simp) hroom
  · rw [← hlow, ← hhigh]
    exact hdeleted (.delete .right .word) (.delete _ _)

end Session

end Typeahead
