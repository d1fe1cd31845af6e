import Typeahead.Proofs.Session.Bounds

/-!
# Operations in any order

Who holds a line is not bound to actions.  Text may be put in and taken out, cursors moved and the
line updated one by one and in any order, between actions and while the world changes; and nobody
has to update after a change or to drop a selection before it.  What every single operation keeps
holds after all of them.

## Main definitions

* `Operation`, `Session.operate`, `Session.operateAll` — operations and the line after them.

## Main results

* `Session.operate_induction` — what holds after an operation, whichever it is.
* `Session.operateAll_induction` — what holds after some operations, from what each of them keeps.
* `Session.bounds_operateAll` — **whatever is done to a line, its positions stay in it.**
-/

namespace Typeahead

/-- What may be done to a line, or happen to it. -/
inductive Operation
  /-- An action carried out, or a change of what the line is seen in. -/
  | meet (e : Event)
  /-- A character put in at the caret. -/
  | insertChar (c : Char)
  /-- A text put in at the caret. -/
  | insertAll (t : Text)
  /-- The selection taken out. -/
  | removeSelection
  /-- The caret moved to a place, which may lie outside the line. -/
  | place (position : Int)
  /-- The anchor moved to a place and made active. -/
  | anchorAt (position : Int)
  /-- The selection dropped. -/
  | deselect
  /-- The line emptied. -/
  | reset
  /-- What fits an argument best set by hand. -/
  | setBest (i : Int) (best : Option Text)
  /-- The analysis brought up to date, as far as that goes. -/
  | update

namespace Session

variable {s : Session}

/-- The line after an operation, whether it failed or not. -/
def operate (s : Session) : Operation → Session
  | .meet e => s.after e
  | .insertChar c => s.insertChar c
  | .insertAll t => s.insertAll t
  | .removeSelection => s.removeSelection
  | .place position => s.place position
  | .anchorAt position => s.anchorAt position
  | .deselect => s.deselect
  | .reset => s.reset
  | .setBest i best => s.setBest i best
  | .update => s.update.session

/-- The line after some operations. -/
def operateAll (s : Session) : List Operation → Session
  | [] => s
  | o :: rest => operateAll (s.operate o) rest

/-- What holds of every draft of a line, before and after an update, and of the line in other
surroundings holds after an operation: there is nothing else that an operation leaves. -/
theorem operate_induction {P : Session → Prop} (o : Operation)
    (update : ∀ t, Drafted s t → P t.update.session) (drafted : ∀ t, Drafted s t → P t)
    (change : ∀ w, P (s.inWorld w)) (visit : ∀ here, P (s.seenFrom here)) : P (s.operate o) := by
  -- All but the events leave a line without an update behind them.
  cases o with
  | meet e =>
    cases e with
    | act a =>
      exact perform_induction a (fun t hdraft => update t (.of_draft hdraft))
        (fun t hspared => drafted t hspared.drafted)
    | change w => exact change w
    | visit here => exact visit here
  | insertChar c =>
    change P (s.insertChar c)
    rw [insertChar_eq_insertAll]
    exact drafted _ (.insertAll s [c])
  | insertAll t => exact drafted _ (.insertAll s t)
  | removeSelection => exact drafted _ (.removeSelection s)
  | place position => exact drafted _ (.place s position)
  | anchorAt position => exact drafted _ (.anchorAt s position)
  | deselect => exact drafted _ (.deselect s)
  | reset => exact drafted _ (.reset s)
  | setBest i best => exact drafted _ (s.spared_setBest i best).drafted
  | update => exact update s (.refl s)

/-- **What every operation keeps holds after some operations.** -/
theorem operateAll_induction {P : Session → Prop} (start : P s)
    (step : ∀ s o, P s → P (s.operate o)) (operations : List Operation) :
    P (s.operateAll operations) := by
  induction operations generalizing s with
  | nil => exact start
  | cons o rest ih => exact ih (step s o start)

/-- Events are operations. -/
theorem follow_eq_operateAll (s : Session) (events : List Event) :
    s.follow events = s.operateAll (events.map .meet) := by
  induction events generalizing s with
  | nil => rfl
  | cons e rest ih => exact ih (s.after e)

/-! ### Bounds -/

namespace InBounds

/-- An event keeps a line in bounds. -/
protected theorem after (h : InBounds s) (e : Event) : InBounds (s.after e) := by
  cases e with
  | act a =>
    exact perform_induction a (fun _ hdraft => (h.of_draft hdraft).update)
      (fun _ hspared => h.of_spared hspared)
  | change w => exact h.congr rfl rfl rfl rfl
  | visit here => exact h.congr rfl rfl rfl rfl

/-- **Every operation keeps a line in bounds**, whatever state the selection is in. -/
protected theorem operate (h : InBounds s) (o : Operation) : InBounds (s.operate o) := by
  cases o with
  | meet e => exact h.after e
  | insertChar c =>
    change InBounds (s.insertChar c)
    rw [insertChar_eq_insertAll]
    exact h.insertAll [c]
  | insertAll t => exact h.insertAll t
  | removeSelection => exact h.removeSelection
  | place position => exact h.place position
  | anchorAt position => exact h.anchorAt position
  | deselect => exact h.deselect
  | reset => exact .reset s
  | setBest i best => exact h.of_spared (s.spared_setBest i best)
  | update => exact h.update

end InBounds

/-- No operation changes the capacity. -/
theorem capacity_operate (s : Session) (o : Operation) : (s.operate o).capacity = s.capacity :=
  operate_induction (P := fun t => t.capacity = s.capacity) o (fun _ h => h.capacity)
    (fun _ h => h.capacity) (fun _ => rfl) (fun _ => rfl)

theorem inBounds_operateAll (context : Context) (capacity : Int) (operations : List Operation) :
    InBounds ((start context capacity).operateAll operations) :=
  operateAll_induction (.start context capacity) (fun _ o h => h.operate o) operations

theorem capacity_operateAll (context : Context) (capacity : Int) (operations : List Operation) :
    ((start context capacity).operateAll operations).capacity = capacity :=
  operateAll_induction (P := fun s => s.capacity = capacity) rfl
    (fun s o h => (s.capacity_operate o).trans h) operations

/-- **Whatever is done to a line, its positions stay in it.**  After any operations, failed updates
among them, the text is no longer than the capacity allows, and a capacity below zero allows the
empty text only; the caret is in use and stands in the text, and so does the anchor while it is
active.  Hence the two ends of the selection are in order and in the text, and taking the selection
out makes the text shorter by just its width. -/
theorem bounds_operateAll (context : Context) (capacity : Int) (operations : List Operation) :
    let s := (start context capacity).operateAll operations
    s.main.active = true ∧ s.main.position ≤ s.text.length ∧
      (s.text.length : Int) ≤ max 0 capacity ∧
      (s.anchor.active → s.anchor.position ≤ s.text.length) ∧
      s.selection.1 ≤ s.selection.2 ∧ s.selection.2 ≤ s.text.length ∧
      s.removeSelection.text.length + (s.selection.2 - s.selection.1) = s.text.length := by
  intro s
  have h : InBounds s := inBounds_operateAll context capacity operations
  have hfits := h.fits
  rw [show s.capacity = capacity from capacity_operateAll context capacity operations] at hfits
  obtain ⟨-, hordered, hstop⟩ := h.selection_le
  exact ⟨rfl, h.caret, hfits, h.anchor, hordered, hstop, h.length_removeSelection⟩

end Session

end Typeahead
