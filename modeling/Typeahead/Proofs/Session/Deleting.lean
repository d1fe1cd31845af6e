import Typeahead.Proofs.Session.Jump
import Typeahead.Proofs.Session.Selecting

/-!
# Deleting is selecting and taking out

A key that deletes puts the anchor where it reaches to and takes out what lies between.  One that
selects leaves the anchor where the caret is and moves the caret instead; it has the line updated
once more, and it may fail.  Nevertheless selecting and then taking out the selection comes to the
same as deleting at once, and so does going one character on and deleting backwards.  For in a world
that stays the same all that counts is what is left of the line and where the caret is.

Deleting backwards by words never stops before the start of the line, since each word that is
deleted makes the line shorter, however the rest of it is taken apart afterwards.

## Main definitions

* `Outcome.Accords` — two outcomes with one answer that leave the same line with nothing selected,
  suggestions included if they are up to date.

## Main results

* `Session.accords_removeSelection` — taking out the same of two lines with one text comes to the
  same.
* `Session.accords_select`, `Session.accords_step` — deleting comes to the same as selecting and
  taking out, and deleting forwards as going on and deleting backwards.
* `Session.Between.eraseWord`, `Session.Between.eraseWords` — what deleting by words backwards
  leaves, once and again and again.
* `Session.delete_routes` — **whatever way a piece of a line is deleted, the outcome is the same**,
  and deleting by words backwards leaves what was behind the caret.
-/

namespace Typeahead

/-- `o.Accords p` says that two outcomes have one answer and leave lines that agree in the text, the
caret and all that is known about them, with nothing selected in either.  The suggestions agree if
the answer is no fault; a fault may leave some of them behind that are not up to date. -/
structure Outcome.Accords {α : Type} (o p : Outcome α) : Prop where
  answer : p.answer = o.answer
  anchor : o.session.anchor.active = false
  line : o.session.Restored p.session
  table : o.answer.isOk → p.session.analysis.table = o.session.analysis.table

namespace Session

variable {s t : Session} {context : Context} {capacity : Int} {before after : Text}

/-! ### Ways to one line -/

/-- **Two lines of one text with one caret accord after an update**, if they came about in a world
that stays the same and nothing is selected. -/
theorem accords_update (hs : Steady context capacity s) (ht : Steady context capacity t)
    (h : Between s before after) (h' : Between t before after) :
    Outcome.Accords (silent s.update) (silent t.update) := by
  have halike : s.context.Alike t.context := hs.context.symm.trans ht.context
  have htext : t.text = s.text := h'.text.trans h.text.symm
  have hcaret : t.caret = s.caret := h'.caret.trans h.caret.symm
  have hupdated : s.update.session.context.Alike t.update.session.context :=
    s.alike_update.symm.trans (halike.trans t.alike_update)
  obtain ⟨hanswer, hanalysis⟩ := update_congr hs.settled ht.settled halike htext hcaret
  refine ⟨?_, h.anchor, ?_, ?_⟩
  · simp only [silent, hanswer]
  · exact restored_of_inStep (.update s) (.update t) hupdated htext hcaret h'.anchor
  · intro hok
    have hgood : s.update.answer = .ok () := (follows_silent s).update_of_isOk hok
    exact congrArg Analysis.table (hanalysis hgood)

/-- **Taking out the same of two lines with one text comes to the same.** -/
theorem accords_removeSelection (hs : Steady context capacity s) (ht : Steady context capacity t)
    (htext : t.text = s.text) (hselection : t.selection = s.selection) :
    Outcome.Accords (silent s.removeSelection.update) (silent t.removeSelection.update) := by
  have hremoved := between_removeSelection ht.bounds
  rw [htext, hselection] at hremoved
  exact accords_update (hs.of_draft .deleteSelection) (ht.of_draft .deleteSelection)
    (between_removeSelection hs.bounds) hremoved

theorem Steady.anchorAt (h : Steady context capacity s) (position : Int) :
    Steady context capacity (s.anchorAt position) :=
  h.of_drafted (.anchorAt s position) (h.bounds.anchorAt position)

/-- What a key deletes while nothing is selected. -/
theorem perform_delete (hanchor : s.anchor.active = false) (d : Direction) (r : Reach) :
    s.perform (.delete d r) = silent (s.anchorAt (s.reach d r)).removeSelection.update := by
  show silent (s.delete d r) = _
  rw [delete, hanchor]
  rfl

/-- **Deleting comes to the same as selecting and taking out.** -/
theorem accords_select (h : Steady context capacity s) (hanchor : s.anchor.active = false)
    (d : Direction) (r : Reach) :
    Outcome.Accords (s.perform (.delete d r))
      ((s.perform (.move d r true)).session.perform .deleteSelection) := by
  let t := (s.perform (.move d r true)).session
  have hdrawn : Drawn s t := .start h.bounds hanchor (.move d r)
  have hactive : t.anchor.active := by rw [hdrawn.anchor]
  have hdelete : t.perform .deleteSelection = silent t.removeSelection.update := by
    rw [perform, if_pos hactive]
  -- Anchor and caret have changed places.
  have hcaret : t.caret = s.clamp (s.reach d r) := by
    show (if s.anchor.active then s else s.anchorAt s.caret).clamp (s.reach d r) = _
    rw [hanchor]
    rfl
  have hselection : t.selection = (s.anchorAt (s.reach d r)).selection := by
    rw [hdrawn.selection_eq, selection_anchorAt, hcaret, min_comm, max_comm]
  rw [perform_delete hanchor]
  show Outcome.Accords _ (t.perform .deleteSelection)
  rw [hdelete]
  exact accords_removeSelection (h.anchorAt _) (h.of_draft (.move _ true)).update hdrawn.text
    hselection

/-- **Deleting forwards comes to the same as going on and deleting backwards**, unless the caret is
at the end. -/
theorem accords_step (h : Steady context capacity s) (hanchor : s.anchor.active = false)
    (hcaret : s.caret < s.text.length) :
    Outcome.Accords (s.perform (.delete .right .character))
      ((s.perform (.move .right .character false)).session.perform (.delete .left .character)) := by
  let t := (s.perform (.move .right .character false)).session
  have hanchor' : t.anchor.active = false := rfl
  have hmoved : t.caret = s.caret + 1 := by
    show s.clamp (s.reach .right .character) = s.caret + 1
    rw [clamp_reach_right]
    omega
  have hle : t.caret ≤ t.text.length := by
    rw [hmoved]
    exact hcaret
  -- Moving to the right first, the same character is to the left of the caret.
  have hselection : (t.anchorAt (t.reach .left .character)).selection =
      (s.anchorAt (s.reach .right .character)).selection := by
    rw [selection_anchorAt, selection_anchorAt, clamp_reach_left hle, clamp_reach_right, hmoved]
    ext <;> simp only <;> omega
  rw [perform_delete hanchor]
  show Outcome.Accords _ (t.perform (.delete .left .character))
  rw [perform_delete hanchor']
  exact accords_removeSelection (h.anchorAt _) ((h.of_draft (.move _ false)).update.anchorAt _) rfl
    hselection

/-! ### Deleting by words backwards -/

/-- A jump to the left goes to the left, unless it starts at the start of the line. -/
theorem jumpFrom_left_lt (hspans : s.analysis.spans = Line.spans s.text) {position : Nat}
    (hpos : 0 < position) : s.jumpFrom .left position < position := by
  have hsorted := Line.pairwise_boundaries s.text
  rw [← hspans] at hsorted
  rcases next_jumpFrom hsorted .left position with ⟨-, hahead, -⟩ | ⟨-, hstart⟩
  · exact hahead
  · show s.jumpFrom Direction.left.side position < position
    rw [hstart]
    exact hpos

theorem jumpFrom_left_zero (hspans : s.analysis.spans = Line.spans s.text) :
    s.jumpFrom .left 0 = 0 := by
  have hsorted := Line.pairwise_boundaries s.text
  rw [← hspans] at hsorted
  rcases next_jumpFrom hsorted .left 0 with ⟨-, hahead, -⟩ | ⟨-, hstart⟩
  · exact absurd hahead (Nat.not_lt_zero _)
  · exact hstart

namespace Between

/-- **What deleting a word backwards leaves**: what stands before the place that the caret jumps to,
and all of what stands behind the caret. -/
theorem eraseWord (h : Between s before after) (hs : InStep s) :
    Between (s.perform (.delete .left .word)).session
      (before.take (s.jumpFrom .left before.length)) after := by
  let place := s.jumpFrom .left before.length
  have hle : place ≤ before.length := by
    rcases Nat.eq_zero_or_pos before.length with hzero | hpos
    · simp only [place, hzero, jumpFrom_left_zero hs.spans, Nat.le_refl]
    · exact (jumpFrom_left_lt hs.spans hpos).le
  -- The line in three parts, of which the one in the middle is selected.
  have htext : s.text = before.take place ++ before.drop place ++ after := by
    rw [List.take_append_drop, h.text]
  have hclamp : s.clamp (s.reach .left .word) = place := by
    show s.clamp (s.jumpFrom .left s.caret) = place
    rw [h.caret]
    exact clamp_of_le (hle.trans (h.length_eq ▸ Nat.le_add_right _ _))
  show Between (s.delete .left .word).session (before.take place) after
  rw [h.delete_eq]
  refine Between.update (removeSelection htext ?_)
  rw [selection_anchorAt, hclamp, h.caret, Nat.min_eq_left hle, Nat.max_eq_right hle,
    List.take_append_drop, List.length_take_of_le hle]

/-- At the start of the line there is no word to delete. -/
theorem eraseWords_nil (h : Between s [] after) (hs : InStep s) (n : Nat) :
    Between (s.run (List.replicate n (.delete .left .word))) [] after := by
  induction n generalizing s with
  | zero => exact h
  | succ n ih =>
    have hnext := h.eraseWord hs
    rw [List.take_nil] at hnext
    exact ih hnext (hs.perform _)

/-- **Deleting by words backwards leaves what stands behind the caret** after at most as many keys
as there are characters before it, and from then on. -/
theorem eraseWords (h : Between s before after) (hs : InStep s) :
    ∃ n ≤ before.length, ∀ m, n ≤ m →
      Between (s.run (List.replicate m (.delete .left .word))) [] after := by
  -- Each key leaves less before the caret.
  induction hlength : before.length using Nat.strong_induction_on generalizing s before with
  | _ length ih =>
  rcases Nat.eq_zero_or_pos length with hzero | hpos
  · obtain rfl : before = [] := List.length_eq_zero_iff.mp (hlength.trans hzero)
    exact ⟨0, Nat.zero_le _, fun m _ => h.eraseWords_nil hs m⟩
  · have hlt : s.jumpFrom .left before.length < length := by
      rw [hlength]
      exact jumpFrom_left_lt hs.spans hpos
    have hkept : (before.take (s.jumpFrom .left before.length)).length < length := by
      rw [List.length_take]
      omega
    obtain ⟨n, hn, hall⟩ := ih _ hkept (h.eraseWord hs) (hs.perform _) rfl
    refine ⟨n + 1, by omega, ?_⟩
    intro m hm
    obtain ⟨m, rfl⟩ : ∃ k, m = k + 1 := ⟨m - 1, by omega⟩
    rw [List.replicate_succ]
    exact hall m (by omega)

end Between

/-- **Whatever way a piece of a line is deleted, the outcome is the same.**  After any actions in a
world that stays the same, failed ones among them, while nothing is selected: deleting in either
direction, by a character or by a word, accords with selecting as far and taking out the selection;
and deleting the next character, if there is one, accords with going on and deleting backwards.  If
there is anything before the caret, deleting a word backwards makes the line shorter and leaves what
is behind the caret; and doing so again and again leaves just that, with the caret at the start,
after at most as many keys as there were characters before the caret. -/
theorem delete_routes (context : Context) (capacity : Int) (actions : List Action) :
    let s := (start context capacity).run actions
    let behind := s.text.drop s.caret
    s.anchor.active = false →
      (∀ d r, Outcome.Accords (s.perform (.delete d r))
        ((s.perform (.move d r true)).session.perform .deleteSelection)) ∧
      (s.caret < s.text.length →
        Outcome.Accords (s.perform (.delete .right .character))
          ((s.perform (.move .right .character false)).session.perform
            (.delete .left .character))) ∧
      (0 < s.caret →
        let t := (s.perform (.delete .left .word)).session
        t.text.length < s.text.length ∧
          ∃ kept, kept <+: s.text.take s.caret ∧ Between t kept behind) ∧
      ∃ n ≤ s.caret, ∀ m, n ≤ m →
        Between (s.run (List.replicate m (.delete .left .word))) [] behind := by
  intro s behind hanchor
  have hsteady : Steady context capacity s := steady_run context capacity actions
  have hstep : InStep s := (inStep_start context capacity).run actions
  have hbetween := between_of_inBounds hsteady.bounds hanchor
  have hlength : (s.text.take s.caret).length = s.caret := hbetween.caret.symm
  refine ⟨accords_select hsteady hanchor, accords_step hsteady hanchor, ?_, ?_⟩
  -- A word is erased with at least one character, since the jump goes to an earlier place.
  · intro hpos t
    have hlt : s.jumpFrom .left s.caret < s.caret := jumpFrom_left_lt hstep.spans hpos
    have herased := hbetween.eraseWord hstep
    rw [hlength] at herased
    refine ⟨?_, _, List.take_prefix _ _, herased⟩
    rw [herased.length_eq, hbetween.length_eq, hlength, List.length_take, hlength]
    omega
  -- So the words are used up after as many steps as there are characters at most.
  · have hwords := hbetween.eraseWords hstep
    rwa [hlength] at hwords

/-- Words are deleted from a line that leads into a locked directory, where an update fails. -/
theorem delete_routes_sample :
    let s := (start .sample 8).run
      [.insert ['a', ' ', '/', 'p', '/', 'q', '/'], .move .left .character false]
    let deleted := s.perform (.delete .left .word)
    s.anchor.active = false ∧ s.update.answer = .error (.path .denied) ∧ deleted.answer.isOk ∧
      Outcome.Accords deleted
        ((s.perform (.move .left .word true)).session.perform .deleteSelection) ∧
      Outcome.Accords (s.perform (.delete .right .character))
        ((s.perform (.move .right .character false)).session.perform (.delete .left .character)) ∧
      deleted.session.text.length < 7 ∧
      ∃ n ≤ 6, ∀ m, n ≤ m → Between (s.run (List.replicate m (.delete .left .word))) [] ['/'] := by
  intro s deleted
  have hlength : s.text.length = 7 := by decide +kernel
  have hcaret : s.caret = 6 := by decide +kernel
  have hbehind : s.text.drop s.caret = ['/'] := by decide +kernel
  have hanchor : s.anchor.active = false := rfl
  obtain ⟨hselect, hstep, hword, hwords⟩ := delete_routes .sample 8 _ hanchor
  refine ⟨hanchor, by decide +kernel, by decide +kernel, hselect .left .word, ?_, ?_, ?_⟩
  · exact hstep (by rw [hlength, hcaret]; decide)
  · rw [← hlength]
    exact (hword (by rw [hcaret]; decide)).1
  · rw [← hcaret, ← hbehind]
    exact hwords

end Session

end Typeahead
