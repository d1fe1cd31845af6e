import Typeahead.Proofs.Session.Answer
import Typeahead.Proofs.Session.Appending
import Typeahead.Proofs.Session.Current

/-!
# Typing and erasing

What was typed can be erased again, a character at a time: backwards from where the caret is then,
or forwards from where it was.  Each step takes the line apart into other arguments and may fail,
but text and caret are settled before the update that fails, and the analysis, its table apart, is
that of the text and the caret after each of them.  So all that has to be followed is where the
caret stands in the text.

## Main definitions

* `Session.Between` — the caret stands between two texts.
* `Session.Restored` — a line that is back to what it was.

## Main results

* `Session.Between.insert`, `Session.Between.erase`, `Session.Between.retreat`,
  `Session.Between.swallow` — where the caret is after typing, and after one character is erased,
  left behind or swallowed.
* `Session.restored_of_between` — **a line whose caret is back where it was is back to what it
  was.**
* `Session.restored_erased` — **typing and erasing cancel out.**
-/

namespace Typeahead

namespace Session

/-- `s.Between before after` says that the line consists of two texts with the caret between them,
and that nothing is selected. -/
structure Between (s : Session) (before after : Text) : Prop where
  text : s.text = before ++ after
  caret : s.caret = before.length
  anchor : s.anchor.active = false

/-- `s.Restored t` says that `t` is back to what the line `s` was: the text and the caret, with
nothing selected, and all that is known about them but for the suggestions. -/
structure Restored (s t : Session) : Prop where
  text : t.text = s.text
  caret : t.caret = s.caret
  anchor : t.anchor.active = false
  spans : t.analysis.spans = s.analysis.spans
  quotes : t.analysis.quotes = s.analysis.quotes
  current : t.analysis.current = s.analysis.current
  grammar : t.analysis.grammar = s.analysis.grammar
  readings : t.analysis.readings = s.analysis.readings

variable {s t : Session} {before after : Text} {c : Char}

theorem between_of_inBounds (h : InBounds s) (hanchor : s.anchor.active = false) :
    Between s (s.text.take s.caret) (s.text.drop s.caret) :=
  ⟨(List.take_append_drop _ _).symm, (List.length_take_of_le h.caret).symm, hanchor⟩

/-! ### The places beside the caret -/

theorem clamp_reach_left (h : s.caret ≤ s.text.length) :
    s.clamp (s.reach .left .character) = s.caret - 1 := by
  simp only [reach, shiftFrom, Direction.side, if_true, clamp]
  omega

theorem clamp_reach_right (s : Session) :
    s.clamp (s.reach .right .character) = min (s.caret + 1) s.text.length := by
  simp only [reach, shiftFrom, Direction.side, reduceCtorEq, if_false, clamp]
  omega

theorem selection_anchorAt (s : Session) (position : Int) :
    (s.anchorAt position).selection =
      (min (s.clamp position) s.caret, max (s.clamp position) s.caret) := rfl

/-! ### One key -/

namespace Between

theorem length_eq (h : Between s before after) :
    s.text.length = before.length + after.length := by
  rw [h.text, List.length_append]

theorem caret_le (h : Between s before after) : s.caret ≤ s.text.length := by
  rw [h.caret, h.length_eq]
  exact Nat.le_add_right _ _

/-- An update is about what is known about a line only. -/
protected theorem update (h : Between s before after) : Between s.update.session before after :=
  ⟨h.text, h.caret, h.anchor⟩

/-- Between two texts nothing is selected that could be taken out first. -/
theorem freed_eq (h : Between s before after) : s.freed = s := by
  rw [freed, h.anchor]
  rfl

theorem delete_eq (h : Between s before after) (d : Direction) (r : Reach) :
    s.delete d r = (s.anchorAt (s.reach d r)).removeSelection.update := by
  rw [delete, h.anchor]
  rfl

/-- The caret is behind a text that was put in. -/
protected theorem insertAll (h : Between s before after) {u : Text}
    (hfits : (s.text.length + u.length : Int) ≤ s.capacity) :
    Between (s.insertAll u) (before ++ u) after := by
  rw [Session.insertAll, if_neg (by omega)]
  refine ⟨?_, ?_, h.anchor⟩
  · rw [splice, h.text, h.caret, List.take_left, List.drop_left]
  · rw [splice, h.caret, List.length_append]

/-- The caret is behind what was typed. -/
protected theorem insert (h : Between s before after) {u : Text}
    (hfits : (s.text.length + u.length : Int) ≤ s.capacity) :
    Between (s.perform (.insert u)).session (before ++ u) after := by
  rw [perform, insert_eq, h.freed_eq]
  split
  next hnil =>
    rw [hnil, List.append_nil]
    exact h
  next => exact Between.update (h.insertAll hfits)

/-- A selection that reaches from one place to another is taken out. -/
theorem removeSelection {middle : Text} (htext : s.text = before ++ middle ++ after)
    (hselection : s.selection = (before.length, (before ++ middle).length)) :
    Between s.removeSelection before after := by
  refine ⟨?_, ?_, rfl⟩
  · rw [Session.removeSelection, htext, hselection]
    dsimp only
    rw [List.append_assoc, List.take_left, ← List.append_assoc, List.drop_left]
  · rw [Session.removeSelection, hselection]

/-- **The character before the caret is erased.** -/
theorem erase (h : Between s (before ++ [c]) after) :
    Between (s.perform (.delete .left .character)).session before after := by
  change Between (s.delete .left .character).session before after
  rw [h.delete_eq]
  refine Between.update (removeSelection h.text ?_)
  rw [selection_anchorAt, clamp_reach_left h.caret_le, Nat.min_eq_left (Nat.sub_le _ _),
    Nat.max_eq_right (Nat.sub_le _ _), h.caret, List.length_append, List.length_singleton,
    Nat.add_sub_cancel]

/-- **The character behind the caret is swallowed.** -/
theorem swallow (h : Between s before (c :: after)) :
    Between (s.perform (.delete .right .character)).session before after := by
  have htext : s.text = before ++ [c] ++ after := by
    rw [h.text, List.append_assoc, List.singleton_append]
  have hplace : s.clamp (s.reach .right .character) = before.length + 1 := by
    rw [clamp_reach_right, h.caret, h.length_eq, List.length_cons]
    omega
  change Between (s.delete .right .character).session before after
  rw [h.delete_eq]
  refine Between.update (removeSelection htext ?_)
  rw [selection_anchorAt, hplace, h.caret, Nat.min_eq_right (Nat.le_succ _),
    Nat.max_eq_left (Nat.le_succ _), List.length_append, List.length_singleton]

/-- **The character before the caret is left behind it.** -/
theorem retreat (h : Between s (before ++ [c]) after) :
    Between (s.perform (.move .left .character false)).session before (c :: after) := by
  refine ⟨?_, ?_, rfl⟩
  · change s.text = _
    rw [h.text, List.append_assoc, List.singleton_append]
  · change s.clamp (s.reach .left .character) = _
    rw [clamp_reach_left h.caret_le, h.caret, List.length_append, List.length_singleton,
      Nat.add_sub_cancel]

/-! ### As many keys as characters -/

/-- Text before the caret is erased. -/
theorem erase_all {u : Text} (h : Between s (before ++ u) after) :
    Between (s.run (List.replicate u.length (.delete .left .character))) before after := by
  induction u using List.reverseRecOn generalizing s with
  | nil =>
    rw [List.append_nil] at h
    exact h
  | append_singleton u c ih =>
    rw [← List.append_assoc] at h
    rw [List.length_append, List.length_singleton, List.replicate_succ]
    exact ih h.erase

/-- Text before the caret is left behind it. -/
theorem retreat_all {u : Text} (h : Between s (before ++ u) after) :
    Between (s.run (List.replicate u.length (.move .left .character false))) before
      (u ++ after) := by
  induction u using List.reverseRecOn generalizing s after with
  | nil =>
    rw [List.append_nil] at h
    exact h
  | append_singleton u c ih =>
    rw [← List.append_assoc] at h
    rw [List.length_append, List.length_singleton, List.replicate_succ, List.append_assoc]
    exact ih h.retreat

/-- Text behind the caret is swallowed. -/
theorem swallow_all {u : Text} (h : Between s before (u ++ after)) :
    Between (s.run (List.replicate u.length (.delete .right .character))) before after := by
  induction u generalizing s with
  | nil => exact h
  | cons c u ih =>
    rw [List.length_cons, List.replicate_succ]
    exact ih (swallow h)

end Between

theorem run_append (s : Session) (actions more : List Action) :
    s.run (actions ++ more) = (s.run actions).run more := by
  induction actions generalizing s with
  | nil => rfl
  | cons a rest ih => exact ih (s.perform a).session

/-! ### Back to what it was -/

/-- Some actions leave a context that looks alike. -/
theorem alike_run (s : Session) (actions : List Action) :
    s.context.Alike (s.run actions).context :=
  run_induction (P := fun t => s.context.Alike t.context) (.refl _)
    (fun _ t h hdraft => h.trans ((Drafted.of_draft hdraft).context.trans t.alike_update))
    (fun _ _ h hspared => h.trans hspared.context) actions

protected theorem InStep.run (h : InStep s) (actions : List Action) : InStep (s.run actions) :=
  run_induction h (fun _ t _ _ => .update t) (fun _ _ h hspared => h.of_spared hspared) actions

/-- A line in step that has the text and the caret of another one is back to what that was. -/
theorem restored_of_inStep (hs : InStep s) (ht : InStep t) (halike : s.context.Alike t.context)
    (htext : t.text = s.text) (hcaret : t.caret = s.caret) (hanchor : t.anchor.active = false) :
    Restored s t := by
  have hgrammar : t.analysis.grammar = s.analysis.grammar :=
    hs.grammar_eq ht halike (by rw [htext])
  refine ⟨htext, hcaret, hanchor, ?_, ?_, ?_, hgrammar, ?_⟩
  · rw [ht.spans, hs.spans, htext]
  · rw [ht.quotes, hs.quotes, htext]
  · rw [ht.current, hs.current, htext, hcaret]
  · rw [ht.readings, hs.readings, hgrammar, htext]

/-- **A line whose caret is back where it was is back to what it was**, whatever was done and
whether it failed or not. -/
theorem restored_of_between (hs : InStep s) (h : Between s before after) {actions : List Action}
    (hback : Between (s.run actions) before after) : Restored s (s.run actions) :=
  restored_of_inStep hs (hs.run actions) (s.alike_run actions) (hback.text.trans h.text.symm)
    (hback.caret.trans h.caret.symm) hback.anchor

/-- **Typing and erasing cancel out.**  Let a text that fits be typed after any events while nothing
is selected.  Then erasing it backwards, or going back before it and erasing it forwards, restores
the line, whichever of these keys fail. -/
theorem restored_erased (context : Context) (capacity : Int) (events : List Event) (u : Text) :
    let s := (start context capacity).follow events
    let erase : Action := .delete .left .character
    let retreat : Action := .move .left .character false
    let swallow : Action := .delete .right .character
    s.anchor.active = false → (s.text.length + u.length : Int) ≤ capacity →
      Restored s (s.run (.insert u :: List.replicate u.length erase)) ∧
      Restored s (s.run (.insert u ::
        (List.replicate u.length retreat ++ List.replicate u.length swallow))) := by
  intro s erase retreat swallow hanchor hfits
  have hstep : InStep s := inStep_follow context capacity events
  have hcapacity : s.capacity = capacity := (start context capacity).capacity_follow events
  have hbefore := between_of_inBounds (inBounds_follow context capacity events) hanchor
  -- What was typed stands between the two parts that were there, and is used up from its end.
  have htyped := hbefore.insert (u := u) (by rw [hcapacity]; exact hfits)
  refine ⟨restored_of_between hstep hbefore htyped.erase_all,
    restored_of_between hstep hbefore ?_⟩
  change Between ((s.perform (.insert u)).session.run _) _ _
  rw [run_append]
  exact htyped.retreat_all.swallow_all

/-- What is typed opens a double quote and leads into a locked directory, so that typing it fails,
and so do most of the keys that erase it. -/
theorem restored_erased_sample :
    let events : List Event := [.act (.insert ['a', 'b']), .act (.move .left .character false)]
    let s := (start .sample 20).follow events
    let u : Text := [' ', '"', '/', 'p', '/', 'q', '/', 'r']
    let erase : Action := .delete .left .character
    let retreat : Action := .move .left .character false
    let swallow : Action := .delete .right .character
    let typed := s.run [.insert u]
    typed.text = ['a', ' ', '"', '/', 'p', '/', 'q', '/', 'r', 'b'] ∧
      (s.perform (.insert u)).answer = .error (.path .denied) ∧
      (typed.perform erase).answer = .error (.path .denied) ∧
      Restored s (s.run (.insert u :: List.replicate u.length erase)) ∧
      Restored s (s.run (.insert u ::
        (List.replicate u.length retreat ++ List.replicate u.length swallow))) := by
  refine ⟨rfl, rfl, rfl, ?_⟩
  exact restored_erased .sample 20 [.act (.insert ['a', 'b']), .act (.move .left .character false)]
    [' ', '"', '/', 'p', '/', 'q', '/', 'r'] rfl (by decide)

end Session

end Typeahead
