import Typeahead.Proofs.Session.Choice
import Typeahead.Proofs.Session.Placeholder
import Typeahead.Proofs.Suggestion.Denoted

/-!
# The name being typed, told twice

The target of a path argument has the name being typed in it, and completing the argument works that
name out once more, from what is passed over.  Both take a double quote away from the end, the one
before it passes over what names the directory and the other behind that, and both come to the same
name.  It is read off the argument alone: neither the world nor the directory that the argument is
seen from has a say in it, and double quotes around the argument have none in where it points.

## Main definitions

* `Session.Supplies` — what completes a name to what fits best.

## Main results

* `Session.completion?_eq_some_iff` — what an argument is completed by.
* `Session.resolve_divides` — **a target tells the parts of its argument**, those that completing it
  goes by.
-/

namespace Typeahead

namespace Session

variable {argument : Text} {suggestion : Suggestion} {completion : Completion}

/-- **What completes a name to what fits best**: what is missing behind the name, and not nothing,
with the double quote that closes the argument left behind it.  Where nothing is typed the
placeholder is not what fits best. -/
structure Supplies (typed closing : Text) (suggestion : Suggestion) (completion : Completion) :
    Prop where
  best : suggestion.best = some (typed ++ completion.missing)
  missing : completion.missing ≠ []
  closing : completion.closing = closing
  shown : typed = [] → suggestion.best ≠ suggestion.placeholder

theorem closing_completionTo (argument : Text) (suggestion : Suggestion) (choice : Text) :
    (completionTo argument suggestion choice).closing =
      Target.closing (argument.drop suggestion.skip) := rfl

/-- The double quote tells whether one closes the argument. -/
theorem Completion.eq_of_closing {other : Completion} (hmissing : completion.missing = other.missing)
    (hclosing : completion.closing = other.closing) : completion = other := by
  obtain ⟨closed, missing⟩ := completion
  obtain ⟨closed', missing'⟩ := other
  obtain rfl : missing = missing' := hmissing
  cases closed <;> cases closed' <;> first | rfl | cases hclosing

/-- **What an argument is completed by** is what is missing behind the name being typed. -/
theorem completion?_eq_some_iff : completion? argument suggestion = some completion ↔
    Supplies (Target.unclosed (argument.drop suggestion.skip))
      (Target.closing (argument.drop suggestion.skip)) suggestion completion := by
  constructor
  · intro h
    obtain ⟨hparts, hbest, hmissing⟩ := parts_of_completion h
    have hclosing := hparts.symm.trans (Target.unclosed_append_closing _).symm
    exact ⟨hbest, hmissing, List.append_cancel_left hclosing, placeholder_ne_of_completion h⟩
  · intro h
    have hstart : Target.unclosed (argument.drop suggestion.skip) <+:
        Target.unclosed (argument.drop suggestion.skip) ++ completion.missing :=
      List.prefix_append _ _
    have hchosen := completion?_choice hstart (by
      rw [List.length_append]
      exact Nat.lt_add_of_pos_right (List.length_pos_of_ne_nil h.missing))
    rw [← h.best, if_neg fun hshown => h.shown hshown.1 hshown.2.symm] at hchosen
    refine hchosen.trans (congrArg some (Completion.eq_of_closing ?_ ?_))
    · exact List.drop_left
    · exact (closing_completionTo _ _ _).trans h.closing.symm

/-! ### Told twice -/

/-- **A target tells the parts of its argument.**  It passes over what stands before the name being
typed; the name has no slash in it, and behind it there is nothing or one double quote.  A suggestion
that passes over as much completes the argument by what is missing behind that very name.  Any other
world, seen from anywhere, has the same parts in the targets of the argument.  The directory of a
target is there.  And an argument that has no double quote at its ends points to the same place, or
nowhere, or to the same fault, with a double quote before it and with one on either side. -/
theorem resolve_divides (w : World) (here : Path) :
    (∀ argument target, Target.resolve w here argument = .ok (some target) →
      (∃ closing, Target.Divides argument target.skip target.typed closing ∧
        ∀ suggestion completion, suggestion.skip = target.skip →
          (completion? argument suggestion = some completion ↔
            Supplies target.typed closing suggestion completion)) ∧
      (∀ v seen other, Target.resolve v seen argument = .ok (some other) →
        other.skip = target.skip ∧ other.typed = target.typed) ∧
      w.isDirectory target.directory.toText = .ok true) ∧
    ∀ t : Text, t.head? ≠ some '"' → t.getLast? ≠ some '"' →
      let quoted := (Target.resolve w here t).map (Option.map Target.later)
      Target.resolve w here ('"' :: t) = quoted ∧
        Target.resolve w here ('"' :: (t ++ ['"'])) = quoted := by
  constructor
  -- Where the argument is cut depends on the argument alone, so any other world agrees.
  · intro argument target h
    obtain ⟨hskip, htyped⟩ := Target.of_resolve h
    refine ⟨⟨Target.closing (argument.drop target.skip), ?_, ?_⟩, ?_, ?_⟩
    · rw [hskip, htyped]
      exact Target.divides_split argument
    · intro suggestion completion heq
      rw [Target.typed_of_resolve h, ← heq]
      exact completion?_eq_some_iff
    · intro v seen other hother
      obtain ⟨hskip', htyped'⟩ := Target.of_resolve hother
      exact ⟨hskip'.trans hskip.symm, htyped'.trans htyped.symm⟩
    · exact Target.isDirectory_of_resolve h
  · intro t hhead hlast
    -- The opening quote is passed over as one character more, and the closing one is no part of
    -- what is typed.
    have hopened : Target.resolve w here ('"' :: t) =
        (Target.resolve w here t).map (Option.map Target.later) := Target.resolve_opened hhead
    exact ⟨hopened, (Target.resolve_enclosed hlast).trans hopened⟩

/-- Of an argument in double quotes only the name behind its last slash is typed. -/
theorem resolve_divides_sample :
    let argument := ['"', 'd', '/', 'x', 'y', '"']
    let target : Target := ⟨⟨.single, [['d']]⟩, 3, ['x', 'y']⟩
    let unquoted : Target := ⟨⟨.single, [['d']]⟩, 2, ['x', 'y']⟩
    Target.resolve .sample ⟨.single, []⟩ argument = .ok (some target) ∧
      (∃ closing, Target.Divides argument 3 ['x', 'y'] closing) ∧
      Target.resolve .sample ⟨.single, []⟩ ['d', '/', 'x', 'y'] = .ok (some unquoted) ∧
      target = unquoted.later := by
  intro argument target unquoted
  have htarget : Target.resolve .sample ⟨.single, []⟩ argument = .ok (some target) := rfl
  obtain ⟨hparts, hquoting⟩ := resolve_divides .sample ⟨.single, []⟩
  obtain ⟨⟨closing, hdivides, -⟩, -, -⟩ := hparts argument target htarget
  have hunquoted : Target.resolve .sample ⟨.single, []⟩ ['d', '/', 'x', 'y'] =
      .ok (some unquoted) := rfl
  have henclosed := (hquoting ['d', '/', 'x', 'y'] (by decide) (by decide)).2
  rw [hunquoted] at henclosed
  have heq : some target = some unquoted.later := Except.ok.inj (htarget.symm.trans henclosed)
  exact ⟨htarget, ⟨closing, hdivides⟩, hunquoted, Option.some.inj heq⟩

end Session

end Typeahead
