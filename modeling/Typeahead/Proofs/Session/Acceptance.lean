import Typeahead.Proofs.Session.Arguments
import Typeahead.Proofs.Session.Completion
import Typeahead.Proofs.Suggestion.Cutting

/-!
# What a completion leaves of the line

What is missing of an argument is put in as it is, whatever characters there are in it, and then the
line is divided anew.  The names of files and programs may have spaces and double quotes in them.  A
space that comes to stand outside double quotes divides the argument; a double quote that is left
open runs it together with the next one.  So the current argument is completed, and every other one
left alone, exactly if what is put in fits.

## Main definitions

* `Completion.closing` — the double quote that stays behind what is put in, if there is one.
* `Context.spaced` — a small context in which there are such names.

## Main results

* `Session.parts_of_completion` — the parts of a completed argument.
* `Session.arguments_of_putIn` — what has become of the arguments.
* `Session.completed_iff_fits` — **the current argument is completed exactly if what is put in
  fits.**
-/

namespace Typeahead

/-! ### Names that do not fit -/

/-- A world with a directory in which the names have a space and a double quote in them. -/
def World.spaced : World :=
  { World.sample with
    files := ⟨[([['d']], .directory .free), ([['x', ' ', 'y'], ['d']], .file ⟨false, true, []⟩),
      ([['q', '"', 'r'], ['d']], .file ⟨false, true, []⟩)]⟩ }

/-- That world seen from its root. -/
def Context.spaced : Context := { Context.sample with world := .spaced }

namespace Session

/-- The double quote that stays behind what is put in, if one closes the argument. -/
def Completion.closing (completion : Completion) : Text := if completion.closed then ['"'] else []

theorem Completion.length_closing (completion : Completion) :
    completion.closing.length = completion.closed.toNat := by
  unfold closing
  cases completion.closed <;> rfl

theorem Completion.space_notMem_closing (completion : Completion) : ' ' ∉ completion.closing := by
  unfold closing
  cases completion.closed <;> decide

variable {s t : Session} {argument : Text} {suggestion : Suggestion} {completion : Completion}

/-! ### The parts of a completed argument -/

/-- **The parts of a completed argument**: behind what takes no part in the matching stands what was
typed of the best choice, and then the closing quote if there is one; and the best choice is what
was typed and what is missing. -/
theorem parts_of_completion (h : completion? argument suggestion = some completion) :
    let typed := Target.unclosed (argument.drop suggestion.skip)
    argument.drop suggestion.skip = typed ++ completion.closing ∧
      suggestion.best = some (typed ++ completion.missing) ∧ completion.missing ≠ [] := by
  intro typed
  unfold completion? at h
  cases hbest : suggestion.best with
  | none => rw [hbest] at h; cases h
  | some best =>
    simp only [hbest, Option.ite_none_left_eq_some, Option.some.injEq, Bool.or_eq_true,
      Bool.not_eq_true', decide_eq_true_eq, not_or, Bool.not_eq_false] at h
    obtain ⟨-, -, ⟨hstart, hlonger⟩, rfl⟩ := h
    have htyped : typed <+: best := List.isPrefixOf_iff_prefix.mp hstart
    have hmissing : typed ++ best.drop typed.length = best := List.prefix_iff_eq_append.mp htyped
    refine ⟨?_, congrArg some hmissing.symm, ?_⟩
    · exact (Target.unclosed_append_closing _).symm
    · intro hnil
      change best.drop typed.length = [] at hnil
      rw [hnil, List.append_nil] at hmissing
      exact hlonger (congrArg List.length hmissing.symm)

/-! ### What becomes of the arguments -/

/-- A completion that was put into the current argument, seen from there: the line is the same
before and behind it, and the caret stands behind what was put in. -/
theorem exists_around_of_putIn {lead : Text} (h : InStep s) (hne : s.text ≠ [])
    (hholds : s.Holds s.analysis.current argument suggestion)
    (hput : s.PutIn s.analysis.current completion t)
    (hparts : argument = lead ++ completion.closing) :
    ∃ before after, before.length = s.analysis.current ∧
      s.arguments = before ++ (lead ++ completion.closing) :: after ∧
      t.text = Line.leading before ++ (lead ++ completion.missing ++ completion.closing) ++
        Line.trailing after ∧
      t.caret = (Line.leading before).length + lead.length + completion.missing.length := by
  -- Both speak of the span of the current argument.
  obtain ⟨span, -, hspan, -, rfl⟩ := hholds
  obtain ⟨span', place, hspan', hstop, htext, hcaret⟩ := hput
  rw [hspan] at hspan'
  cases hspan'
  obtain ⟨before, after, hlength, harguments, hend⟩ := h.exists_around hspan
  rw [hparts] at harguments hend
  -- The place is where the lead ends, in front of a closing quote.
  have hplace : place = (Line.leading before ++ lead).length := by
    rw [List.length_append, completion.length_closing] at hend
    rw [List.length_append]
    omega
  have hline : s.text =
      Line.leading before ++ lead ++ (completion.closing ++ Line.trailing after) := by
    rw [← (h.division hne).join, harguments, Line.join_append_cons]
    simp only [List.append_assoc]
  refine ⟨before, after, hlength, harguments, ?_, ?_⟩
  · rw [htext, hplace, hline, List.take_left, List.drop_left]
    simp only [List.append_assoc]
  · rw [hcaret, hplace, List.length_append]

/-- **What has become of the arguments** of a line into whose current argument a completion was put:
it is completed, the others are as they were, and the caret is still in it, exactly if what was
missing fits. -/
theorem arguments_of_putIn {lead : Text} (hs : InStep s) (hne : s.text ≠ []) (ht : InStep t)
    (hholds : s.Holds s.analysis.current argument suggestion)
    (hput : s.PutIn s.analysis.current completion t)
    (hparts : argument = lead ++ completion.closing) :
    (t.count = s.count ∧ t.analysis.current = s.analysis.current ∧
      t.arguments = s.arguments.set s.analysis.current
        (lead ++ completion.missing ++ completion.closing)) ↔
      Line.FitsBehind lead completion.missing (s.analysis.current + 1 = s.count) := by
  obtain ⟨before, after, hlength, harguments, htext, hcaret⟩ :=
    exists_around_of_putIn hs hne hholds hput hparts
  have hdivision := hs.division hne
  rw [harguments] at hdivision
  have hne' : t.text ≠ [] := by
    have hline : s.text = Line.leading before ++ (lead ++ completion.closing) ++
        Line.trailing after := by
      rw [← hdivision.join, Line.join_append_cons]
    have hlonger : s.text.length ≤ t.text.length := by
      rw [hline, htext]
      simp only [List.length_append]
      omega
    exact List.ne_nil_of_length_pos (Nat.lt_of_lt_of_le (List.length_pos_iff.mpr hne) hlonger)
  have hset : s.arguments.set s.analysis.current
      (lead ++ completion.missing ++ completion.closing) =
        before ++ (lead ++ completion.missing ++ completion.closing) :: after := by
    rw [harguments, ← hlength, List.set_append_right before.length _ (Nat.le_refl _), Nat.sub_self]
    rfl
  have hlast : s.analysis.current + 1 = s.count ↔ after = [] := by
    rw [← length_arguments, harguments, List.length_append, List.length_cons, ← hlength,
      ← List.length_eq_zero_iff]
    omega
  -- The new text divides into the old arguments with the one completed exactly if that fits.
  have hinsert := hdivision.insert_iff completion.space_notMem_closing completion.missing
  rw [← htext, Line.division_iff hne', ← ht.arguments_eq] at hinsert
  rw [hset, hlast, ← hinsert]
  constructor
  · rintro ⟨-, -, heq⟩
    exact heq.symm
  · intro heq
    have hnew := ht.division hne'
    rw [← heq] at hnew
    refine ⟨?_, ?_, heq.symm⟩
    · rw [← length_arguments, ← length_arguments, ← heq, harguments, List.length_append,
        List.length_append, List.length_cons, List.length_cons]
    · rw [ht.current, ← hlength]
      refine hnew.indexAt_eq hne' ?_ ?_
      · omega
      · rw [List.length_append, List.length_append]
        omega

/-- A completion that changes an empty line puts the best choice in. -/
theorem text_of_accept_nil (h : InStep s) (hnil : s.text = [])
    (hchanged : s.accept.session.text ≠ s.text) :
    ∃ suggestion completion, s.currentArgument.answer = .ok ([], suggestion) ∧
      completion? [] suggestion = some completion ∧
        s.accept.session.text = completion.missing := by
  obtain ⟨draft, hdraft, hsession⟩ := completed_of_accept hchanged
  rw [hsession] at hchanged ⊢
  obtain ⟨argument, suggestion, completion, hoffered, hcompletion, htext, -⟩ :=
    text_of_completed (t := draft) hdraft hchanged
  have hspans : s.analysis.spans = [] := by
    rw [h.spans, hnil]
    rfl
  have hargument : argument = [] := argument_eq_nil (by rw [hspans]; rfl) hoffered
  rw [hargument] at hoffered hcompletion
  refine ⟨suggestion, completion, hoffered, hcompletion, ?_⟩
  rw [update_session]
  dsimp only
  rw [htext, hnil, List.take_nil, List.drop_nil, List.nil_append, List.append_nil]

/-- **The current argument is completed exactly if what is put in fits.**  After any events let an
action come to an update that goes well, and let completing then change the text.  The best choice
of the current argument is what was typed of it and what is missing, and what is missing is put in
behind what was typed, before a closing quote.  The argument is completed to its best choice, and
all others stay as they are, exactly if what is missing fits there.  A line without any argument has
the best choice put in. -/
theorem completed_iff_fits (context : Context) (capacity : Int) (events : List Event) (a : Action)
    (draft : Session) (hdraft : ((start context capacity).follow events).draft? a = some draft)
    (hok : (((start context capacity).follow events).perform a).answer.isOk)
    (hchanged : let s := (((start context capacity).follow events).perform a).session
      (s.perform .accept).session.text ≠ s.text) :
    let s := (((start context capacity).follow events).perform a).session
    let t := (s.perform .accept).session
    ∃ argument suggestion best typed missing closing,
      s.currentArgument.answer = .ok (argument, suggestion) ∧
      suggestion.best = some best ∧ best = typed ++ missing ∧
      argument.drop suggestion.skip = typed ++ closing ∧
      closing = (if Text.endsIn '"' (argument.drop suggestion.skip) then ['"'] else []) ∧
      (s.text = [] → argument = [] ∧ t.text = best) ∧
      (s.text ≠ [] → s.Holds s.analysis.current argument suggestion ∧
        ((t.count = s.count ∧ t.analysis.current = s.analysis.current ∧
          t.arguments = s.arguments.set s.analysis.current
            (argument.take suggestion.skip ++ best ++ closing)) ↔
          Line.FitsBehind (argument.take suggestion.skip ++ typed) missing
            (s.analysis.current + 1 = s.count))) := by
  intro s t
  have hs : InStep s := (inStep_follow context capacity events).perform a
  have ht : InStep t := hs.perform .accept
  have hlength : s.analysis.table.length = s.count := length_table_of_perform hdraft hok
  -- On an empty line there is no argument to complete, and what is put in is the whole text.
  by_cases hne : s.text = []
  · obtain ⟨suggestion, completion, hoffered, hcompletion, htext⟩ :=
      text_of_accept_nil hs hne hchanged
    obtain ⟨hparts, hbest, -⟩ := parts_of_completion hcompletion
    refine ⟨[], suggestion, _, _, completion.missing, completion.closing, hoffered, hbest, rfl,
      hparts, ?_, ?_, fun h => absurd hne h⟩
    · rw [Completion.closing, closed_of_completion hcompletion]
    · intro _
      refine ⟨rfl, ?_⟩
      rw [List.drop_nil]
      exact htext
  · obtain ⟨argument, suggestion, completion, hoffered, hcompletion, hput⟩ :=
      putIn_of_accept hs hne hchanged
    have hcurrent : s.analysis.current < s.analysis.table.length := by
      rw [hlength]
      exact hs.current_lt hne
    -- The argument that is completed is the one that is held in place.
    obtain ⟨argument', suggestion', hholds⟩ := exists_holds hs hne hcurrent
    rw [currentArgument_of_holds hholds] at hoffered
    cases hoffered
    obtain ⟨hparts, hbest, -⟩ := parts_of_completion hcompletion
    -- What stands in front of the closing quote: what is passed over, and what is typed.
    have hlead : argument =
        argument.take suggestion.skip ++ Target.unclosed (argument.drop suggestion.skip) ++
          completion.closing := by
      rw [List.append_assoc, ← hparts, List.take_append_drop]
    refine ⟨argument, suggestion, _, _, completion.missing, completion.closing,
      by rw [currentArgument_of_holds hholds], hbest, rfl, hparts, ?_, fun h => absurd h hne,
      fun _ => ⟨hholds, ?_⟩⟩
    · rw [Completion.closing, closed_of_completion hcompletion]
    · rw [← arguments_of_putIn hs hne ht hholds hput hlead]
      simp only [List.append_assoc]

/-- Between double quotes a name with a space in it completes its argument. -/
theorem completed_iff_fits_sample :
    let a := Action.insert ['a', ' ', '"', '/', 'd', '/', 'x']
    let outcome := (start .spaced 80).perform a
    let s := outcome.session
    let t := (s.perform .accept).session
    (∃ draft, (start .spaced 80).draft? a = some draft) ∧ outcome.answer.isOk ∧
      t.text ≠ s.text ∧ t.count = s.count ∧
      t.arguments = [['a'], ['"', '/', 'd', '/', 'x', ' ', 'y']] := by
  intro a outcome s t
  have hchanged : t.text ≠ s.text := by decide
  obtain ⟨argument, suggestion, best, typed, missing, closing, hoffered, hbest, hmissing, htyped,
    hclosing, -, hcompleted⟩ := completed_iff_fits .spaced 80 [] a _ rfl rfl hchanged
  cases hoffered
  cases hbest
  cases hclosing
  have htyped' : typed = ['x'] := by
    rw [← List.append_nil typed]
    exact htyped.symm
  subst htyped'
  cases hmissing
  obtain ⟨-, hiff⟩ := hcompleted (by decide)
  have hfits := hiff.mpr (Line.fitsBehind_iff.mpr ⟨?_, ?_⟩)
  · exact ⟨⟨_, rfl⟩, rfl, hchanged, hfits.1, hfits.2.2⟩
  · -- The space in the name is quoted, and the double quote may stay open in the last argument.
    exact Line.whole_cons_iff.mpr ⟨fun _ => by decide, Line.whole_of_not_mem (by decide) _⟩
  · exact fun hnot => absurd rfl hnot

/-- A name with a space in it divides the argument that it is completed to, and one with a double
quote runs its argument together with the next. -/
theorem accept_divides :
    let first := (start .spaced 80).perform (.insert ['a', ' ', '/', 'd', '/', 'x'])
    let second := ((start .spaced 80).run [.insert ['a', ' ', '/', 'd', '/', 'q', ' ', 'b'],
      .move .left .word false]).perform (.move .left .word false)
    (first.answer = .ok none ∧ (first.session.perform .accept).answer = .ok (some true) ∧
      (∃ suggestion, suggestion.skip = 3 ∧ suggestion.best = some ['x', ' ', 'y'] ∧
        first.session.currentArgument.answer = .ok (['/', 'd', '/', 'x'], suggestion)) ∧
      first.session.arguments = [['a'], ['/', 'd', '/', 'x']] ∧
      (first.session.perform .accept).session.arguments = [['a'], ['/', 'd', '/', 'x'], ['y']]) ∧
    (second.answer = .ok none ∧ (second.session.perform .accept).answer = .ok (some true) ∧
      (∃ suggestion, suggestion.skip = 3 ∧ suggestion.best = some ['q', '"', 'r'] ∧
        second.session.currentArgument.answer = .ok (['/', 'd', '/', 'q'], suggestion)) ∧
      second.session.arguments = [['a'], ['/', 'd', '/', 'q'], ['b']] ∧
      (second.session.perform .accept).session.arguments =
        [['a'], ['/', 'd', '/', 'q', '"', 'r', ' ', 'b']]) :=
  ⟨⟨rfl, rfl, ⟨_, rfl, rfl, rfl⟩, rfl, rfl⟩, ⟨rfl, rfl, ⟨_, rfl, rfl, rfl⟩, rfl, rfl⟩⟩

end Session

end Typeahead
