import Typeahead.Proofs.Session.Passing

/-!
# Where a completion goes

To complete an argument one text is put in where the argument ends, before a double quote that
closes it.  What is put in is worked out from what was typed, where it goes from the span, and what
is passed over from where the argument points.  These go together: behind what is passed over stands
what was typed and then what is put in, and that is the whole of what the argument is completed to.

## Main definitions

* `Action.aim?` — what an action completes an argument to.
* `Session.Completes` — a line with one of its arguments completed.

## Main results

* `Session.completes_of_accept` — completing puts in what is missing of what fits best.
* `Session.completes_perform` — **an argument is completed by one text at its end**, whether to what
  fits best or to a choice made from a list.
-/

namespace Typeahead

/-- What an action completes an argument with this suggestion to: what fits best, or a choice. -/
def Action.aim? (suggestion : Suggestion) : Action → Option Text
  | .accept => suggestion.best
  | .choose choice => some choice
  | _ => none

namespace Text

/-- What a part of a text starts with behind `skip` characters is what stands there in the text. -/
theorem drop_take_of_between {t typed closing : Text} {start stop skip : Nat}
    (h : (t.between start stop).drop skip = typed ++ closing) :
    (t.take (start + skip + typed.length)).drop (start + skip) = typed := by
  rw [between, List.drop_drop, List.drop_take] at h
  have hle : typed.length ≤ stop - (start + skip) := by
    have hlength := congrArg List.length h
    rw [List.length_take, List.length_append] at hlength
    omega
  rw [List.drop_take, Nat.add_sub_cancel_left, ← Nat.min_eq_left hle, ← List.take_take, h,
    List.take_left]

end Text

namespace Session

/-- `s.Completes span skip best t` says that `t` is the line `s` with the argument of a span
completed to `best`, where `skip` characters of the argument are passed over. -/
structure Completes (s : Session) (span : Span) (skip : Nat) (best : Text) (t : Session) :
    Prop where
  /-- One text was put in where the argument ends, before a double quote that closes it.  What
  stands before that place and what stands behind it is as it was. -/
  spliced : ∃ place inserted,
    place + (if Text.endsIn '"' ((span.of s.text).drop skip) then 1 else 0) = span.stop ∧
      t.text = s.text.take place ++ inserted ++ s.text.drop place
  /-- Behind what is passed over stands the whole of what the argument is completed to. -/
  whole : best <+: t.text.drop (span.start + skip)
  /-- The caret stands right behind that. -/
  caret : t.caret = span.start + skip + best.length
  /-- Nothing is selected. -/
  deselected : t.anchor.active = false

variable {s t : Session} {span : Span} {suggestion : Suggestion} {completion : Completion}
  {best : Text}

/-- Only the text of the line before matters. -/
theorem Completes.congr {u : Session} {skip : Nat} (htext : u.text = s.text)
    (h : u.Completes span skip best t) : s.Completes span skip best t := by
  obtain ⟨hspliced, hwhole, hcaret, hdeselected⟩ := h
  rw [htext] at hspliced
  exact ⟨hspliced, hwhole, hcaret, hdeselected⟩

theorem deselected_of_completed (h : s.completed? = some t) : t.anchor.active = false := by
  unfold completed? at h
  split at h
  · cases h
  · obtain ⟨completion, -, rfl⟩ := Option.map_eq_some_iff.mp h
    simp only [insertAll]
    split <;> rfl

/-- **What is missing goes with what is passed over and with what was typed**: put in at the
argument that it was worked out for, it completes the argument to what fits it best. -/
theorem completes_of_putIn {i : Nat} (h : InStep s) (hspan : s.analysis.spans[i]? = some span)
    (hskip : suggestion.skip ≤ (span.of s.text).length)
    (hcompletion : completion? (span.of s.text) suggestion = some completion)
    (hbest : suggestion.best = some best) (hput : s.PutIn i completion t)
    (hdeselected : t.anchor.active = false) : s.Completes span suggestion.skip best t := by
  obtain ⟨hparts, hmissing, -⟩ := parts_of_completion hcompletion
  rw [hbest, Option.some.injEq] at hmissing
  obtain ⟨span', place, hspan', hstop, htext, hcaret⟩ := hput
  rw [hspan, Option.some.injEq] at hspan'
  subst hspan'
  rw [h.spans] at hspan
  -- What is missing is put in right behind what was typed.
  have hplace : place = span.start + suggestion.skip +
      (Target.unclosed ((span.of s.text).drop suggestion.skip)).length := by
    have hspanned := Line.start_add_length hspan
    have hlength := congrArg List.length hparts
    rw [List.length_drop, List.length_append, completion.length_closing] at hlength
    omega
  have htyped := Text.drop_take_of_between hparts
  rw [← hplace] at htyped
  have hline : place ≤ s.text.length := by
    have := Line.stop_le (List.mem_of_getElem? hspan)
    omega
  refine ⟨⟨place, completion.missing, ?_, htext⟩, ?_, ?_, hdeselected⟩
  · rw [← closed_of_completion hcompletion, ← hstop]
    cases completion.closed <;> rfl
  · have hle : span.start + suggestion.skip ≤ (s.text.take place).length := by
      rw [List.length_take_of_le hline]
      omega
    rw [htext, List.append_assoc, List.drop_append_of_le_length hle, htyped, hmissing,
      ← List.append_assoc]
    exact List.prefix_append _ _
  · rw [hcaret, hplace, hmissing, List.length_append, Nat.add_assoc]

/-- **Completing puts in what is missing of what fits best**, if it changes the text. -/
theorem completes_of_accept (h : InStep s) (hne : s.text ≠ [])
    (hspan : s.analysis.spans[s.analysis.current]? = some span)
    (hholds : s.Holds s.analysis.current (span.of s.text) suggestion)
    (hskip : suggestion.skip ≤ (span.of s.text).length) (hbest : suggestion.best = some best)
    (hchanged : s.accept.session.text ≠ s.text) :
    s.Completes span suggestion.skip best s.accept.session := by
  obtain ⟨argument, suggestion', completion, hoffered, hcompletion, hput⟩ :=
    putIn_of_accept h hne hchanged
  rw [currentArgument_of_holds hholds] at hoffered
  cases hoffered
  obtain ⟨draft, hdraft, hsession⟩ := completed_of_accept hchanged
  refine completes_of_putIn h hspan hskip hcompletion hbest hput ?_
  rw [hsession]
  change draft.anchor.active = false
  exact deselected_of_completed hdraft

/-- **An argument is completed by one text at its end.**  After any operations let an action come to
an update that goes well and leave a line that is not empty.  Its current argument has a suggestion.
If the argument is then completed, to what fits it best or to a choice made from a list, and the
text changes, then one text was put in where the argument ends, before a double quote that closes
it; behind what is passed over stands the whole of what the argument is completed to, the caret is
right behind that, and nothing is selected. -/
theorem completes_perform (context : Context) (capacity : Int) (operations : List Operation)
    (a : Action) (draft : Session)
    (hdraft : ((start context capacity).operateAll operations).draft? a = some draft)
    (hok : (((start context capacity).operateAll operations).perform a).answer.isOk)
    (hne : (((start context capacity).operateAll operations).perform a).session.text ≠ []) :
    let s := (((start context capacity).operateAll operations).perform a).session
    ∃ span kind suggestion,
      s.analysis.spans[s.analysis.current]? = some span ∧
      s.analysis.table[s.analysis.current]? = some (kind, suggestion) ∧
      s.currentArgument.answer = .ok (span.of s.text, suggestion) ∧
      ∀ (b : Action) (best : Text), b.aim? suggestion = some best →
        (s.perform b).session.text ≠ s.text →
          s.Completes span suggestion.skip best (s.perform b).session := by
  intro s
  obtain ⟨hsession, -⟩ := perform_of_draft hdraft
  have hupdate := (perform_of_draft hdraft).update_of_isOk hok
  have hs : InStep s := inStep_of_draft hdraft
  obtain ⟨argument, suggestion, hholds⟩ := exists_holds_of_perform hdraft hok hne
  obtain ⟨span, kind, hspan, hentry, rfl⟩ := id hholds
  -- Nothing is passed over but a part of the argument.
  have hskip : suggestion.skip ≤ (span.of s.text).length := by
    have hplain := plain_of_drafted (plain_operateAll context capacity operations)
      (.of_draft (.of_draft hdraft))
    have hholds' := hholds
    rw [hsession] at hholds'
    rw [show s = draft.update.session from hsession]
    exact skip_le_of_holds hplain hupdate hholds'
  refine ⟨span, kind, suggestion, hspan, hentry, by rw [currentArgument_of_holds hholds], ?_⟩
  intro b best haim hchanged
  -- Only two actions aim at something, and the second completes to what it has set.
  cases b with
  | accept => exact completes_of_accept hs hne hspan hholds hskip haim hchanged
  | choose choice =>
    obtain rfl : choice = best := Option.some.inj haim
    obtain ⟨u, hspared, hset, -, hperform⟩ := hs.exists_chosen hne hholds choice
    rw [hperform] at hchanged ⊢
    change u.accept.session.text ≠ s.text at hchanged
    rw [← hspared.text] at hne hset hskip hchanged
    rw [← hspared.spans, ← hspared.current] at hspan
    have hcompletes := completes_of_accept (hs.of_spared hspared) hne hspan hset hskip rfl hchanged
    exact hcompletes.congr hspared.text
  | _ => cases haim

/-- A name between double quotes is completed before the quote that closes it, and what is passed
over is the quote that opens it with the directory. -/
theorem completes_perform_sample :
    let a := Action.insert ['a', ' ', '"', '/', 'd', '/', '"']
    let outcome := (start .sample 80).perform a
    let s := outcome.session
    (∃ draft, (start .sample 80).draft? a = some draft) ∧ outcome.answer.isOk ∧ s.text ≠ [] ∧
      (s.perform .accept).session.text ≠ s.text ∧
      s.Completes ⟨2, 7⟩ 4 ['x'] (s.perform .accept).session := by
  intro a outcome s
  have hdraft : ∃ draft, (start .sample 80).draft? a = some draft := ⟨_, rfl⟩
  have hok : outcome.answer.isOk := by decide +kernel
  have hne : s.text ≠ [] := by decide +kernel
  have hchanged : (s.perform .accept).session.text ≠ s.text := by decide +kernel
  have hspan' : s.analysis.spans[s.analysis.current]? = some ⟨2, 7⟩ := by decide +kernel
  have hentry' : (s.analysis.table[s.analysis.current]?).map
      (fun entry => (entry.2.skip, entry.2.best)) = some (4, some ['x']) := by decide +kernel
  obtain ⟨draft, hdraft'⟩ := hdraft
  obtain ⟨span, kind, suggestion, hspan, hentry, -, hcompletes⟩ :=
    completes_perform .sample 80 [] a draft hdraft' hok hne
  obtain rfl : span = ⟨2, 7⟩ := Option.some.inj (hspan.symm.trans hspan')
  have hfound : s.analysis.table[s.analysis.current]? = some (kind, suggestion) := hentry
  rw [hfound] at hentry'
  obtain ⟨hskip, hbest⟩ := Prod.mk.inj (Option.some.inj hentry')
  rw [← hskip]
  exact ⟨⟨draft, hdraft'⟩, hok, hne, hchanged, hcompletes .accept ['x'] hbest hchanged⟩

end Session

end Typeahead
