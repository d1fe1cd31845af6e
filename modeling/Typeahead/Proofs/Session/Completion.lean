import Typeahead.Proofs.Line.Layout
import Typeahead.Proofs.Session.InStep

/-!
# Which argument is completed

Completing takes what is missing from one place and puts it in at another.  What is missing is that
of the current argument as far as there are suggestions: if an update failed and left fewer of them
than there are arguments, an argument behind them counts as the last that has one.  It is put in
where the current argument ends, suggestions or not.  Both are the same argument exactly if there is
a suggestion for the current one.

## Main definitions

* `Session.Holds` — an argument of a line with its suggestion.
* `Session.PutIn` — what is missing is put in at an argument.

## Main results

* `Session.putIn_of_accept` — what is missing is put in at the current argument.
* `Session.length_table_of_perform` — an action that does not fail leaves a suggestion for every
  argument.
* `Session.accept_holds_iff` — **the argument completed is the one that the completion was worked
  out for exactly if the current argument has a suggestion**, and then a choice made from a list is
  what it is completed to.
-/

namespace Typeahead

namespace Session

/-- A line has an argument of index `i` with this text and this suggestion. -/
def Holds (s : Session) (i : Nat) (argument : Text) (suggestion : Suggestion) : Prop :=
  ∃ span kind, s.analysis.spans[i]? = some span ∧
    s.analysis.table[i]? = some (kind, suggestion) ∧ argument = span.of s.text

/-- `s.PutIn i completion t` says that `t` is the line `s` with what is missing put in where the
argument of index `i` ends, before a double quote that closes it, and with the caret behind it. -/
def PutIn (s : Session) (i : Nat) (completion : Completion) (t : Session) : Prop :=
  ∃ span place, s.analysis.spans[i]? = some span ∧ place + completion.closed.toNat = span.stop ∧
    t.text = s.text.take place ++ completion.missing ++ s.text.drop place ∧
      t.caret = place + completion.missing.length

variable {s t : Session} {argument : Text} {suggestion : Suggestion} {completion : Completion}

/-! ### The current argument -/

/-- The current argument is the one at its index if there is a suggestion for it. -/
theorem currentArgument_of_holds (h : s.Holds s.analysis.current argument suggestion) :
    s.currentArgument = ⟨s, .ok (argument, suggestion)⟩ := by
  obtain ⟨span, kind, hspan, hentry, rfl⟩ := h
  have hpair : (s.analysis.spans.zip s.analysis.table)[s.analysis.current]? =
      some (span, kind, suggestion) := List.getElem?_zip_eq_some.mpr ⟨hspan, hentry⟩
  unfold currentArgument
  split
  next hnil => rw [hnil] at hpair; cases hpair
  next first rest hcons =>
    rw [hcons] at hpair
    have hlt := (List.getElem?_eq_some_iff.mp hpair).1
    have hmin : min s.analysis.current rest.length = s.analysis.current := by
      rw [List.length_cons] at hlt
      omega
    rw [hmin, hpair]
    rfl

/-- Without any suggestion the current argument is an empty one for a program. -/
theorem currentArgument_of_unpaired (h : s.analysis.spans.zip s.analysis.table = []) :
    s.currentArgument.answer =
      s.context.programs.2.map fun names => ([], Suggestion.forProgram names [] none) := by
  unfold currentArgument
  rw [h, s.context.programs_eq]
  cases s.context.programs.2 <;> rfl

theorem argument_eq_nil (h : s.analysis.spans.zip s.analysis.table = [])
    (hoffered : s.currentArgument.answer = .ok (argument, suggestion)) : argument = [] := by
  rw [currentArgument_of_unpaired h] at hoffered
  cases hnames : s.context.programs.2 with
  | error fault => rw [hnames] at hoffered; cases hoffered
  | ok names => rw [hnames] at hoffered; cases hoffered; rfl

/-- A line that is not empty has its current argument. -/
theorem InStep.current_lt (h : InStep s) (hne : s.text ≠ []) :
    s.analysis.current < s.analysis.spans.length := by
  rw [h.current, h.spans]
  exact Line.indexAt_lt hne s.caret

theorem InStep.currentIndex?_eq (h : InStep s) (hne : s.text ≠ []) :
    s.currentIndex? = some s.analysis.current := by
  have hlt := h.current_lt hne
  unfold currentIndex? count
  split
  next hzero => omega
  next n hcount => rw [Nat.min_eq_left (by omega)]

/-- In a line that is not empty choosing sets what fits the current argument best by hand and then
completes it. -/
theorem InStep.choose_eq (h : InStep s) (hne : s.text ≠ []) (choice : Text) :
    s.choose choice = (s.setBest s.analysis.current (some choice)).accept := by
  simp only [choose, h.currentIndex?_eq hne]

/-- Only the first argument can end at the start of the line. -/
theorem InStep.eq_zero_of_stop {i : Nat} {span : Span} (h : InStep s)
    (hspan : s.analysis.spans[i]? = some span) (hstop : span.stop = 0) : i = 0 := by
  rw [h.spans] at hspan
  rcases Nat.eq_zero_or_pos i with hzero | hpos
  · exact hzero
  · have hlt := (List.getElem?_eq_some_iff.mp hspan).1
    have hfirst : (Line.spans s.text)[0]? = some (Line.spans s.text)[0] :=
      List.getElem?_eq_getElem (by omega)
    have := Line.stop_lt_stop hfirst hspan hpos
    omega

theorem closed_of_completion (h : completion? argument suggestion = some completion) :
    completion.closed = Text.endsIn '"' (argument.drop suggestion.skip) := by
  unfold completion? at h
  split at h
  · cases h
  · simp only [Option.ite_none_left_eq_some, Option.some.injEq] at h
    obtain ⟨-, -, -, rfl⟩ := h
    rfl

/-- An argument that a double quote closes is not empty. -/
theorem ne_nil_of_closed (h : completion? argument suggestion = some completion)
    (hclosed : completion.closed = true) : argument ≠ [] := by
  rintro rfl
  rw [closed_of_completion h, List.drop_nil] at hclosed
  cases hclosed

/-! ### Where what is missing is put in -/

/-- At no two arguments the same can be put in with the same outcome. -/
theorem PutIn.index_eq {i j : Nat} (h : InStep s) (hi : s.PutIn i completion t)
    (hj : s.PutIn j completion t) : i = j := by
  obtain ⟨span, place, hspan, hstop, -, hcaret⟩ := hi
  obtain ⟨other, place', hother, hstop', -, hcaret'⟩ := hj
  rw [h.spans] at hspan hother
  exact Line.eq_of_stop_eq hspan hother (by omega)

/-- A completion that changes the text puts in what is missing at its place. -/
theorem text_of_completed (hdraft : s.completed? = some t) (hchanged : t.text ≠ s.text) :
    ∃ argument suggestion completion, s.currentArgument.answer = .ok (argument, suggestion) ∧
      completion? argument suggestion = some completion ∧
      let place := s.clamp (s.completionPlace completion.closed)
      t.text = s.text.take place ++ completion.missing ++ s.text.drop place ∧
        t.caret = place + completion.missing.length := by
  unfold completed? at hdraft
  split at hdraft
  · cases hdraft
  next argument suggestion hoffered =>
    obtain ⟨completion, hcompletion, rfl⟩ := Option.map_eq_some_iff.mp hdraft
    refine ⟨argument, suggestion, completion, hoffered, hcompletion, ?_⟩
    -- Asking for the argument changes neither the place nor the text.
    have hspared := s.spared_currentArgument
    have hplace : s.currentArgument.session.completionPlace completion.closed =
        s.completionPlace completion.closed := by
      simp only [completionPlace, currentIndex?, count, hspared.spans, hspared.current]
    have htext : s.currentArgument.session.text = s.text := hspared.text
    dsimp only at hchanged ⊢
    rw [hplace] at hchanged ⊢
    unfold insertAll at hchanged ⊢
    split
    -- Without room for it nothing would have changed.
    next hfull =>
      rw [if_pos hfull] at hchanged
      exact absurd htext hchanged
    next => simp only [splice, place, deselect, clamp, htext, and_self]

/-- There is room for the double quote that closes what is completed where the current argument
ends. -/
theorem closed_le_stop {span : Span} (h : InStep s)
    (hspan : s.analysis.spans[s.analysis.current]? = some span)
    (hoffered : s.currentArgument.answer = .ok (argument, suggestion))
    (hcompletion : completion? argument suggestion = some completion) :
    completion.closed.toNat ≤ span.stop := by
  cases hquote : completion.closed with
  | false => exact Nat.zero_le _
  | true =>
    rcases Nat.eq_zero_or_pos span.stop with hzero | hpos
    · -- Only the first argument can end at the start of the line, and it is empty then.
      refine absurd ?_ (ne_nil_of_closed hcompletion hquote)
      have hfirst : s.analysis.current = 0 := h.eq_zero_of_stop hspan hzero
      cases htable : s.analysis.table with
      | nil => exact argument_eq_nil (by rw [htable, List.zip_nil_right]) hoffered
      | cons entry rest =>
        have hentry : s.analysis.table[s.analysis.current]? = some (entry.1, entry.2) := by
          rw [hfirst, htable]
          rfl
        rw [currentArgument_of_holds ⟨span, entry.1, hspan, hentry, rfl⟩] at hoffered
        cases hoffered
        simp only [Span.of, Text.between, hzero, List.take_zero, List.drop_nil]
    · exact hpos

/-- What is missing is put in where the current argument ends, in every line whose analysis is
in step with it. -/
theorem putIn_of_completed (h : InStep s) (hne : s.text ≠ []) (hdraft : s.completed? = some t)
    (hchanged : t.text ≠ s.text) :
    ∃ argument suggestion completion, s.currentArgument.answer = .ok (argument, suggestion) ∧
      completion? argument suggestion = some completion ∧
        s.PutIn s.analysis.current completion t := by
  obtain ⟨argument, suggestion, completion, hoffered, hcompletion, htext, hcaret⟩ :=
    text_of_completed hdraft hchanged
  refine ⟨argument, suggestion, completion, hoffered, hcompletion, ?_⟩
  have hlt := h.current_lt hne
  obtain ⟨span, hspan⟩ : ∃ span, s.analysis.spans[s.analysis.current]? = some span :=
    ⟨_, List.getElem?_eq_getElem hlt⟩
  have hstop : span.stop ≤ s.text.length := by
    have hmem := List.mem_of_getElem? hspan
    rw [h.spans] at hmem
    exact Line.stop_le hmem
  have hclosed := closed_le_stop h hspan hoffered hcompletion
  -- The place is the end of the span, or one less where a quote closes it.
  have hquote : (if completion.closed then 1 else 0 : Int) = completion.closed.toNat := by
    cases completion.closed <;> rfl
  have hplace : s.clamp (s.completionPlace completion.closed) =
      span.stop - completion.closed.toNat := by
    simp only [completionPlace, h.currentIndex?_eq hne, Option.bind_some, hspan, clamp, hquote]
    omega
  rw [hplace] at htext hcaret
  exact ⟨span, _, hspan, by omega, htext, hcaret⟩

theorem PutIn.of_spared {u : Session} {i : Nat} (hspared : Spared s u)
    (h : u.PutIn i completion t) : s.PutIn i completion t := by
  obtain ⟨span, place, hspan, hstop, htext, hcaret⟩ := h
  rw [hspared.spans] at hspan
  rw [hspared.text] at htext
  exact ⟨span, place, hspan, hstop, htext, hcaret⟩

/-! ### Setting by hand what fits best -/

theorem holds_setBest {i : Nat} {best : Option Text} (h : s.Holds i argument suggestion) :
    (s.setBest i best).Holds i argument { suggestion with best } := by
  obtain ⟨span, kind, hspan, hentry, hargument⟩ := h
  have hlt := (List.getElem?_eq_some_iff.mp hentry).1
  have hset : s.setBest i best =
      { s with analysis := { s.analysis with table := s.analysis.table.setBest i best } } := by
    unfold setBest
    rw [if_pos (by simp [hlt]), Int.toNat_natCast]
  rw [hset]
  refine ⟨span, kind, hspan, ?_, hargument⟩
  simp only [Table.setBest, List.getElem?_modify, hentry, if_true, Option.map_eq_map,
    Option.map_some]

/-- To choose from a list is to complete, as ever, the line in which the choice is what fits the
current argument best. -/
theorem InStep.exists_chosen (h : InStep s) (hne : s.text ≠ [])
    (hholds : s.Holds s.analysis.current argument suggestion) (choice : Text) :
    ∃ u, Spared s u ∧ u.Holds u.analysis.current argument { suggestion with best := some choice } ∧
      s.draft? (.choose choice) = u.completed? ∧ s.perform (.choose choice) = told u.accept := by
  have hspared := s.spared_setBest s.analysis.current (some choice)
  refine ⟨s.setBest s.analysis.current (some choice), hspared, ?_, ?_, ?_⟩
  · rw [hspared.current]
    exact holds_setBest hholds
  · simp only [draft?, h.currentIndex?_eq hne]
  · rw [perform, h.choose_eq hne]

/-- What is set by hand where there is no suggestion is lost. -/
theorem currentArgument_setBest {i : Nat} {best : Option Text} (h : s.analysis.table.length ≤ i) :
    (s.setBest i best).currentArgument.answer = s.currentArgument.answer := by
  have hset : s.setBest i best = s.noteLine := by
    unfold setBest
    rw [if_neg (by simp; omega)]
  rw [hset]
  cases hpairs : s.analysis.spans.zip s.analysis.table with
  | nil =>
    rw [currentArgument_of_unpaired hpairs, currentArgument_of_unpaired (s := s.noteLine) hpairs]
    rfl
  | cons first rest =>
    unfold currentArgument
    rw [show s.noteLine.analysis = s.analysis from rfl, hpairs]
    rfl

/-! ### Where there are suggestions -/

theorem length_items (s : Session) : s.items.length = s.update.session.count := by
  simp only [items, List.length_zip, Reading.length_ofArguments, Nat.min_self, count,
    update_session, analysisWith, Line.arguments, List.length_map]

/-- **After an action that came to an update and did not fail every argument has a suggestion**, so
that completing is safe. -/
theorem length_table_of_perform {a : Action} (hdraft : s.draft? a = some t)
    (hok : (s.perform a).answer.isOk) :
    (s.perform a).session.analysis.table.length = (s.perform a).session.count := by
  have hfollows := perform_of_draft hdraft
  have hfault := update_answer_eq_ok_iff.mp (hfollows.update_of_isOk hok)
  rw [hfollows.1, ← length_items]
  exact Table.length_refresh hfault

/-! ### Completing -/

/-- A completion that changes the text has a draft that does. -/
theorem completed_of_accept (hchanged : s.accept.session.text ≠ s.text) :
    ∃ t, s.completed? = some t ∧ s.accept.session = t.update.session := by
  rw [accept_eq] at hchanged ⊢
  cases hdraft : s.completed? with
  | none =>
    rw [hdraft] at hchanged
    exact absurd s.spared_currentArgument.text hchanged
  | some t => exact ⟨t, rfl, rfl⟩

/-- **What a completion is worked out for and where it goes.**  If completing changes the text,
what is missing is put in at the current argument, and it is what is missing of the argument asked
for. -/
theorem putIn_of_accept (h : InStep s) (hne : s.text ≠ [])
    (hchanged : s.accept.session.text ≠ s.text) :
    ∃ argument suggestion completion, s.currentArgument.answer = .ok (argument, suggestion) ∧
      completion? argument suggestion = some completion ∧
        s.PutIn s.analysis.current completion s.accept.session := by
  obtain ⟨t, hdraft, hsession⟩ := completed_of_accept hchanged
  rw [hsession] at hchanged ⊢
  -- The update changes neither the text nor the caret.
  have hput := putIn_of_completed (t := t) h hne hdraft hchanged
  exact hput

/-- A line that is not empty has its current argument with a suggestion if there are enough. -/
theorem exists_holds (h : InStep s) (hne : s.text ≠ [])
    (hlt : s.analysis.current < s.analysis.table.length) :
    ∃ argument suggestion, s.Holds s.analysis.current argument suggestion :=
  ⟨_, _, _, _, List.getElem?_eq_getElem (h.current_lt hne), List.getElem?_eq_getElem hlt, rfl⟩

/-- An action that came to an update leaves the analysis in step with the line. -/
theorem inStep_of_draft {a : Action} (hdraft : s.draft? a = some t) :
    InStep (s.perform a).session := by
  rw [(perform_of_draft hdraft).1]
  exact .update t

/-- After an action that came to an update and did not fail the current argument has a suggestion,
unless the line is empty. -/
theorem exists_holds_of_perform {a : Action} (hdraft : s.draft? a = some t)
    (hok : (s.perform a).answer.isOk) (hne : (s.perform a).session.text ≠ []) :
    ∃ argument suggestion,
      (s.perform a).session.Holds (s.perform a).session.analysis.current argument suggestion := by
  have hstep := inStep_of_draft hdraft
  refine exists_holds hstep hne ?_
  rw [length_table_of_perform hdraft hok]
  exact hstep.current_lt hne

/-- What is put in at the current argument was worked out for an argument that ends there exactly if
the current argument has a suggestion. -/
theorem holds_iff_of_putIn (h : InStep s) (hne : s.text ≠ [])
    (hoffered : s.currentArgument.answer = .ok (argument, suggestion))
    (hput : s.PutIn s.analysis.current completion t) :
    (∃ i, s.Holds i argument suggestion ∧ s.PutIn i completion t) ↔
      s.analysis.current < s.analysis.table.length := by
  constructor
  · -- Only the current argument ends where something was put in.
    rintro ⟨i, ⟨_, _, -, hentry, -⟩, hi⟩
    rw [hput.index_eq h hi]
    exact (List.getElem?_eq_some_iff.mp hentry).1
  · intro hlt
    obtain ⟨argument', suggestion', hcurrent⟩ := exists_holds h hne hlt
    rw [currentArgument_of_holds hcurrent] at hoffered
    cases hoffered
    exact ⟨_, hcurrent, hput⟩

/-- A choice made from a list is what the current argument is completed to if it has a suggestion,
and is passed over if not. -/
theorem putIn_of_choose {choice : Text} (h : InStep s) (hne : s.text ≠ [])
    (hchanged : (s.perform (.choose choice)).session.text ≠ s.text) :
    ∃ argument suggestion completion, completion? argument suggestion = some completion ∧
      s.PutIn s.analysis.current completion (s.perform (.choose choice)).session ∧
      (s.analysis.current < s.analysis.table.length →
        ∃ before, s.Holds s.analysis.current argument before ∧
          suggestion = { before with best := some choice }) ∧
      (s.analysis.table.length ≤ s.analysis.current →
        s.currentArgument.answer = .ok (argument, suggestion)) := by
  have hspared := s.spared_setBest s.analysis.current (some choice)
  -- Setting the choice spares the line, so that completing it then is as above.
  rw [perform, h.choose_eq hne] at hchanged ⊢
  rw [← hspared.text] at hchanged
  obtain ⟨argument, suggestion, completion, hoffered, hcompletion, hput⟩ :=
    putIn_of_accept (h.of_spared hspared) (hspared.text ▸ hne) hchanged
  rw [hspared.current] at hput
  refine ⟨argument, suggestion, completion, hcompletion, hput.of_spared hspared, ?_, ?_⟩
  · intro hlt
    obtain ⟨argument', before, hcurrent⟩ := exists_holds h hne hlt
    have hset : (s.setBest s.analysis.current (some choice)).Holds
        (s.setBest s.analysis.current (some choice)).analysis.current argument'
          { before with best := some choice } := by
      rw [hspared.current]
      exact holds_setBest hcurrent
    rw [currentArgument_of_holds hset] at hoffered
    cases hoffered
    exact ⟨before, hcurrent, rfl⟩
  · intro hle
    rw [currentArgument_setBest hle] at hoffered
    exact hoffered

/-- **The argument completed is the one that the completion was worked out for exactly if the
current argument has a suggestion.**  After any events let completing change the text of a line that
is not empty.  What is missing is always put in at the current argument.  It is what is missing of
that argument exactly if it has a suggestion; and then a choice made from a list is what it is
completed to.  Otherwise it is missing of another argument, and a choice from a list is passed
over. -/
theorem accept_holds_iff (context : Context) (capacity : Int) (events : List Event)
    (h : ((start context capacity).follow events).text ≠ []) :
    let s := (start context capacity).follow events
    ((s.perform .accept).session.text ≠ s.text →
      ∃ argument suggestion completion, s.currentArgument.answer = .ok (argument, suggestion) ∧
        completion? argument suggestion = some completion ∧
        s.PutIn s.analysis.current completion (s.perform .accept).session ∧
        ((∃ i, s.Holds i argument suggestion ∧
          s.PutIn i completion (s.perform .accept).session) ↔
            s.analysis.current < s.analysis.table.length)) ∧
    ∀ choice, (s.perform (.choose choice)).session.text ≠ s.text →
      ∃ argument suggestion completion, completion? argument suggestion = some completion ∧
        s.PutIn s.analysis.current completion (s.perform (.choose choice)).session ∧
        (s.analysis.current < s.analysis.table.length →
          ∃ before, s.Holds s.analysis.current argument before ∧
            suggestion = { before with best := some choice }) ∧
        (s.analysis.table.length ≤ s.analysis.current →
          s.currentArgument.answer = .ok (argument, suggestion)) := by
  intro s
  have hstep : InStep s := inStep_follow context capacity events
  constructor
  -- The first action completes what is offered, the second what it has put in place of it.
  · intro hchanged
    obtain ⟨argument, suggestion, completion, hoffered, hcompletion, hput⟩ :=
      putIn_of_accept hstep h hchanged
    exact ⟨argument, suggestion, completion, hoffered, hcompletion, hput,
      holds_iff_of_putIn hstep h hoffered hput⟩
  · intro choice hchanged
    exact putIn_of_choose hstep h hchanged

/-- A program is completed in its own place. -/
theorem accept_holds_iff_sample :
    let s := (start .sample 80).follow [.act (.insert ['l'])]
    s.text ≠ [] ∧ (s.perform .accept).session.text = ['l', 's'] ∧
      ∃ argument suggestion completion, s.currentArgument.answer = .ok (argument, suggestion) ∧
        ∃ i, s.Holds i argument suggestion ∧ s.PutIn i completion (s.perform .accept).session := by
  intro s
  have hne : s.text ≠ [] := by decide
  obtain ⟨argument, suggestion, completion, hoffered, -, -, hiff⟩ :=
    (accept_holds_iff .sample 80 [.act (.insert ['l'])] hne).1 (by decide)
  exact ⟨hne, rfl, argument, suggestion, completion, hoffered, hiff.mpr (by decide)⟩

/-- Behind a refused argument the completion of the program before it is put in, whatever was chosen
from the list. -/
theorem accept_elsewhere :
    let s := (start .sample 80).follow
      [.act (.insert ['l']), .act (.insert [' ', '/', 'p', '/', 'q', '/'])]
    s.analysis.spans = [⟨0, 1⟩, ⟨2, 7⟩] ∧
      (∃ suggestion, s.currentArgument.answer = .ok (['l'], suggestion)) ∧
        ∀ a ∈ [Action.accept, .choose ['z']],
          (s.perform a).session.text = ['l', ' ', '/', 'p', '/', 'q', '/', 's'] := by
  refine ⟨rfl, ⟨_, rfl⟩, ?_⟩
  intro a ha
  simp only [List.mem_cons, List.not_mem_nil, or_false] at ha
  rcases ha with rfl | rfl <;> rfl

end Session

end Typeahead
