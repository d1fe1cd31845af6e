import Typeahead.Proofs.Session.Answer

/-!
# A choice made from a list

To complete an argument with a choice made from a list, the choice is set as what fits best and then
the argument is completed as ever.  Completing as ever leaves out what is only shown as long as
nothing is typed, and looks no further than to whether what fits best is the same text.  So a choice
that goes on what was typed is put in, and the answer is yes, unless nothing was typed and the
choice happens to be what is shown.

## Main definitions

* `Session.completionTo` — what completes an argument to a choice.
* `Session.Accepts`, `Session.Refuses` — a choice is put in, or nothing is done.
* `Context.moving` — a small context with a grammar that shows the name of a directory.

## Main results

* `Session.completion?_choice` — what a choice is completed by, if by anything.
* `Session.choice_accepted_iff` — **a choice from the list is accepted exactly if it is not what is
  shown while nothing is typed.**
-/

namespace Typeahead

/-! ### A directory called like what is shown -/

/-- A grammar with two slots for paths. -/
def Grammar.moving : Grammar where
  name := ['m', 'v']
  substitute := ['m', 'o', 'v', 'e']
  hooks := ⟨none, none⟩
  slots := [⟨.path, ['s', 'r', 'c'], 1⟩, ⟨.path, ['d', 's', 't'], 2⟩]
  flags := []
  valueFlags := []

/-- A world with a directory that is called like what is shown for a slot. -/
def World.moving : World :=
  { World.sample with
    files := ⟨[([['d']], .directory .free), ([['s', 'r', 'c'], ['d']], .directory .free)]⟩ }

/-- That world seen from where that directory is, with that grammar. -/
def Context.moving : Context :=
  { Context.sample with world := .moving, here := ⟨.single, [['d']]⟩, grammars := [.moving] }

namespace Session

variable {s t : Session} {argument choice : Text} {suggestion : Suggestion}
  {completion : Completion}

/-- What completes an argument to a choice that goes on what was typed. -/
def completionTo (argument : Text) (suggestion : Suggestion) (choice : Text) : Completion :=
  let tail := argument.drop suggestion.skip
  ⟨Text.endsIn '"' tail, choice.drop (Target.unclosed tail).length⟩

/-- A choice made from a list is accepted: what is missing of it is put in at the current argument,
and the answer is yes if the update that follows goes well. -/
def Accepts (s : Session) (completion : Completion) (choice : Text) : Prop :=
  s.PutIn s.analysis.current completion (s.perform (.choose choice)).session ∧
    ∃ draft, s.draft? (.choose choice) = some draft ∧
      (s.perform (.choose choice)).answer = draft.update.answer.map fun _ => some true

/-- A choice made from a list is refused: the line is as it was, and the answer is no. -/
def Refuses (s : Session) (choice : Text) : Prop :=
  (s.perform (.choose choice)).session.text = s.text ∧
    (s.perform (.choose choice)).answer = .ok (some false)

/-- What is refused is not accepted. -/
theorem Refuses.not_accepts (h : s.Refuses choice) : ¬ s.Accepts completion choice := by
  rintro ⟨-, draft, -, hyes⟩
  rw [h.2] at hyes
  cases hupdate : draft.update.answer with
  | error fault => rw [hupdate] at hyes; cases hyes
  | ok _ => rw [hupdate] at hyes; cases hyes

/-! ### What is missing of a choice -/

/-- **What a choice that goes on what was typed is completed by**: what is missing of it, or nothing
if it is what is shown and nothing was typed. -/
theorem completion?_choice (hstart : Target.unclosed (argument.drop suggestion.skip) <+: choice)
    (hlonger : (Target.unclosed (argument.drop suggestion.skip)).length < choice.length) :
    completion? argument { suggestion with best := some choice } =
      if Target.unclosed (argument.drop suggestion.skip) = [] ∧ suggestion.placeholder = some choice
        then none
        else some (completionTo argument suggestion choice) := by
  have hunfold : completion? argument { suggestion with best := some choice } =
      let typed := Target.unclosed (argument.drop suggestion.skip)
      if choice = [] then none
      else if typed = [] && some choice = suggestion.placeholder then none
      else if !typed.isPrefixOf choice || choice.length = typed.length then none
      else some (completionTo argument suggestion choice) := rfl
  have hne : choice ≠ [] := List.ne_nil_of_length_pos (by omega)
  have hprefix := List.isPrefixOf_iff_prefix.mpr hstart
  rw [hunfold]
  simp only [hne, hprefix, hlonger.ne', if_false, Bool.not_true, decide_false, Bool.or_false,
    Bool.and_eq_true, decide_eq_true_eq, Bool.false_eq_true, @eq_comm _ (some choice)]

/-! ### What becomes of it -/

/-- **What is missing is put in if there is room for it.** -/
theorem putIn_of_room (h : InStep s) (hne : s.text ≠ [])
    (hoffered : s.currentArgument.answer = .ok (argument, suggestion))
    (hcompletion : completion? argument suggestion = some completion)
    (hroom : (s.text.length + completion.missing.length : Int) ≤ s.capacity) :
    ∃ t, s.completed? = some t ∧ s.PutIn s.analysis.current completion t := by
  have hmissing : s.missing? = some completion.missing := by
    simp only [missing?, hoffered, hcompletion, Option.map_some]
  obtain ⟨t, hdraft⟩ : ∃ t, s.completed? = some t := by
    simp only [completed?, hoffered, hcompletion, Option.map_some, Option.some.injEq, exists_eq']
  obtain ⟨missing, hmissing', hiff⟩ := missing?_of_completed hdraft
  rw [hmissing, Option.some.injEq] at hmissing'
  subst hmissing'
  have hchanged : t.text ≠ s.text := hiff.mpr ⟨(parts_of_completion hcompletion).2.2, hroom⟩
  obtain ⟨argument', suggestion', completion', hoffered', hcompletion', hput⟩ :=
    putIn_of_completed h hne hdraft hchanged
  rw [hoffered] at hoffered'
  cases hoffered'
  rw [hcompletion] at hcompletion'
  cases hcompletion'
  exact ⟨t, hdraft, hput⟩

/-- Without anything that is missing nothing is done, and the answer is no. -/
theorem accept_of_no_completion (hoffered : s.currentArgument.answer = .ok (argument, suggestion))
    (hnone : completion? argument suggestion = none) :
    s.accept.session.text = s.text ∧ s.accept.answer = .ok false := by
  have hdraft : s.completed? = none := by
    simp only [completed?, hoffered, hnone, Option.map_none]
  refine ⟨(spared_accept hdraft).text, ?_⟩
  rw [accept_eq, hdraft, hoffered]
  rfl

/-- **What becomes of a choice that goes on what was typed** if there is room for it: it is
accepted, or refused if nothing was typed and it is what is shown. -/
theorem choice_of_holds (h : InStep s) (hne : s.text ≠ [])
    (hholds : s.Holds s.analysis.current argument suggestion)
    (hstart : Target.unclosed (argument.drop suggestion.skip) <+: choice)
    (hlonger : (Target.unclosed (argument.drop suggestion.skip)).length < choice.length)
    (hroom : (s.text.length + (completionTo argument suggestion choice).missing.length : Int) ≤
      s.capacity) :
    let shown := Target.unclosed (argument.drop suggestion.skip) = [] ∧
      suggestion.placeholder = some choice
    (¬ shown → s.Accepts (completionTo argument suggestion choice) choice) ∧
      (shown → s.Refuses choice) := by
  intro shown
  have hcompletion := completion?_choice hstart hlonger
  obtain ⟨u, hspared, hset, hdraft, hperform⟩ := h.exists_chosen hne hholds choice
  have hoffered : u.currentArgument.answer =
      .ok (argument, { suggestion with best := some choice }) := by
    rw [currentArgument_of_holds hset]
  unfold Accepts Refuses
  rw [hperform, hdraft]
  constructor
  · intro hnot
    rw [if_neg hnot] at hcompletion
    rw [← hspared.text, ← hspared.capacity] at hroom
    rw [← hspared.text] at hne
    obtain ⟨t, hcompleted, hput⟩ :=
      putIn_of_room (h.of_spared hspared) hne hoffered hcompletion hroom
    rw [hspared.current] at hput
    rw [accept_eq, hcompleted]
    -- The update changes neither the text nor the caret.
    refine ⟨hput.of_spared hspared, t, rfl, ?_⟩
    simp only [told, updateWith]
    cases t.update.answer <;> rfl
  · intro hshown
    rw [if_pos hshown] at hcompletion
    obtain ⟨htext, hno⟩ := accept_of_no_completion hoffered hcompletion
    refine ⟨htext.trans hspared.text, ?_⟩
    rw [told, hno]
    rfl

/-- **A choice from the list is accepted exactly if it is not what is shown while nothing is
typed.**  After any operations let an action come to an update that goes well and leave a line that
is not empty.  Take a choice that goes on what was typed of the current argument, a double quote
that closes it left out, and let there be room for what is missing.  It is put in and the answer is
yes, unless nothing was typed and the choice is what is shown then; in that case nothing is put in
and the answer is no. -/
theorem choice_accepted_iff (context : Context) (capacity : Int) (operations : List Operation)
    (a : Action) (draft : Session)
    (hdraft : ((start context capacity).operateAll operations).draft? a = some draft)
    (hok : (((start context capacity).operateAll operations).perform a).answer.isOk)
    (hne : (((start context capacity).operateAll operations).perform a).session.text ≠ []) :
    let s := (((start context capacity).operateAll operations).perform a).session
    ∃ argument suggestion, s.currentArgument.answer = .ok (argument, suggestion) ∧
      s.Holds s.analysis.current argument suggestion ∧
      let typed := Target.unclosed (argument.drop suggestion.skip)
      ∀ choice, typed <+: choice → typed.length < choice.length →
        (s.text.length + (choice.drop typed.length).length : Int) ≤ capacity →
          (s.Accepts ⟨Text.endsIn '"' (argument.drop suggestion.skip), choice.drop typed.length⟩
            choice ↔ ¬ (typed = [] ∧ suggestion.placeholder = some choice)) ∧
          (typed = [] ∧ suggestion.placeholder = some choice → s.Refuses choice) := by
  intro s
  have hs : InStep s := inStep_of_draft hdraft
  have hcapacity : s.capacity = capacity :=
    (capacity_operate _ (.meet (.act a))).trans (capacity_operateAll context capacity operations)
  obtain ⟨argument, suggestion, hholds⟩ := exists_holds_of_perform hdraft hok hne
  refine ⟨argument, suggestion, by rw [currentArgument_of_holds hholds], hholds, ?_⟩
  intro typed choice hstart hlonger hroom
  rw [← hcapacity] at hroom
  -- Both directions are known for the argument that is held.
  obtain ⟨haccepts, hrefuses⟩ := choice_of_holds hs hne hholds hstart hlonger hroom
  exact ⟨⟨fun h hshown => (hrefuses hshown).not_accepts h, haccepts⟩, hrefuses⟩

/-- A name of which something is typed is put in whole, although it is what would be shown. -/
theorem choice_accepted_iff_sample :
    let a := Action.insert ['m', 'v', ' ', 's']
    let outcome := (start .moving 80).perform a
    let s := outcome.session
    (∃ draft, (start .moving 80).draft? a = some draft) ∧ outcome.answer.isOk ∧ s.text ≠ [] ∧
      ∃ suggestion, s.currentArgument.answer = .ok (['s'], suggestion) ∧
        suggestion.placeholder = some ['s', 'r', 'c'] ∧ ['s', 'r', 'c'] ∈ suggestion.choices ∧
        s.Accepts ⟨false, ['r', 'c']⟩ ['s', 'r', 'c'] := by
  intro a outcome s
  have hdraft : ∃ draft, (start .moving 80).draft? a = some draft := ⟨_, rfl⟩
  have hok : outcome.answer.isOk := by decide +kernel
  have hne : s.text ≠ [] := by decide +kernel
  -- What is offered for the argument, found by running.
  have hoffered' : (s.currentArgument.answer.toOption.map fun offered =>
      (offered.1, offered.2.skip, offered.2.placeholder, offered.2.choices)) =
      some (['s'], 0, some ['s', 'r', 'c'], [['s', 'r', 'c']]) := by decide +kernel
  obtain ⟨draft, hdraft'⟩ := hdraft
  obtain ⟨argument, suggestion, hoffered, -, hall⟩ :=
    choice_accepted_iff .moving 80 [] a draft hdraft' hok hne
  have hfound : s.currentArgument.answer = .ok (argument, suggestion) := hoffered
  rw [hfound] at hoffered'
  simp only [Except.toOption, Option.map_some, Option.some.injEq, Prod.mk.injEq] at hoffered'
  obtain ⟨rfl, hskip, hplaceholder, hchoices⟩ := hoffered'
  rw [hskip] at hall
  have haccepted := hall ['s', 'r', 'c'] (by decide) (by decide) (by decide +kernel)
  refine ⟨⟨draft, hdraft'⟩, hok, hne, suggestion, hfound, hplaceholder, ?_, ?_⟩
  · rw [hchoices]
    exact List.mem_singleton.mpr rfl
  · exact haccepted.1.mpr (fun h => absurd h.1 (by decide))

/-- As long as nothing is typed a directory that is called like what is shown is refused, although
it is in the list. -/
theorem choose_placeholder :
    let s := ((start .moving 80).perform (.insert ['m', 'v', ' '])).session
    ((start .moving 80).perform (.insert ['m', 'v', ' '])).answer = .ok none ∧
      (∃ suggestion, s.currentArgument.answer = .ok ([], suggestion) ∧
        ['s', 'r', 'c'] ∈ suggestion.choices) ∧
      (s.text.length + 3 : Int) ≤ 80 ∧
      (s.perform (.choose ['s', 'r', 'c'])).session.text = s.text ∧
      (s.perform (.choose ['s', 'r', 'c'])).answer = .ok (some false) := by
  refine ⟨by decide +kernel, ⟨_, rfl, ?_⟩, by decide +kernel, by decide +kernel, by decide +kernel⟩
  exact List.mem_singleton.mpr rfl

end Session

end Typeahead
