import Typeahead.Proofs.Session.Acceptance
import Typeahead.Proofs.Session.Operation

/-!
# What completing answers

Completing an argument answers whether there was something to put in.  That is settled before
anything is put in, and what is put in may still be dropped, if the line would become too long.  In
an empty line a choice made from a list is put in whatever it is, and the answer is yes in any case.
So the answer tells whether the line has changed exactly if what was to be put in fits, and if it
was not the empty choice in an empty line.

## Main definitions

* `Session.pending?` — what an action that completes an argument is about to put in.

## Main results

* `Session.insertAll_text_ne_iff` — a text that is put in changes the line exactly if it is not
  empty and fits.
* `Session.answer_tells_iff` — **the answer tells whether the line has changed exactly if what was
  to be put in fits.**
-/

namespace Typeahead

namespace Session

/-- What is missing of what fits the current argument best, if it can be completed. -/
def missing? (s : Session) : Option Text :=
  match s.currentArgument.answer with
  | .ok (argument, suggestion) => (completion? argument suggestion).map Completion.missing
  | .error _ => none

/-- What an action that completes an argument is about to put in: what is missing of the argument,
or the choice itself if the line is empty. -/
def pending? (s : Session) : Action → Option Text
  | .accept => s.missing?
  | .choose choice =>
    match s.currentIndex? with
    | none => some choice
    | some i => (s.setBest i (some choice)).missing?
  | _ => none

variable {s t : Session} {a : Action} {answer : Bool}

theorem capacity_follow (s : Session) (events : List Event) :
    (s.follow events).capacity = s.capacity := by
  induction events generalizing s with
  | nil => rfl
  | cons e rest ih => exact (ih (s.after e)).trans (s.capacity_operate (.meet e))

/-- A text that is put in changes the line exactly if it is not empty and fits. -/
theorem insertAll_text_ne_iff (u : Text) :
    (s.insertAll u).text ≠ s.text ↔ u ≠ [] ∧ (s.text.length + u.length : Int) ≤ s.capacity := by
  unfold insertAll
  split
  next hfull =>
    have hsame : s.noteLine.text = s.text := rfl
    simp only [hsame, ne_eq, not_true_eq_false, false_iff, not_and]
    intro _
    omega
  next hroom =>
    have hfits : (s.text.length + u.length : Int) ≤ s.capacity := by omega
    simp only [hfits, and_true, splice, ne_eq, not_iff_not]
    constructor
    · intro h
      have hlength := congrArg List.length h
      simp only [List.length_append, List.length_take, List.length_drop] at hlength
      exact List.length_eq_zero_iff.mp (by omega)
    · rintro rfl
      rw [List.append_nil, List.take_append_drop]

/-! ### Completing the current argument -/

/-- What is missing is never the empty text. -/
theorem missing?_ne_nil (s : Session) : s.missing? ≠ some [] := by
  intro h
  unfold missing? at h
  split at h
  · obtain ⟨completion, hcompletion, hnil⟩ := Option.map_eq_some_iff.mp h
    exact (parts_of_completion hcompletion).2.2 hnil
  · cases h

theorem missing?_eq_none (h : s.completed? = none) : s.missing? = none := by
  unfold missing?
  unfold completed? at h
  split
  next hoffered =>
    rw [hoffered] at h
    rw [Option.map_eq_none_iff] at h ⊢
    exact h
  next => rfl

/-- A completed line has what is missing put in, if it fits. -/
theorem missing?_of_completed (h : s.completed? = some t) :
    ∃ missing, s.missing? = some missing ∧
      (t.text ≠ s.text ↔ missing ≠ [] ∧ (s.text.length + missing.length : Int) ≤ s.capacity) := by
  unfold completed? at h
  split at h
  · cases h
  next argument suggestion hoffered =>
    obtain ⟨completion, hcompletion, rfl⟩ := Option.map_eq_some_iff.mp h
    have hmissing : s.missing? = some completion.missing := by
      simp only [missing?, hoffered, hcompletion, Option.map_some]
    refine ⟨completion.missing, hmissing, ?_⟩
    -- Asking for the current argument changes neither the text nor the capacity.
    have hspared := s.spared_currentArgument
    rw [← hspared.text, ← hspared.capacity]
    exact insertAll_text_ne_iff _

/-- **What completing the current argument answers and does**: the answer is yes if something is
missing, and the line changes if that fits. -/
theorem accept_tells (h : s.accept.answer = .ok answer) :
    (answer = true ↔ ∃ missing, s.missing? = some missing) ∧
      (s.accept.session.text ≠ s.text ↔ ∃ missing, s.missing? = some missing ∧ missing ≠ [] ∧
        (s.text.length + missing.length : Int) ≤ s.capacity) := by
  rw [accept_eq] at h ⊢
  -- Whether there is a line to be updated decides both the answer and the text.
  cases hdraft : s.completed? with
  | none =>
    rw [hdraft] at h
    have hanswer : answer = false := by
      cases hoffered : s.currentArgument.answer with
      | error fault => rw [hoffered] at h; cases h
      | ok offered => rw [hoffered] at h; cases h; rfl
    have htext : s.currentArgument.session.text = s.text := s.spared_currentArgument.text
    simp [hanswer, htext, missing?_eq_none hdraft]
  | some t =>
    rw [hdraft] at h
    have hanswer : answer = true := by
      simp only [updateWith] at h
      cases hupdate : t.update.answer with
      | error fault => rw [hupdate] at h; cases h
      | ok _ => rw [hupdate] at h; cases h; rfl
    obtain ⟨missing, hmissing, hchanged⟩ := missing?_of_completed hdraft
    have htext : (t.updateWith true).session.text = t.text := rfl
    simp only [hanswer, htext, hmissing, hchanged, Option.some.injEq, exists_eq_left',
      exists_eq', and_self]

/-! ### Completing by any action -/

theorem InStep.currentIndex?_eq_none_iff (h : InStep s) : s.currentIndex? = none ↔ s.text = [] := by
  constructor
  · intro hnone
    by_contra hne
    rw [h.currentIndex?_eq hne] at hnone
    cases hnone
  · intro hnil
    have hspans : s.analysis.spans = [] := by
      rw [h.spans, hnil]
      rfl
    unfold currentIndex? count
    rw [hspans]
    rfl

/-- Nothing at all is put in only by the empty choice in an empty line. -/
theorem pending?_eq_nil_iff (h : InStep s) :
    s.pending? a = some [] ↔ s.text = [] ∧ a = .choose [] := by
  cases a with
  | accept => simp [pending?, s.missing?_ne_nil]
  | choose choice =>
    simp only [pending?, Action.choose.injEq, ← h.currentIndex?_eq_none_iff]
    cases hindex : s.currentIndex? with
    | none => simp
    | some i => simp [missing?_ne_nil]
  | _ => simp [pending?]

/-- An action whose answer says nothing does not tell whether it did something. -/
theorem silent_answer_ne (outcome : Outcome Unit) (answer : Bool) :
    (silent outcome).answer ≠ .ok (some answer) := by
  unfold silent
  cases outcome.answer <;> exact nofun

/-- A choice in an empty line is put in, and the answer is yes. -/
theorem choose_tells_of_nil {choice : Text} (hs : InStep s) (hnil : s.text = [])
    (h : (s.choose choice).answer = .ok answer) :
    answer = true ∧ ((s.choose choice).session.text ≠ s.text ↔
      choice ≠ [] ∧ (s.text.length + choice.length : Int) ≤ s.capacity) := by
  unfold choose at h ⊢
  rw [hs.currentIndex?_eq_none_iff.mpr hnil] at h ⊢
  dsimp only at h ⊢
  -- On an empty line there is nothing to delete first.
  have hfreed : s.freed.text = s.text ∧ s.freed.capacity = s.capacity := by
    unfold freed
    split
    · exact ⟨by simp [removeSelection, hnil], rfl⟩
    · exact ⟨rfl, rfl⟩
  rw [insert_eq] at h ⊢
  -- The answer, which an update that fails would not give; then the text.
  constructor
  · split at h
    · cases h; rfl
    · cases hupdate : (s.freed.insertAll choice).update.answer with
      | error fault => rw [hupdate] at h; cases h
      | ok _ => rw [hupdate] at h; cases h; rfl
  · split
    next hempty => simp [hempty]
    next hne =>
      have htext : (s.freed.insertAll choice).update.session.text =
          (s.freed.insertAll choice).text := rfl
      rw [htext, ← hfreed.1, ← hfreed.2]
      exact insertAll_text_ne_iff choice

/-- **What choosing from a list answers and does**, in an empty line and in any other. -/
theorem choose_tells {choice : Text} (hs : InStep s) (h : (s.choose choice).answer = .ok answer) :
    (answer = true ↔ ∃ missing, s.pending? (.choose choice) = some missing) ∧
      ((s.choose choice).session.text ≠ s.text ↔
        ∃ missing, s.pending? (.choose choice) = some missing ∧ missing ≠ [] ∧
          (s.text.length + missing.length : Int) ≤ s.capacity) := by
  by_cases hnil : s.text = []
  · obtain ⟨hyes, hchanged⟩ := choose_tells_of_nil hs hnil h
    have hpending : s.pending? (.choose choice) = some choice := by
      simp only [pending?, hs.currentIndex?_eq_none_iff.mpr hnil]
    simp only [hyes, hchanged, hpending, Option.some.injEq, exists_eq', exists_eq_left', and_self]
  · -- The choice is set by hand, and then the argument is completed as ever.
    have hspared := s.spared_setBest s.analysis.current (some choice)
    have hpending : s.pending? (.choose choice) =
        (s.setBest s.analysis.current (some choice)).missing? := by
      simp only [pending?, hs.currentIndex?_eq hnil]
    rw [hs.choose_eq hnil] at h ⊢
    have htells := accept_tells h
    rw [hspared.text, hspared.capacity, ← hpending] at htells
    exact htells

theorem answer_of_told {outcome : Outcome Bool} (h : (told outcome).answer = .ok (some answer)) :
    outcome.answer = .ok answer := by
  unfold told at h
  cases hanswer : outcome.answer with
  | error fault => rw [hanswer] at h; cases h
  | ok _ => rw [hanswer] at h; cases h; rfl

/-- **What an action that completes answers and does**: the answer is yes if there is something to
put in, and the line changes if that is not empty and fits. -/
theorem perform_tells (hs : InStep s) (h : (s.perform a).answer = .ok (some answer)) :
    (answer = true ↔ ∃ missing, s.pending? a = some missing) ∧
      ((s.perform a).session.text ≠ s.text ↔ ∃ missing, s.pending? a = some missing ∧
        missing ≠ [] ∧ (s.text.length + missing.length : Int) ≤ s.capacity) := by
  cases a with
  | accept => exact accept_tells (answer_of_told h)
  | choose choice => exact choose_tells hs (answer_of_told h)
  | deleteSelection =>
    simp only [perform] at h
    split at h
    · exact absurd h (silent_answer_ne _ answer)
    · cases h
  | insert _ | clear | delete _ _ | move _ _ _ | toStart | toEnd =>
    exact absurd h (silent_answer_ne _ answer)

/-- **The answer tells whether the line has changed exactly if what was to be put in fits.**  Let an
action complete an argument after any events and answer without a fault.  The answer is yes if there
was something to put in, and the line has changed if that was not empty and fitted.  So the answer
is right exactly if what was to be put in, if anything, does not go over the capacity, and if it was
not the empty choice in an empty line. -/
theorem answer_tells_iff (context : Context) (capacity : Int) (events : List Event) (a : Action)
    (answer : Bool)
    (h : (((start context capacity).follow events).perform a).answer = .ok (some answer)) :
    let s := (start context capacity).follow events
    let t := (s.perform a).session
    (answer = true ↔ ∃ missing, s.pending? a = some missing) ∧
      (t.text ≠ s.text ↔ ∃ missing, s.pending? a = some missing ∧ missing ≠ [] ∧
        (s.text.length + missing.length : Int) ≤ capacity) ∧
      ((answer = true ↔ t.text ≠ s.text) ↔
        (∀ missing ∈ s.pending? a, (s.text.length + missing.length : Int) ≤ capacity) ∧
          ¬ (s.text = [] ∧ a = .choose [])) := by
  intro s t
  have hs : InStep s := inStep_follow context capacity events
  have hcapacity : s.capacity = capacity := (start context capacity).capacity_follow events
  obtain ⟨hanswer, hchanged⟩ := perform_tells hs h
  rw [hcapacity] at hchanged
  refine ⟨hanswer, hchanged, ?_⟩
  rw [hanswer, hchanged, ← pending?_eq_nil_iff hs]
  -- What is left comes to whether the pending text has room.
  cases hpending : s.pending? a with
  | none => simp
  | some missing =>
    simp only [Option.some.injEq, exists_eq', exists_eq_left', true_iff, Option.mem_def, forall_eq']
    exact and_comm

/-- The end of a program's name just fits. -/
theorem answer_tells_iff_sample :
    let s := (start .sample 2).follow [.act (.insert ['l'])]
    (s.perform .accept).answer = .ok (some true) ∧ s.pending? .accept = some ['s'] ∧
      (s.perform .accept).session.text ≠ s.text := by
  intro s
  have hanswer : (s.perform .accept).answer = .ok (some true) := by decide +kernel
  have hpending : s.pending? .accept = some ['s'] := rfl
  have htells := (answer_tells_iff .sample 2 [.act (.insert ['l'])] .accept true hanswer).2.1
  exact ⟨hanswer, hpending, htells.mpr ⟨['s'], hpending, by decide, by decide⟩⟩

/-- In a full line the answer is yes and nothing is put in, and so it is for the empty choice in an
empty line. -/
theorem answer_misleads :
    let full := (start .sample 1).follow [.act (.insert ['l'])]
    let empty := start .sample 80
    ((full.perform .accept).answer = .ok (some true) ∧
      (full.perform .accept).session.text = full.text) ∧
    ((empty.perform (.choose [])).answer = .ok (some true) ∧
      (empty.perform (.choose [])).session.text = empty.text) :=
  ⟨⟨rfl, rfl⟩, ⟨rfl, rfl⟩⟩

end Session

end Typeahead
