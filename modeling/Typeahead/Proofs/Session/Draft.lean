import Typeahead.Proofs.Session.Alike
import Typeahead.Session.Action

/-!
# What an action leaves for its update

An action changes the text, the caret or the anchor and then has the analysis brought up to date.
The line in between, changed and not yet analysed, is its draft.  An action without a draft ends
early: it has nothing to do, or it cannot tell what to do.

Whatever is to hold of every line after every action is shown of an update and of the actions that
end early; and since these change nothing that counts, it is mostly a matter of updates.

## Main definitions

* `Session.Same` — a line that was left as it was, up to alike contexts.
* `Session.Spared` — a line that was left as it was, up to what fits best and to alike contexts.
* `Session.draft?` — the draft of an action; `Session.Draft` lists the shapes it can have.

## Main results

* `Session.perform_of_draft` — an action with a draft updates it.
* `Session.perform_of_no_draft`, `Session.spared_of_no_draft` — an action without one spares the
  line.
* `Session.Drafted.of_draft` — a draft has the context and the table of the line before, up to what
  fits best.
-/

namespace Typeahead

/-- The suggestion with nothing found to fit. -/
def Suggestion.unfocused (s : Suggestion) : Suggestion := { s with best := none }

/-- The table with nothing found to fit in any entry. -/
def Table.unfocused (table : Table) : Table := table.map fun entry => (entry.1, entry.2.unfocused)

@[simp] theorem Table.unfocused_setBest (i : Nat) (best : Option Text) (table : Table) :
    (table.setBest i best).unfocused = table.unfocused := by
  apply List.ext_getElem?
  intro j
  simp only [unfocused, setBest, List.getElem?_map, List.getElem?_modify]
  cases table[j]? with
  | none => rfl
  | some entry =>
    by_cases h : i = j <;> simp [h, Suggestion.unfocused]

namespace Session

/-- `s.Same t` says that `t` is the line `s` as it was: only notices may have been written and the
programs listed. -/
structure Same (s t : Session) : Prop where
  text : t.text = s.text
  caret : t.caret = s.caret
  anchor : t.anchor = s.anchor
  capacity : t.capacity = s.capacity
  analysis : t.analysis = s.analysis
  context : s.context.Alike t.context

/-- `s.Spared t` says that `t` is the line `s` as it was: only notices may have been written, the
programs listed, and what fits best set by hand. -/
structure Spared (s t : Session) : Prop where
  text : t.text = s.text
  caret : t.caret = s.caret
  anchor : t.anchor = s.anchor
  capacity : t.capacity = s.capacity
  context : s.context.Alike t.context
  spans : t.analysis.spans = s.analysis.spans
  quotes : t.analysis.quotes = s.analysis.quotes
  current : t.analysis.current = s.analysis.current
  grammar : t.analysis.grammar = s.analysis.grammar
  readings : t.analysis.readings = s.analysis.readings
  table : t.analysis.table.unfocused = s.analysis.table.unfocused

/-- `s.Drafted t` says that `t` was made of `s` without a look at the world: the context, the
capacity and the table are those of `s`, unless the table was given up. -/
structure Drafted (s t : Session) : Prop where
  capacity : t.capacity = s.capacity
  context : s.context.Alike t.context
  table : t.analysis.table.unfocused = s.analysis.table.unfocused ∨ t.analysis.table = []

namespace Spared

variable {s t u : Session}

@[refl] protected theorem refl (s : Session) : Spared s s :=
  ⟨rfl, rfl, rfl, rfl, .refl _, rfl, rfl, rfl, rfl, rfl, rfl⟩

protected theorem trans (h : Spared s t) (h' : Spared t u) : Spared s u :=
  ⟨h'.text.trans h.text, h'.caret.trans h.caret, h'.anchor.trans h.anchor,
    h'.capacity.trans h.capacity, h.context.trans h'.context, h'.spans.trans h.spans,
    h'.quotes.trans h.quotes, h'.current.trans h.current, h'.grammar.trans h.grammar,
    h'.readings.trans h.readings, h'.table.trans h.table⟩

theorem drafted (h : Spared s t) : Drafted s t := ⟨h.capacity, h.context, Or.inl h.table⟩

end Spared

namespace Same

variable {s t u : Session}

@[refl] protected theorem refl (s : Session) : Same s s := ⟨rfl, rfl, rfl, rfl, rfl, .refl _⟩

protected theorem symm (h : Same s t) : Same t s :=
  ⟨h.text.symm, h.caret.symm, h.anchor.symm, h.capacity.symm, h.analysis.symm, h.context.symm⟩

protected theorem trans (h : Same s t) (h' : Same t u) : Same s u :=
  ⟨h'.text.trans h.text, h'.caret.trans h.caret, h'.anchor.trans h.anchor,
    h'.capacity.trans h.capacity, h'.analysis.trans h.analysis, h.context.trans h'.context⟩

theorem spared (h : Same s t) : Spared s t := by
  refine ⟨h.text, h.caret, h.anchor, h.capacity, h.context, ?_, ?_, ?_, ?_, ?_, ?_⟩ <;>
    rw [h.analysis]

/-- Writing a notice leaves the line the same. -/
protected theorem noteLine (s : Session) : Same s s.noteLine :=
  ⟨rfl, rfl, rfl, rfl, rfl, s.context.alike_note _⟩

/-- Asking for the current argument leaves the line the same. -/
protected theorem currentArgument (s : Session) : Same s s.currentArgument.session := by
  unfold Session.currentArgument
  split
  · rw [s.context.programs_eq]
    have hsame : Same s { s with context := s.context.programs.1 } :=
      ⟨rfl, rfl, rfl, rfl, rfl, s.context.alike_programs⟩
    cases s.context.programs.2 <;> exact hsame
  · exact .refl s

end Same

/-! ### Operations that do not touch the analysis -/

namespace Drafted

variable {s t u : Session}

@[refl] protected theorem refl (s : Session) : Drafted s s := (Spared.refl s).drafted

protected theorem trans (h : Drafted s t) (h' : Drafted t u) : Drafted s u := by
  refine ⟨h'.capacity.trans h.capacity, h.context.trans h'.context, ?_⟩
  rcases h'.table with htable | hnone
  · rcases h.table with htable' | hnone'
    · exact Or.inl (htable.trans htable')
    · -- A table like an empty one is empty.
      right
      simpa [Table.unfocused, hnone'] using htable
  · exact Or.inr hnone

protected theorem noteLine (s : Session) : Drafted s s.noteLine :=
  ⟨rfl, s.context.alike_note _, Or.inl rfl⟩

protected theorem insertAll (s : Session) (t : Text) : Drafted s (s.insertAll t) := by
  unfold insertAll
  split
  · exact .noteLine s
  · exact ⟨rfl, .refl _, Or.inl rfl⟩

protected theorem removeSelection (s : Session) : Drafted s s.removeSelection :=
  ⟨rfl, .refl _, Or.inl rfl⟩

protected theorem anchorAt (s : Session) (position : Int) : Drafted s (s.anchorAt position) :=
  ⟨rfl, .refl _, Or.inl rfl⟩

protected theorem place (s : Session) (position : Int) : Drafted s (s.place position) :=
  ⟨rfl, .refl _, Or.inl rfl⟩

protected theorem deselect (s : Session) : Drafted s s.deselect := ⟨rfl, .refl _, Or.inl rfl⟩

protected theorem reset (s : Session) : Drafted s s.reset := ⟨rfl, .refl _, Or.inr rfl⟩

end Drafted

/-- A text of one character goes in like any other. -/
theorem insertChar_eq_insertAll (s : Session) (c : Char) : s.insertChar c = s.insertAll [c] := by
  have hfull : s.capacity ≤ s.text.length ↔ s.capacity < s.text.length + ([c] : Text).length := by
    simp only [List.length_singleton]
    omega
  simp only [insertChar, insertAll, hfull]

theorem spared_setBest (s : Session) (i : Int) (best : Option Text) :
    Spared s (s.setBest i best) := by
  unfold setBest
  split
  · exact ⟨rfl, rfl, rfl, rfl, .refl _, rfl, rfl, rfl, rfl, rfl, by simp⟩
  · exact (Same.noteLine s).spared

theorem spared_currentArgument (s : Session) : Spared s s.currentArgument.session :=
  (Same.currentArgument s).spared

/-! ### Drafts -/

/-- The line without what is selected, if anything is. -/
def freed (s : Session) : Session := if s.anchor.active then s.removeSelection else s

/-- The line with the caret moved and the selection drawn along or dropped. -/
def moved (s : Session) (position : Int) (selecting : Bool) : Session :=
  (if selecting then if s.anchor.active then s else s.anchorAt s.caret else s.deselect).place
    position

/-- The line with the current argument completed, if it can be. -/
def completed? (s : Session) : Option Session :=
  match s.currentArgument.answer with
  | .error _ => none
  | .ok (argument, suggestion) =>
    (completion? argument suggestion).map fun completion =>
      let t := s.currentArgument.session
      (t.deselect.place (t.completionPlace completion.closed)).insertAll completion.missing

/-- **The draft of an action**: the line as the action leaves it to its update; none if the action
ends without one. -/
def draft? (s : Session) : Action → Option Session
  | .insert t => if t = [] then none else some (s.freed.insertAll t)
  | .clear => some s.reset
  | .delete d r =>
    some (if s.anchor.active then s else s.anchorAt (s.reach d r)).removeSelection
  | .deleteSelection => if s.anchor.active then some s.removeSelection else none
  | .move d r selecting => some (s.moved (s.reach d r) selecting)
  | .toStart => some (s.moved 0 false)
  | .toEnd => some (s.moved s.text.length false)
  | .accept => s.completed?
  | .choose choice =>
    match s.currentIndex? with
    | none => if choice = [] then none else some (s.freed.insertAll choice)
    | some i => (s.setBest i (some choice)).completed?

/-! ### Actions end with the update of their draft -/

/-- `Follows outcome t` says that an outcome is that of updating `t`, but for the answer that is
given if all went well. -/
def Follows {α : Type} (outcome : Outcome α) (t : Session) : Prop :=
  outcome.session = t.update.session ∧
    ∃ answer, outcome.answer = t.update.answer.map fun _ => answer

/-- An outcome fails with the faults that the update it follows fails with. -/
theorem Follows.error_iff {α : Type} {outcome : Outcome α} {t : Session} (h : Follows outcome t)
    {fault : Fault} : outcome.answer = .error fault ↔ t.update.answer = .error fault := by
  obtain ⟨-, answer, hanswer⟩ := h
  rw [hanswer]
  cases t.update.answer <;> simp [Except.map]

theorem Follows.update_of_isOk {α : Type} {outcome : Outcome α} {t : Session}
    (h : Follows outcome t) (hok : outcome.answer.isOk) : t.update.answer = .ok () := by
  cases hupdate : t.update.answer with
  | ok _ => rfl
  | error fault =>
    rw [h.error_iff.mpr hupdate] at hok
    cases hok

theorem follows_silent (t : Session) : Follows (silent t.update) t := ⟨rfl, none, rfl⟩

theorem insert_eq (s : Session) (t : Text) :
    s.insert t = if t = [] then ⟨s, .ok ()⟩ else (s.freed.insertAll t).update := by
  rcases t with _ | ⟨c, _ | ⟨c', t⟩⟩
  · rfl
  · simp only [insert, insertChar_eq_insertAll, freed]; rfl
  · rfl

theorem accept_eq (s : Session) :
    s.accept =
      match s.completed? with
      | some t => t.updateWith true
      | none => ⟨s.currentArgument.session, s.currentArgument.answer.map fun _ => false⟩ := by
  unfold accept completed?
  dsimp only
  cases s.currentArgument.answer with
  | error fault => rfl
  | ok offered =>
    obtain ⟨argument, suggestion⟩ := offered
    dsimp only
    cases completion? argument suggestion <;> rfl

/-- **An action with a draft updates it**, and answers with a fault exactly if the update does. -/
theorem perform_of_draft {s t : Session} {a : Action} (h : s.draft? a = some t) :
    Follows (s.perform a) t := by
  -- An action that completes something follows its line whichever suggestion it goes by.
  have haccept : ∀ {u : Session}, u.completed? = some t → Follows (told u.accept) t := by
    intro u hu
    rw [accept_eq, hu]
    refine ⟨rfl, some true, ?_⟩
    simp only [told, updateWith]
    cases t.update.answer <;> rfl
  -- Actions that leave a line in every case are followed by definition; the others have a condition
  -- for it.
  cases a with
  | insert text =>
    simp only [draft?, Option.ite_none_left_eq_some, Option.some.injEq] at h
    obtain ⟨hne, rfl⟩ := h
    simp only [perform, insert_eq, hne, if_false]
    exact follows_silent _
  | clear => cases h; exact follows_silent _
  | delete d r => cases h; exact follows_silent _
  | deleteSelection =>
    simp only [draft?, Option.ite_none_right_eq_some, Option.some.injEq] at h
    obtain ⟨hactive, rfl⟩ := h
    simp only [perform, hactive, if_true]
    exact follows_silent _
  | move d r selecting => cases h; exact follows_silent _
  | toStart => cases h; exact follows_silent _
  | toEnd => cases h; exact follows_silent _
  | accept => exact haccept h
  | choose choice =>
    simp only [draft?] at h
    simp only [perform, choose]
    cases hindex : s.currentIndex? with
    | none =>
      simp only [hindex, Option.ite_none_left_eq_some, Option.some.injEq] at h
      obtain ⟨hne, rfl⟩ := h
      simp only [insert_eq, hne, if_false]
      refine ⟨rfl, some true, ?_⟩
      simp only [told]
      cases (s.freed.insertAll choice).update.answer <;> rfl
    | some i =>
      simp only [hindex] at h
      exact haccept h

theorem spared_accept {s : Session} (h : s.completed? = none) : Spared s s.accept.session := by
  rw [accept_eq, h]
  exact s.spared_currentArgument

/-- **What an action without a draft does**: nothing at all, or it tries to complete an argument
that cannot be completed, in a line that is spared. -/
theorem perform_of_no_draft {s : Session} {a : Action} (h : s.draft? a = none) :
    (∃ answer, s.perform a = ⟨s, .ok answer⟩) ∨
      ∃ t, Spared s t ∧ t.completed? = none ∧ s.perform a = told t.accept := by
  -- Only actions with a condition can leave no line.
  cases a with
  | insert text =>
    left
    simp only [draft?, ite_eq_left_iff, reduceCtorEq, imp_false, Classical.not_not] at h
    refine ⟨none, ?_⟩
    simp only [perform, insert_eq, h, if_true]
    rfl
  | clear => cases h
  | delete d r => cases h
  | deleteSelection =>
    left
    simp only [draft?, ite_eq_right_iff, reduceCtorEq, imp_false] at h
    refine ⟨none, ?_⟩
    simp only [perform, h]
    rfl
  | move d r selecting => cases h
  | toStart => cases h
  | toEnd => cases h
  | accept => exact Or.inr ⟨s, .refl s, h, rfl⟩
  | choose choice =>
    simp only [draft?] at h
    simp only [perform, choose]
    cases hindex : s.currentIndex? with
    | none =>
      left
      simp only [hindex, ite_eq_left_iff, reduceCtorEq, imp_false, Classical.not_not] at h
      refine ⟨some true, ?_⟩
      simp only [insert_eq, h, if_true]
      rfl
    | some i =>
      simp only [hindex] at h
      exact Or.inr ⟨_, s.spared_setBest i (some choice), h, rfl⟩

/-- **An action without a draft spares the line.** -/
theorem spared_of_no_draft {s : Session} {a : Action} (h : s.draft? a = none) :
    Spared s (s.perform a).session := by
  rcases perform_of_no_draft h with ⟨answer, hperform⟩ | ⟨t, hspared, hnone, hperform⟩
  · rw [hperform]
  · rw [hperform]
    exact hspared.trans (spared_accept hnone)

/-! ### The shapes of a draft -/

/-- The shapes that a draft of the line `s` can have, whatever the action. -/
inductive Draft (s : Session) : Session → Prop
  /-- A text in the place of the selection. -/
  | insert (t : Text) : Draft s (s.freed.insertAll t)
  /-- An empty line. -/
  | clear : Draft s s.reset
  /-- The selection taken out. -/
  | deleteSelection : Draft s s.removeSelection
  /-- What lies between a place and the caret taken out. -/
  | delete (position : Int) : Draft s (s.anchorAt position).removeSelection
  /-- The caret moved. -/
  | move (position : Int) (selecting : Bool) : Draft s (s.moved position selecting)
  /-- A text put in at a place, the selection dropped. -/
  | complete {u : Session} (spared : Spared s u) (position : Int) (t : Text) :
    Draft s ((u.deselect.place position).insertAll t)

theorem Draft.of_spared {s t u : Session} (hspared : Spared s t) (h : t.completed? = some u) :
    Draft s u := by
  unfold completed? at h
  split at h
  · cases h
  · obtain ⟨completion, -, rfl⟩ := Option.map_eq_some_iff.mp h
    exact .complete (hspared.trans t.spared_currentArgument) _ _

/-- Every draft has one of the shapes. -/
theorem Draft.of_draft {s t : Session} {a : Action} (h : s.draft? a = some t) : Draft s t := by
  -- What goes in, what comes out and what moves are the four sorts of change to a line.
  cases a with
  | insert text =>
    simp only [draft?, Option.ite_none_left_eq_some, Option.some.injEq] at h
    obtain ⟨-, rfl⟩ := h
    exact .insert text
  | clear => cases h; exact .clear
  | delete d r =>
    cases h
    split
    · exact .deleteSelection
    · exact .delete _
  | deleteSelection =>
    simp only [draft?, Option.ite_none_right_eq_some, Option.some.injEq] at h
    obtain ⟨-, rfl⟩ := h
    exact .deleteSelection
  | move d r selecting => cases h; exact .move _ _
  | toStart => cases h; exact .move _ _
  | toEnd => cases h; exact .move _ _
  | accept => exact .of_spared (.refl s) h
  | choose choice =>
    simp only [draft?] at h
    split at h
    · simp only [Option.ite_none_left_eq_some, Option.some.injEq] at h
      obtain ⟨-, rfl⟩ := h
      exact .insert choice
    · exact .of_spared (s.spared_setBest _ _) h

/-! ### What a draft keeps of the line -/

namespace Drafted

protected theorem freed (s : Session) : Drafted s s.freed := by
  unfold freed
  split
  · exact .removeSelection s
  · exact .refl s

protected theorem moved (s : Session) (position : Int) (selecting : Bool) :
    Drafted s (s.moved position selecting) := by
  refine Drafted.trans ?_ (.place _ position)
  split
  · split
    · exact .refl s
    · exact .anchorAt s _
  · exact .deselect s

/-- **A draft has the context and the table of the line before.** -/
theorem of_draft {s t : Session} (h : Draft s t) : Drafted s t := by
  cases h with
  | insert text => exact (Drafted.freed s).trans (.insertAll _ _)
  | clear => exact .reset s
  | deleteSelection => exact .removeSelection s
  | delete position => exact (Drafted.anchorAt s _).trans (.removeSelection _)
  | move position selecting => exact .moved s _ _
  | complete spared position text =>
    exact spared.drafted.trans ((Drafted.deselect _).trans ((Drafted.place _ _).trans
      (.insertAll _ _)))

end Drafted

end Session

end Typeahead
