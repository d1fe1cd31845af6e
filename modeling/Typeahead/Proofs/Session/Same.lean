import Typeahead.Proofs.Session.Completion

/-!
# Lines that are the same

Two lines may differ in the notices written so far and in whether the programs are listed already,
and in nothing else.  Such lines cannot be told apart: whatever is done to both of them is answered
alike and leaves lines that are the same again, in any world and after any failures.

## Main definitions

* `Outcome.Same` — two outcomes with one answer and with lines that are the same.

## Main results

* `Table.refresh_congr` — a table is refreshed in the same way in alike contexts.
* `Session.Same.perform` — **an action on lines that are the same has outcomes that are the same.**
* `Session.Same.run` — so have some actions.
-/

namespace Typeahead

/-! ### Refreshing in alike contexts -/

variable {c d : Context}

/-- Alike contexts bring a suggestion up to date in the same way. -/
theorem Context.Alike.renew_eq (h : c.Alike d) (argument : Text) (r : Reading) (s : Suggestion) :
    (d.renew argument r s).suggestion = (c.renew argument r s).suggestion ∧
      (d.renew argument r s).fault = (c.renew argument r s).fault := by
  unfold renew
  cases r.kind with
  | program =>
    dsimp only
    split
    · exact ⟨rfl, rfl⟩
    · rw [c.programs_eq, d.programs_eq, h.programs]
      cases c.programs.2 <;> exact ⟨rfl, rfl⟩
  | path =>
    dsimp only
    rw [h.target_eq, h.world]
    cases c.target argument <;> exact ⟨rfl, rfl⟩
  | text => exact ⟨rfl, rfl⟩

namespace Table

theorem treatAnew_congr (h : c.Alike d) (argument : Text) (r : Reading)
    (before : Option (ArgumentKind × Suggestion)) :
    (treatAnew d argument r before).entry = (treatAnew c argument r before).entry ∧
      (treatAnew d argument r before).fault = (treatAnew c argument r before).fault := by
  unfold treatAnew
  rw [h.suggest_eq]
  cases (c.suggest argument r).2 <;> exact ⟨rfl, rfl⟩

/-- An argument is treated in the same way in alike contexts. -/
theorem treat_congr (h : c.Alike d) (argument : Text) (r : Reading)
    (before : Option (ArgumentKind × Suggestion)) :
    (treat d argument r before).entry = (treat c argument r before).entry ∧
      (treat d argument r before).fault = (treat c argument r before).fault := by
  cases before with
  | none => exact treatAnew_congr h argument r none
  | some entry =>
    obtain ⟨kind, s⟩ := entry
    simp only [treat]
    split
    · obtain ⟨hsuggestion, hfault⟩ := h.renew_eq argument r s
      rw [hsuggestion, hfault]
      exact ⟨rfl, rfl⟩
    · exact treatAnew_congr h argument r (some (kind, s))

/-- **A table is refreshed in the same way in alike contexts**, whether that goes well or not. -/
theorem refresh_congr (h : c.Alike d) (items : List (Text × Reading)) (table : Table) :
    (refresh d items table).table = (refresh c items table).table ∧
      (refresh d items table).fault = (refresh c items table).fault := by
  induction items generalizing c d table with
  | nil => simp only [refresh_nil, and_self]
  | cons item rest ih =>
    obtain ⟨argument, r⟩ := item
    obtain ⟨hentry, hfault⟩ := treat_congr h argument r table.head?
    -- The treatments leave contexts that are alike again.
    have hrest := ih ((alike_treat c argument r table.head?).symm.trans
      (h.trans (alike_treat d argument r table.head?))) table.tail
    rw [refresh_cons, refresh_cons, hentry, hfault]
    cases (treat c argument r table.head?).fault with
    | none =>
      dsimp only
      rw [hrest.1, hrest.2]
      exact ⟨rfl, rfl⟩
    | some fault => exact ⟨rfl, rfl⟩

end Table

/-! ### Lines that are the same -/

/-- Two outcomes with one answer and with lines that are the same. -/
def Outcome.Same {α : Type} (o p : Outcome α) : Prop :=
  p.answer = o.answer ∧ o.session.Same p.session

namespace Outcome.Same

theorem silent {o p : Outcome Unit} (h : o.Same p) :
    Outcome.Same (Session.silent o) (Session.silent p) := by
  refine ⟨?_, h.2⟩
  simp only [Session.silent, h.1]

theorem told {o p : Outcome Bool} (h : o.Same p) :
    Outcome.Same (Session.told o) (Session.told p) := by
  refine ⟨?_, h.2⟩
  simp only [Session.told, h.1]

end Outcome.Same

namespace Session

variable {s t : Session}

namespace Same

/-- Lines that are the same are one line in two contexts. -/
theorem exists_context (h : Same s t) :
    ∃ c, s.context.Alike c ∧ t = { s with context := c } := by
  obtain ⟨htext, hcaret, hanchor, hcapacity, hanalysis, hcontext⟩ := h
  refine ⟨t.context, hcontext, ?_⟩
  cases t
  simp only at htext hcaret hanchor hcapacity hanalysis
  simp only [htext, hcaret, hanchor, hcapacity, hanalysis]

/-- What does not look at the context has the same value. -/
theorem value_eq {α : Type} (h : Same s t) (f : Session → α)
    (hf : ∀ s c, f { s with context := c } = f s) : f t = f s := by
  obtain ⟨c, -, rfl⟩ := h.exists_context
  exact hf s c

/-- What does not look at the context and leaves it alone keeps lines the same. -/
theorem map (h : Same s t) (f : Session → Session)
    (hf : ∀ s c, f { s with context := c } = { f s with context := c }) : Same (f s) (f t) := by
  obtain ⟨c, halike, rfl⟩ := h.exists_context
  have hsame : f s = { f s with context := s.context } := hf s s.context
  have hcontext : (f s).context = s.context := by rw [hsame]
  rw [hf s c]
  refine ⟨rfl, rfl, rfl, rfl, rfl, ?_⟩
  rw [hcontext]
  exact halike

/-! ### Changes of the line -/

protected theorem removeSelection (h : Same s t) : Same s.removeSelection t.removeSelection :=
  h.map _ fun _ _ => rfl

protected theorem anchorAt (h : Same s t) (position : Int) :
    Same (s.anchorAt position) (t.anchorAt position) :=
  h.map (·.anchorAt position) fun _ _ => rfl

protected theorem place (h : Same s t) (position : Int) :
    Same (s.place position) (t.place position) :=
  h.map (·.place position) fun _ _ => rfl

protected theorem deselect (h : Same s t) : Same s.deselect t.deselect := h.map _ fun _ _ => rfl

protected theorem reset (h : Same s t) : Same s.reset t.reset := h.map _ fun _ _ => rfl

protected theorem freed (h : Same s t) : Same s.freed t.freed := by
  unfold Session.freed
  rw [h.anchor]
  split
  · exact h.removeSelection
  · exact h

theorem reach_eq (h : Same s t) (direction : Direction) (r : Reach) :
    t.reach direction r = s.reach direction r :=
  h.value_eq (·.reach direction r) fun _ _ => by cases r <;> rfl

protected theorem insertAll (h : Same s t) (u : Text) : Same (s.insertAll u) (t.insertAll u) := by
  unfold Session.insertAll
  rw [h.capacity, h.text]
  split
  · exact (Same.noteLine s).symm.trans (h.trans (.noteLine t))
  · exact h.map (·.splice u) fun _ _ => rfl

protected theorem setBest (h : Same s t) (i : Int) (best : Option Text) :
    Same (s.setBest i best) (t.setBest i best) := by
  unfold Session.setBest
  rw [h.analysis]
  split
  · exact ⟨h.text, h.caret, h.anchor, h.capacity, rfl, h.context⟩
  · exact (Same.noteLine s).symm.trans (h.trans (.noteLine t))

/-! ### Updates -/

/-- **An update of lines that are the same has outcomes that are the same.** -/
protected theorem update (h : Same s t) : Outcome.Same s.update t.update := by
  have hnoticed : s.noticed.Alike t.noticed :=
    s.alike_noticed.symm.trans (h.context.trans t.alike_noticed)
  obtain ⟨htable, hfault⟩ := Table.refresh_congr hnoticed s.items s.analysis.table
  have hrefreshed : t.refreshed = Table.refresh t.noticed s.items s.analysis.table := by
    rw [refreshed, items_congr h.context h.text, h.analysis]
  rw [← hrefreshed] at htable hfault
  refine ⟨?_, h.text, h.caret, h.anchor, h.capacity, ?_, ?_⟩
  · rw [update_answer, update_answer, hfault]
    rfl
  · rw [update_session, update_session]
    dsimp only
    rw [htable, analysisWith_congr h.context h.text h.caret]
    rfl
  · exact s.alike_update.symm.trans (h.context.trans t.alike_update)

theorem updateWith {α : Type} (h : Same s t) (answer : α) :
    Outcome.Same (s.updateWith answer) (t.updateWith answer) := by
  obtain ⟨hanswer, hsession⟩ := h.update
  refine ⟨?_, hsession⟩
  simp only [Session.updateWith, hanswer]

/-! ### Actions -/

theorem currentArgument_eq (h : Same s t) :
    t.currentArgument.answer = s.currentArgument.answer := by
  -- Only an argument without a pair asks for the programs.
  cases hpairs : s.analysis.spans.zip s.analysis.table with
  | nil =>
    rw [currentArgument_of_unpaired hpairs, currentArgument_of_unpaired (h.analysis ▸ hpairs),
      h.context.programs]
  | cons first rest =>
    unfold Session.currentArgument
    rw [h.analysis, hpairs]
    simp only [h.text]

protected theorem accept (h : Same s t) : Outcome.Same s.accept t.accept := by
  have hasked : Same s.currentArgument.session t.currentArgument.session :=
    (Same.currentArgument s).symm.trans (h.trans (.currentArgument t))
  unfold Session.accept
  dsimp only
  rw [h.currentArgument_eq]
  cases s.currentArgument.answer with
  | error fault => exact ⟨rfl, hasked⟩
  | ok offered =>
    obtain ⟨argument, suggestion⟩ := offered
    dsimp only
    cases completion? argument suggestion with
    | none => exact ⟨rfl, hasked⟩
    | some completion =>
      dsimp only
      have hplace := hasked.value_eq (·.completionPlace completion.closed) fun _ _ => rfl
      rw [hplace]
      exact ((hasked.deselect.place _).insertAll _).updateWith true

protected theorem insert (h : Same s t) (u : Text) : Outcome.Same (s.insert u) (t.insert u) := by
  rw [insert_eq, insert_eq]
  split
  · exact ⟨rfl, h⟩
  · exact (h.freed.insertAll u).update

protected theorem choose (h : Same s t) (choice : Text) :
    Outcome.Same (s.choose choice) (t.choose choice) := by
  have hindex := h.value_eq (·.currentIndex?) fun _ _ => rfl
  unfold Session.choose
  rw [hindex]
  cases s.currentIndex? with
  | none =>
    obtain ⟨hanswer, hsession⟩ := h.insert choice
    refine ⟨?_, hsession⟩
    dsimp only
    rw [hanswer]
  | some i => exact (h.setBest i (some choice)).accept

protected theorem delete (h : Same s t) (direction : Direction) (r : Reach) :
    Outcome.Same (s.delete direction r) (t.delete direction r) := by
  unfold Session.delete
  rw [h.anchor, h.reach_eq]
  split
  · exact h.removeSelection.update
  · exact (h.anchorAt _).removeSelection.update

protected theorem moveTo (h : Same s t) (position : Int) (selecting : Bool) :
    Outcome.Same (s.moveTo position selecting) (t.moveTo position selecting) := by
  unfold Session.moveTo
  rw [h.anchor, h.caret]
  dsimp only
  refine Same.update (Same.place ?_ position)
  split
  · split
    · exact h
    · exact h.anchorAt _
  · exact h.deselect

/-- **An action on lines that are the same has outcomes that are the same.** -/
protected theorem perform (h : Same s t) (a : Action) :
    Outcome.Same (s.perform a) (t.perform a) := by
  cases a with
  | insert u => exact (h.insert u).silent
  | clear => exact h.reset.update.silent
  | delete direction r => exact (h.delete direction r).silent
  | deleteSelection =>
    simp only [Session.perform]
    rw [h.anchor]
    split
    · exact h.removeSelection.update.silent
    · exact ⟨rfl, h⟩
  | move direction r selecting =>
    simp only [Session.perform]
    rw [h.reach_eq]
    exact (h.moveTo _ selecting).silent
  | toStart => exact (h.moveTo 0 false).silent
  | toEnd =>
    simp only [Session.perform]
    rw [h.text]
    exact (h.moveTo _ false).silent
  | accept => exact h.accept.told
  | choose choice => exact (h.choose choice).told

/-- **Some actions leave lines the same that are.** -/
protected theorem run (h : Same s t) (actions : List Action) :
    Same (s.run actions) (t.run actions) := by
  induction actions generalizing s t with
  | nil => exact h
  | cons a rest ih => exact ih (h.perform a).2

end Same

end Session

end Typeahead
