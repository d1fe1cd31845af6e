import Typeahead.Proofs.Session.Acceptance
import Typeahead.Proofs.Suggestion.Target

/-!
# Placeholders and what an argument is completed to

A placeholder is shown as long as nothing is typed, and it is not put in then: what an argument is
completed to is one of its choices.  But a path argument that points nowhere is shown its
placeholder whatever was typed, and there are no choices.  If its placeholder happens to go on what
was typed, the argument is completed to the placeholder.

## Main definitions

* `Suggestion.Sought` — a suggestion whose best choice was looked up for its argument.
* `Session.Astray` — the current argument is a path that points nowhere.

## Main results

* `Session.sought_update` — after an update that went well every argument has such a suggestion.
* `Session.best_mem_choices_iff` — **what the current argument is completed to is one of its choices
  exactly if it is no path that points nowhere.**
-/

namespace Typeahead

namespace Suggestion

variable {s : Suggestion} {typed best : Text}

/-- What fits best is a choice unless it is the placeholder of an argument with nothing typed. -/
theorem mem_choices_of_bestFor (h : s.bestFor typed = some best)
    (hshown : typed = [] → some best ≠ s.placeholder) : best ∈ s.choices := by
  unfold bestFor at h
  split at h
  next htyped =>
    split at h
    next shown hplaceholder =>
      rw [hplaceholder, ← h] at hshown
      exact absurd rfl (hshown htyped)
    next => exact List.mem_of_mem_head? h
  next => exact List.mem_of_find?_eq_some h

/-- A suggestion for a path is the one for a target: it passes over what stands before the name, and
if there is no target it has no choices and nothing to pass over. -/
def For (s : Suggestion) : Option Target → Prop
  | none => s.choices = [] ∧ s.skip = 0
  | some target => s.skip = target.skip

/-- A suggestion whose best choice was looked up for an argument of a kind. -/
structure Sought (c : Context) (kind : ArgumentKind) (argument : Text) (s : Suggestion) : Prop where
  /-- An argument that is no path is matched as a whole. -/
  whole : kind ≠ .path → s.best = s.bestFor argument
  /-- A path argument is matched with the name that is being typed, and with nothing if it points
  nowhere. -/
  path : kind = .path → ∃ target, c.target argument = .ok target ∧ s.For target ∧
    s.best = s.bestFor (target.elim [] Target.typed)

theorem Sought.of_alike {c d : Context} {kind : ArgumentKind} {argument : Text}
    (h : Sought c kind argument s) (halike : c.Alike d) : Sought d kind argument s := by
  refine ⟨h.whole, ?_⟩
  rw [halike.target_eq]
  exact h.path

end Suggestion

namespace Context

variable {c : Context} {argument : Text} {r : Reading} {s : Suggestion}

theorem resolve_of_target {target : Option Target} (h : c.target argument = .ok target) :
    Target.resolve c.world c.here argument = .ok target := by
  unfold Context.target at h
  split at h
  next hresolve =>
    cases h
    exact hresolve
  next => cases h

theorem sought_of_suggest (h : (c.suggest argument r).2 = .ok s) : s.Sought c r.kind argument := by
  rw [suggest_snd] at h
  -- Only a path is sought in a directory; for the other kinds there is nothing to show.
  cases hkind : r.kind with
  | program =>
    simp only [hkind] at h
    cases hnames : c.programs.2 with
    | error fault => rw [hnames] at h; cases h
    | ok names =>
      rw [hnames] at h
      cases h
      exact ⟨fun _ => rfl, nofun⟩
  | path =>
    simp only [hkind] at h
    cases htarget : c.target argument with
    | error fault => rw [htarget] at h; cases h
    | ok target =>
      rw [htarget] at h
      cases h
      refine ⟨nofun, fun _ => ⟨target, htarget, ?_⟩⟩
      cases target with
      | none => exact ⟨⟨rfl, rfl⟩, rfl⟩
      | some target => exact ⟨rfl, rfl⟩
  | text =>
    simp only [hkind] at h
    cases h
    exact ⟨fun _ => rfl, nofun⟩

theorem sought_of_renew (h : (c.renew argument r s).fault = none) :
    (c.renew argument r s).suggestion.Sought c r.kind argument := by
  cases hkind : r.kind with
  | program =>
    refine ⟨fun _ => ?_, fun hpath => by cases hpath⟩
    simp only [renew, hkind] at h ⊢
    split at h
    next hscope => rw [if_pos hscope]; rfl
    next hscope =>
      rw [if_neg hscope]
      rw [programs_eq] at h ⊢
      cases hnames : c.programs.2 with
      | error fault => rw [hnames] at h; cases h
      | ok names => rfl
  | path =>
    cases htarget : c.target argument with
    | error fault =>
      simp only [renew, hkind, htarget] at h
      cases h
    | ok target =>
      rw [renew_path hkind htarget]
      refine ⟨fun hother => absurd rfl hother, fun _ => ⟨target, htarget, ?_⟩⟩
      cases target with
      | none => exact ⟨⟨rfl, rfl⟩, rfl⟩
      | some target =>
        simp only [Suggestion.renewTarget]
        split <;> exact ⟨rfl, rfl⟩
  | text =>
    refine ⟨fun _ => ?_, fun hpath => by cases hpath⟩
    simp only [renew, hkind]
    rfl

end Context

namespace Table

/-- A treatment without a fault leaves an entry of the argument's kind that was looked up for it. -/
theorem sought_treat {c : Context} {argument : Text} {r : Reading}
    {before : Option (ArgumentKind × Suggestion)} {entry : ArgumentKind × Suggestion}
    (hfault : (treat c argument r before).fault = none)
    (hentry : (treat c argument r before).entry = some entry) :
    entry.1 = r.kind ∧ entry.2.Sought c r.kind argument := by
  rcases treat_eq c argument r before with hanew | ⟨s, -, hrenewed⟩
  · rw [hanew] at hfault hentry
    unfold treatAnew at hfault hentry
    cases hs : (c.suggest argument r).2 with
    | error fault => rw [hs] at hfault; cases hfault
    | ok s =>
      rw [hs] at hentry
      cases hentry
      exact ⟨rfl, Context.sought_of_suggest hs⟩
  · rw [hrenewed] at hfault hentry
    cases hentry
    exact ⟨rfl, Context.sought_of_renew hfault⟩

end Table

namespace Session

variable {s t : Session} {argument : Text} {suggestion : Suggestion} {completion : Completion}

/-- **After an update that went well every argument has a suggestion that was looked up for it.** -/
theorem sought_update {i : Nat} {kind : ArgumentKind} (hok : s.update.answer = .ok ())
    (hentry : s.update.session.analysis.table[i]? = some (kind, suggestion)) :
    ∃ argument r, s.update.session.arguments[i]? = some argument ∧
      s.update.session.analysis.readings[i]? = some r ∧ kind = r.kind ∧
      suggestion.Sought s.update.session.context r.kind argument := by
  have hfault := update_answer_eq_ok_iff.mp hok
  rcases Table.entry_refresh hentry with ⟨argument, r, d, hitem, halike, htreated, hgood⟩ | hold
  · obtain ⟨hkind, hsought⟩ := Table.sought_treat (hgood hfault) htreated
    obtain ⟨hargument, hreading⟩ := List.getElem?_zip_eq_some.mp hitem
    have halike' : d.Alike s.update.session.context :=
      halike.symm.trans (s.alike_noticed.symm.trans s.alike_update)
    exact ⟨argument, r, hargument, hreading, hkind, hsought.of_alike halike'⟩
  · exact absurd hfault hold.1

/-- The current argument is a path that points nowhere. -/
def Astray (s : Session) : Prop :=
  ∃ argument r, s.arguments[s.analysis.current]? = some argument ∧
    s.analysis.readings[s.analysis.current]? = some r ∧ r.kind = .path ∧
    s.context.target argument = .ok none

theorem astray_iff {r : Reading} (hargument : s.arguments[s.analysis.current]? = some argument)
    (hreading : s.analysis.readings[s.analysis.current]? = some r) :
    s.Astray ↔ r.kind = .path ∧ s.context.target argument = .ok none := by
  constructor
  · rintro ⟨argument', r', hargument', hreading', hpath, hnowhere⟩
    rw [hargument, Option.some.injEq] at hargument'
    rw [hreading, Option.some.injEq] at hreading'
    subst hargument' hreading'
    exact ⟨hpath, hnowhere⟩
  · rintro ⟨hpath, hnowhere⟩
    exact ⟨argument, r, hargument, hreading, hpath, hnowhere⟩

/-- In an empty line there is no argument that could go astray. -/
theorem not_astray_of_nil (hs : InStep s) (hnil : s.text = []) : ¬ s.Astray := by
  rintro ⟨argument, r, hargument, -⟩
  rw [arguments, hs.spans, hnil] at hargument
  cases hargument

/-- The suggestion that an argument of the line has was looked up for the argument. -/
theorem sought_of_holds {i : Nat} (hok : s.update.answer = .ok ())
    (h : s.update.session.Holds i argument suggestion) :
    ∃ r, s.update.session.arguments[i]? = some argument ∧
      s.update.session.analysis.readings[i]? = some r ∧
      suggestion.Sought s.update.session.context r.kind argument := by
  obtain ⟨span, kind, hspan, hentry, rfl⟩ := h
  obtain ⟨argument, r, hargument, hreading, rfl, hsought⟩ := sought_update hok hentry
  have hsame : s.update.session.arguments[i]? = some (span.of s.update.session.text) := by
    rw [arguments, List.getElem?_map, hspan, Option.map_some]
  rw [hsame, Option.some.injEq] at hargument
  subst hargument
  exact ⟨r, hsame, hreading, hsought⟩

/-- After an action that went well the suggestion that is offered is the current argument's. -/
theorem holds_of_perform {a : Action} {draft : Session} (hdraft : s.draft? a = some draft)
    (hok : (s.perform a).answer.isOk) (hne : (s.perform a).session.text ≠ [])
    (hoffered : (s.perform a).session.currentArgument.answer = .ok (argument, suggestion)) :
    (s.perform a).session.Holds (s.perform a).session.analysis.current argument suggestion := by
  obtain ⟨argument', suggestion', hholds⟩ := exists_holds_of_perform hdraft hok hne
  rw [currentArgument_of_holds hholds] at hoffered
  cases hoffered
  exact hholds

/-- As long as nothing is typed an argument is not completed to its placeholder. -/
theorem placeholder_ne_of_completion (h : completion? argument suggestion = some completion)
    (hnil : Target.unclosed (argument.drop suggestion.skip) = []) :
    suggestion.best ≠ suggestion.placeholder := by
  intro hshown
  unfold completion? at h
  split at h
  · cases h
  next best hbest =>
    rw [Target.unclosed] at hnil
    simp only [hnil, hshown, decide_true, Bool.and_self, if_true] at h
    split at h <;> cases h

/-- **What an argument is completed to** is one of its choices, unless it is a path that points
nowhere; then there are no choices, and it is the placeholder, which goes on what was typed. -/
theorem best_of_sought {c : Context} {kind : ArgumentKind} (h : suggestion.Sought c kind argument)
    (hcompletion : completion? argument suggestion = some completion) {best : Text}
    (hbest : suggestion.best = some best) :
    (¬ (kind = .path ∧ c.target argument = .ok none) → best ∈ suggestion.choices) ∧
      (kind = .path → c.target argument = .ok none →
        suggestion.choices = [] ∧ suggestion.placeholder = some best ∧
          Target.unclosed argument ≠ [] ∧ Target.unclosed argument <+: best) := by
  have hshown := placeholder_ne_of_completion hcompletion
  rw [hbest] at hshown
  by_cases hkind : kind = .path
  · obtain ⟨target, htarget, hfor, hfocus⟩ := h.path hkind
    rw [hbest] at hfocus
    rw [htarget]
    cases target with
    | none =>
      obtain ⟨hchoices, hskip⟩ := hfor
      have hplaceholder : suggestion.placeholder = some best := by
        simp only [Option.elim, Suggestion.bestFor, hchoices, if_true] at hfocus
        split at hfocus
        next shown hshown' => rw [hshown', hfocus]
        next => cases hfocus
      obtain ⟨-, hparts, -⟩ := parts_of_completion hcompletion
      rw [hskip, List.drop_zero] at hshown hparts
      rw [hbest, Option.some.injEq] at hparts
      refine ⟨fun hnot => absurd ⟨hkind, rfl⟩ hnot, fun _ _ => ⟨hchoices, hplaceholder, ?_, ?_⟩⟩
      · exact fun hnil => hshown hnil hplaceholder.symm
      · exact ⟨completion.missing, hparts.symm⟩
    | some target =>
      refine ⟨fun _ => ?_, fun _ hnowhere => by cases hnowhere⟩
      refine Suggestion.mem_choices_of_bestFor hfocus.symm fun htyped => hshown ?_
      -- What is typed is the same for the completion as for the target.
      have htyped' := Target.typed_of_resolve (Context.resolve_of_target htarget)
      change suggestion.skip = target.skip at hfor
      rw [hfor, ← htyped']
      exact htyped
  · refine ⟨fun _ => ?_, fun hpath => absurd hpath hkind⟩
    have hfocus := h.whole hkind
    rw [hbest] at hfocus
    refine Suggestion.mem_choices_of_bestFor hfocus.symm fun hnil => hshown ?_
    rw [hnil, List.drop_nil, Target.unclosed_nil]

/-- A line without an argument is completed to one of the programs. -/
theorem best_mem_of_unpaired {best : Text} (h : s.analysis.spans.zip s.analysis.table = [])
    (hoffered : s.currentArgument.answer = .ok (argument, suggestion))
    (hbest : suggestion.best = some best) : best ∈ suggestion.choices := by
  rw [currentArgument_of_unpaired h] at hoffered
  cases hnames : s.context.programs.2 with
  | error fault => rw [hnames] at hoffered; cases hoffered
  | ok names =>
    rw [hnames] at hoffered
    cases hoffered
    have hfocus : (Suggestion.forProgram names [] none).bestFor [] = some best := hbest
    exact Suggestion.mem_choices_of_bestFor hfocus fun _ => nofun

/-- **What the current argument is completed to is one of its choices exactly if it is no path that
points nowhere.**  After any events let an action come to an update that goes well, and let
completing then change the text.  What the current argument is completed to is what fits it best.
If the argument is a path that points nowhere, that is its placeholder and no choice, and what was
typed of it, which is not nothing, is the start of the placeholder. -/
theorem best_mem_choices_iff (context : Context) (capacity : Int) (events : List Event) (a : Action)
    (draft : Session) (hdraft : ((start context capacity).follow events).draft? a = some draft)
    (hok : (((start context capacity).follow events).perform a).answer.isOk)
    (hchanged : let s := (((start context capacity).follow events).perform a).session
      (s.perform .accept).session.text ≠ s.text) :
    let s := (((start context capacity).follow events).perform a).session
    ∃ argument suggestion best, s.currentArgument.answer = .ok (argument, suggestion) ∧
      suggestion.best = some best ∧
      (best ∈ suggestion.choices ↔ ¬ s.Astray) ∧
      (s.Astray → suggestion.choices = [] ∧ suggestion.placeholder = some best ∧
        Target.unclosed argument ≠ [] ∧ Target.unclosed argument <+: best) := by
  intro s
  have hs : InStep s := (inStep_follow context capacity events).perform a
  by_cases hnil : s.text = []
  · -- In an empty line the first program is put in.
    obtain ⟨suggestion, completion, hoffered, hcompletion, -⟩ := text_of_accept_nil hs hnil hchanged
    obtain ⟨-, hbest, -⟩ := parts_of_completion hcompletion
    have hspans : s.analysis.spans = [] := by
      rw [hs.spans, hnil]
      rfl
    have hstray := not_astray_of_nil hs hnil
    have hmem := best_mem_of_unpaired (by rw [hspans]; rfl) hoffered hbest
    exact ⟨[], suggestion, _, hoffered, hbest, iff_of_true hmem hstray, fun h => absurd h hstray⟩
  · obtain ⟨argument, suggestion, completion, hoffered, hcompletion, -⟩ :=
      putIn_of_accept hs hnil hchanged
    obtain ⟨-, hbest, -⟩ := parts_of_completion hcompletion
    have hholds : s.Holds s.analysis.current argument suggestion :=
      holds_of_perform hdraft hok hnil hoffered
    -- The update behind the action tells where the choices come from.
    have hfollows := perform_of_draft hdraft
    have hsession : s = draft.update.session := hfollows.1
    rw [hsession] at hholds
    obtain ⟨r, hargument, hreading, hsought⟩ :=
      sought_of_holds (hfollows.update_of_isOk hok) hholds
    rw [← hsession] at hargument hreading hsought
    have hstray := astray_iff hargument hreading
    obtain ⟨hmem, hnowhere⟩ := best_of_sought hsought hcompletion hbest
    refine ⟨argument, suggestion, _, hoffered, hbest, ⟨?_, fun h => hmem (mt hstray.mpr h)⟩, ?_⟩
    · intro hchoice h
      rw [(hnowhere (hstray.mp h).1 (hstray.mp h).2).1] at hchoice
      cases hchoice
    · exact fun h => hnowhere (hstray.mp h).1 (hstray.mp h).2

/-- A name that is typed is completed to a file of its directory, whatever would be shown for it. -/
theorem best_mem_choices_iff_sample :
    let a := Action.insert ['c', 'c', ' ', '/', 'b', '/', 'l']
    let outcome := (start .schooled 80).perform a
    let s := outcome.session
    (∃ draft, (start .schooled 80).draft? a = some draft) ∧ outcome.answer.isOk ∧
      (s.perform .accept).session.text ≠ s.text ∧
      ∃ argument suggestion, s.currentArgument.answer = .ok (argument, suggestion) ∧
        suggestion.placeholder = some ['q', '/', 'r', '/', 's'] ∧
        ∃ best ∈ suggestion.choices, suggestion.best = some best := by
  intro a outcome s
  have hdraft : ∃ draft, (start .schooled 80).draft? a = some draft := ⟨_, rfl⟩
  have hok : outcome.answer.isOk := by decide +kernel
  have hchanged : (s.perform .accept).session.text ≠ s.text := by decide +kernel
  obtain ⟨draft, hdraft'⟩ := hdraft
  -- The argument is a path with a target, so the placeholder does not stand in for choices.
  obtain ⟨argument, suggestion, best, hoffered, hbest, hiff, -⟩ :=
    best_mem_choices_iff .schooled 80 [] a draft hdraft' hok hchanged
  have hstray : ¬ s.Astray := by
    rintro ⟨argument, r, hargument, -, -, hnowhere⟩
    have hargument' : s.arguments[s.analysis.current]? = some ['/', 'b', '/', 'l'] := by
      decide +kernel
    have htarget : s.context.target ['/', 'b', '/', 'l'] =
        .ok (some ⟨⟨.single, [['b']]⟩, 3, ['l']⟩) := by decide +kernel
    rw [hargument', Option.some.injEq] at hargument
    rw [← hargument, htarget] at hnowhere
    cases hnowhere
  have hplaceholder : (s.currentArgument.answer.toOption.bind (·.2.placeholder)) =
      some ['q', '/', 'r', '/', 's'] := by decide +kernel
  have hoffered' : s.currentArgument.answer = .ok (argument, suggestion) := hoffered
  rw [hoffered'] at hplaceholder
  exact ⟨⟨draft, hdraft'⟩, hok, hchanged, argument, suggestion, hoffered, hplaceholder, best,
    hiff.mpr hstray, hbest⟩

/-- A path that points nowhere is completed to what is shown for it. -/
theorem accept_placeholder :
    let s := ((start .schooled 80).perform (.insert ['c', 'c', ' ', 'q', '/', 'r', '/'])).session
    ((start .schooled 80).perform (.insert ['c', 'c', ' ', 'q', '/', 'r', '/'])).answer = .ok none ∧
      (∃ suggestion, s.currentArgument.answer = .ok (['q', '/', 'r', '/'], suggestion) ∧
        suggestion.best = some ['q', '/', 'r', '/', 's'] ∧ suggestion.choices = [] ∧
        suggestion.placeholder = some ['q', '/', 'r', '/', 's']) ∧
      (s.perform .accept).session.text = ['c', 'c', ' ', 'q', '/', 'r', '/', 's'] ∧
      (s.perform .accept).answer = .ok (some true) := by
  refine ⟨by decide +kernel, ⟨_, rfl, rfl, rfl, rfl⟩, by decide +kernel, by decide +kernel⟩

end Session

end Typeahead
