import Typeahead.Proofs.Session.Rebuild
import Typeahead.Proofs.World.Programs

/-!
# When an action fails

An argument for a program or for plain text can always be suggested something, as long as the search
path is clean.  An argument for a path asks the world for a directory: it gets no choices if there
is none or if it cannot be listed, but where the question itself is refused the suggestion cannot be
had, and the action that led to it fails.

## Main definitions

* `Target.Unlistable` — there are no names for a path argument, whatever the reason.

## Main results

* `Table.build_fails_iff` — building a table fails exactly if a path argument of it is refused.
* `Session.perform_fails_iff` — **an action fails exactly if it came to an update and left a path
  argument in the line whose lookup is refused.**
-/

namespace Typeahead

/-- There are no names for a path argument: it points to no directory, or to one that cannot be
listed. -/
def Target.Unlistable (w : World) (here : Path) (argument : Text) : Prop :=
  ∀ target, resolve w here argument = .ok (some target) →
    ∃ fault, w.list target.directory.toText = .error fault

namespace Context

variable {c d : Context} {argument : Text} {r : Reading} {fault : Fault} {names : List Text}

/-- The target of an argument is refused. -/
def Refused (c : Context) (argument : Text) (fault : Fault) : Prop :=
  ∃ refusal, Target.Refused c.world c.here argument refusal ∧ fault = .path refusal

theorem target_eq_error_iff : c.target argument = .error fault ↔ c.Refused argument fault := by
  simp only [target, Refused, ← Target.resolve_eq_error_iff]
  cases Target.resolve c.world c.here argument with
  | ok target => simp
  | error refusal =>
    simp only [Except.error.injEq, exists_eq_left']
    exact eq_comm

/-- A suggestion cannot be had exactly if it is for a path and its target is refused. -/
theorem suggest_eq_error_iff (hnames : c.programs.2 = .ok names) :
    (c.suggest argument r).2 = .error fault ↔ r.kind = .path ∧ c.Refused argument fault := by
  rw [suggest_snd, ← target_eq_error_iff]
  cases r.kind with
  | program => simp [hnames, Except.map]
  | path => cases c.target argument <;> simp [Except.map]
  | text => simp

/-- A new suggestion for a path that has no names has no choices. -/
theorem choices_of_unlistable {s : Suggestion} (hs : (c.suggest argument r).2 = .ok s)
    (hkind : r.kind = .path) (h : Target.Unlistable c.world c.here argument) : s.choices = [] := by
  rw [suggest_snd, hkind] at hs
  dsimp only at hs
  unfold target at hs
  cases hresolve : Target.resolve c.world c.here argument with
  | error refusal => rw [hresolve] at hs; cases hs
  | ok target =>
    rw [hresolve] at hs
    cases hs
    cases target with
    | none => rfl
    | some target =>
      obtain ⟨fault, hlist⟩ := h target hresolve
      simp only [Suggestion.forTarget, Suggestion.focus, Suggestion.ofChoices, World.choices, hlist]

end Context

namespace Table

variable {c : Context} {items : List (Text × Reading)} {table : Table} {names : List Text}

/-- Building a table fails by a path argument that is refused. -/
theorem refused_of_build {fault : Fault} (hnames : c.programs.2 = .ok names)
    (h : build c items = .error fault) :
    ∃ item ∈ items, item.2.kind = .path ∧ c.Refused item.1 fault := by
  -- By induction on the items: the first one that fails gives the fault.
  induction items with
  | nil => cases h
  | cons item rest ih =>
    obtain ⟨argument, r⟩ := item
    simp only [build] at h
    cases hs : (c.suggest argument r).2 with
    | error met =>
      rw [hs] at h
      cases h
      exact ⟨_, List.mem_cons_self, (Context.suggest_eq_error_iff hnames).mp hs⟩
    | ok s =>
      rw [hs] at h
      cases hrest : build c rest with
      | error met =>
        rw [hrest] at h
        cases h
        obtain ⟨item, hmem, hitem⟩ := ih hrest
        exact ⟨item, List.mem_cons_of_mem _ hmem, hitem⟩
      | ok others => rw [hrest] at h; cases h

/-- A table that was built has the new suggestion of every argument in its place. -/
theorem getElem?_build (h : build c items = .ok table) {i : Nat} {argument : Text} {r : Reading}
    (hi : items[i]? = some (argument, r)) :
    ∃ s, (c.suggest argument r).2 = .ok s ∧ table[i]? = some (r.kind, s) := by
  -- By induction on the items, each of which has been answered for the whole to be.
  induction items generalizing table i with
  | nil => cases hi
  | cons item rest ih =>
    obtain ⟨first, r'⟩ := item
    simp only [build] at h
    cases hs : (c.suggest first r').2 with
    | error fault => rw [hs] at h; cases h
    | ok s =>
      rw [hs] at h
      cases hrest : build c rest with
      | error fault => rw [hrest] at h; cases h
      | ok others =>
        rw [hrest] at h
        cases h
        cases i with
        | zero =>
          cases hi
          exact ⟨s, hs, rfl⟩
        | succ i => exact ih hrest hi

/-- **Building a table fails exactly if a path argument is refused.** -/
theorem build_fails_iff (hnames : c.programs.2 = .ok names) :
    (∃ fault, build c items = .error fault) ↔
      ∃ item ∈ items, item.2.kind = .path ∧
        ∃ refusal, Target.Refused c.world c.here item.1 refusal := by
  constructor
  · rintro ⟨fault, hfault⟩
    obtain ⟨item, hitem, hkind, refusal, hrefused, -⟩ := refused_of_build hnames hfault
    exact ⟨item, hitem, hkind, refusal, hrefused⟩
  · rintro ⟨⟨argument, r⟩, hitem, hkind, refusal, hrefused⟩
    cases hbuild : build c items with
    | error met => exact ⟨met, rfl⟩
    | ok table =>
      -- A table that was built has a suggestion for this argument, which is refused.
      obtain ⟨i, hi⟩ := List.getElem?_of_mem hitem
      obtain ⟨s, hs, -⟩ := getElem?_build hbuild hi
      rw [(Context.suggest_eq_error_iff hnames).mpr ⟨hkind, refusal, hrefused, rfl⟩] at hs
      cases hs

end Table

namespace Session

/-- The current argument can always be told if the programs can. -/
theorem currentArgument_ne_error {s : Session} {names : List Text}
    (h : s.context.programs.2 = .ok names) (fault : Fault) :
    s.currentArgument.answer ≠ .error fault := by
  intro hfault
  unfold currentArgument at hfault
  split at hfault
  · rw [s.context.programs_eq, h] at hfault
    cases hfault
  · cases hfault

/-- An action without a draft does not fail. -/
theorem perform_ne_error {s : Session} {a : Action} {names : List Text}
    (hnames : s.context.programs.2 = .ok names) (h : s.draft? a = none) (fault : Fault) :
    (s.perform a).answer ≠ .error fault := by
  intro hfault
  rcases perform_of_no_draft h with ⟨answer, hperform⟩ | ⟨t, hspared, hnone, hperform⟩
  · rw [hperform] at hfault
    cases hfault
  · have hoffered := currentArgument_ne_error (hspared.context.programs.trans hnames)
    rw [hperform, accept_eq, hnone] at hfault
    simp only [told] at hfault
    cases hanswer : t.currentArgument.answer with
    | error met => exact hoffered met hanswer
    | ok offered => rw [hanswer] at hfault; cases hfault

/-! ### Updates of settled lines -/

section Update

variable {s : Session} {names : List Text}

theorem update_error_iff {fault : Fault} (h : Settled s) :
    s.update.answer = .error fault ↔ Table.build s.context s.items = .error fault := by
  rw [← table_update h, update_answer]
  cases s.refreshed.fault <;> simp [unlessFault]

theorem build_of_update (h : Settled s) (hok : s.update.answer = .ok ()) :
    Table.build s.context s.items = .ok s.update.session.analysis.table := by
  rw [← table_update h, update_session, update_answer_eq_ok_iff.mp hok]
  rfl

/-- **An update of a settled line fails exactly if a path argument is refused.** -/
theorem update_fails_iff (h : Settled s) (hnames : s.context.programs.2 = .ok names) :
    (∃ fault, s.update.answer = .error fault) ↔
      ∃ item ∈ s.items, item.2.kind = .path ∧
        ∃ refusal, Target.Refused s.context.world s.context.here item.1 refusal := by
  rw [← Table.build_fails_iff hnames]
  exact exists_congr fun _ => update_error_iff h

theorem isRefusal_of_update {fault : Fault} (h : Settled s)
    (hnames : s.context.programs.2 = .ok names) (hfault : s.update.answer = .error fault) :
    ∃ refusal : PathFault, refusal.IsRefusal ∧ fault = .path refusal := by
  obtain ⟨item, -, -, refusal, hrefused, rfl⟩ :=
    Table.refused_of_build hnames ((update_error_iff h).mp hfault)
  exact ⟨refusal, hrefused.isRefusal, rfl⟩

/-- If an update of a settled line goes well, a path argument that has no names has no choices. -/
theorem choices_of_update {i : Nat} {argument : Text} {r : Reading} (h : Settled s)
    (hok : s.update.answer = .ok ()) (hi : s.items[i]? = some (argument, r))
    (hkind : r.kind = .path)
    (hunlistable : Target.Unlistable s.context.world s.context.here argument) :
    ∃ suggestion, s.update.session.analysis.table[i]? = some (.path, suggestion) ∧
      suggestion.choices = [] := by
  obtain ⟨suggestion, hs, hentry⟩ := Table.getElem?_build (build_of_update h hok) hi
  exact ⟨suggestion, hkind ▸ hentry, Context.choices_of_unlistable hs hkind hunlistable⟩

end Update

/-- **An action fails exactly if it came to an update and there is a path argument in the line then
whose lookup is refused.**  This is so after any actions in any world, wherever paths are seen from
and whatever the grammars, if only the search path is free of the null character.  The fault is then
a refusal; and if there is none, the path arguments that have no names have no choices. -/
theorem perform_fails_iff (w : World) (here : Path) (grammars : List Grammar) (platform : Platform)
    (searchPath extensions : Text) (journal : List Notice) (capacity : Int) (actions : List Action)
    (a : Action) (h : '\x00' ∉ searchPath) :
    let context : Context := ⟨w, here, grammars, .ofTexts platform searchPath extensions, journal⟩
    let s := (start context capacity).run actions
    let outcome := s.perform a
    ((∃ fault, outcome.answer = .error fault) ↔
      (s.draft? a).isSome ∧ ∃ item ∈ outcome.session.items,
        item.2.kind = .path ∧ ∃ refusal, Target.Refused w here item.1 refusal) ∧
    (∀ fault, outcome.answer = .error fault →
      ∃ refusal : PathFault, refusal.IsRefusal ∧ fault = .path refusal) ∧
    ((s.draft? a).isSome → outcome.answer.isOk →
      ∀ (i : Nat) (argument : Text) (r : Reading),
        outcome.session.items[i]? = some (argument, r) → r.kind = .path →
          Target.Unlistable w here argument →
            ∃ suggestion, outcome.session.analysis.table[i]? = some (.path, suggestion) ∧
              suggestion.choices = []) := by
  intro context s outcome
  have hsteady : Steady context capacity s := steady_run context capacity actions
  -- Asking for the programs never fails, so that every fault is one of a path.
  obtain ⟨names, hnames⟩ : ∃ names, context.programs.2 = .ok names :=
    Catalog.names_of_clean (Catalog.clean_ofTexts platform h extensions) w
  -- Without a line to be updated nothing fails; otherwise everything is known from the update.
  cases hdraft : s.draft? a with
  | none =>
    have hnone := perform_ne_error (hsteady.context.programs.trans hnames) hdraft
    refine ⟨⟨?_, ?_⟩, ?_, ?_⟩
    · rintro ⟨fault, hfault⟩
      exact absurd hfault (hnone fault)
    · rintro ⟨hsome, -⟩
      cases hsome
    · intro fault hfault
      exact absurd hfault (hnone fault)
    · intro hsome
      cases hsome
  | some draft =>
    have hfollows := perform_of_draft hdraft
    have hafter : Steady context capacity draft := hsteady.of_draft (.of_draft hdraft)
    have hprograms := hafter.context.programs.trans hnames
    have hsession : outcome.session = draft.update.session := hfollows.1
    -- The items, the world and the place it is seen from are those of that line.
    have hitems : outcome.session.items = draft.items := by
      rw [hsession]
      exact items_congr draft.alike_update rfl
    have hworld : draft.context.world = w := hafter.context.world
    have hhere : draft.context.here = here := hafter.context.here
    rw [hitems, ← hworld, ← hhere]
    refine ⟨?_, ?_, ?_⟩
    · have hfault : ∀ fault, outcome.answer = .error fault ↔ draft.update.answer = .error fault :=
        fun _ => hfollows.error_iff
      simp only [hfault, update_fails_iff hafter.settled hprograms, Option.isSome_some, true_and]
    · intro fault hfault
      exact isRefusal_of_update hafter.settled hprograms (hfollows.error_iff.mp hfault)
    · intro _ hok i argument r hi hkind hunlistable
      rw [hsession]
      exact choices_of_update hafter.settled (hfollows.update_of_isOk hok) hi hkind hunlistable

/-- Behind a locked directory an action fails; the locked directory itself has no names, and its
argument gets no choices. -/
theorem perform_fails_iff_sample :
    let refused := (start .sample 80).perform (.insert ['a', ' ', '/', 'p', '/', 'q', '/'])
    let unlisted := (start .sample 80).perform (.insert ['a', ' ', '/', 'p', '/'])
    (∃ fault, refused.answer = .error fault) ∧
      ∃ suggestion, unlisted.session.analysis.table[1]? = some (.path, suggestion) ∧
        suggestion.choices = [] := by
  have hclean : '\x00' ∉ (['/', 'b'] : Text) := by decide
  have hlines := perform_fails_iff .sample ⟨.single, []⟩ [] .posix ['/', 'b'] [] [] 80 []
  refine ⟨(hlines _ hclean).1.mpr ⟨rfl, ?_⟩, ?_⟩
  · exact ⟨_, List.mem_cons_of_mem _ List.mem_cons_self, rfl, .denied, Or.inl ⟨rfl, Or.inl rfl⟩⟩
  · refine (hlines _ hclean).2.2 rfl rfl 1 ['/', 'p', '/'] .plainPath rfl rfl ?_
    intro target htarget
    cases htarget
    exact ⟨.denied, rfl⟩

/-- The permission to look behind a locked directory is not granted, and the action that asks for it
fails. -/
theorem perform_denied :
    ((start .sample 80).perform (.insert ['a', ' ', '/', 'p', '/', 'q', '/'])).answer =
      .error (.path .denied) := rfl

end Session

end Typeahead
