import Typeahead.Proofs.Session.Operation
import Typeahead.Proofs.Session.Same

/-!
# Updating a line again

An update may make suggestions, keep some with the choices that were listed long ago, list others
again, drop some, or fail at any argument and leave those behind it as they were for another text.
Whatever it does, there is nothing left to do for another one: it finds every suggestion that was
treated up to date, stops where the first one stopped, for the same reason, and leaves nothing new
but notices.  In particular it does not ask for the programs again, so that a change of the world
that comes later is seen or missed no matter how often the line was updated before.

The reason is that renewing a suggestion twice is renewing it once, and that a new suggestion is a
bare one renewed.

## Main definitions

* `Context.Noted`, `Session.Noted` — more notices, and nothing else.

## Main results

* `Context.renew_renew` — a renewed suggestion stays as it is.
* `Context.suggest_eq_renew` — **a new suggestion is a bare one renewed.**
* `Table.treat_treat`, `Table.refresh_refresh` — so stays what was treated, and a whole table.
* `Session.update_again` — **updating again, however often, changes nothing.**
-/

namespace Typeahead

/-! ### More notices -/

/-- `c.Noted d` says that `d` is `c` with more notices in its journal. -/
def Context.Noted (c d : Context) : Prop := ∃ notices, d = c.note notices

/-- `s.Noted t` says that `t` is `s` with more notices in its journal. -/
def Session.Noted (s t : Session) : Prop := ∃ c, s.context.Noted c ∧ t = { s with context := c }

namespace Context

variable {c d e : Context} {argument : Text} {r : Reading} {s : Suggestion}

namespace Noted

protected theorem refl (c : Context) : Noted c c := by
  refine ⟨[], ?_⟩
  simp only [note, List.append_nil]

protected theorem note (c : Context) (notices : List Notice) : Noted c (c.note notices) :=
  ⟨notices, rfl⟩

protected theorem trans (h : Noted c d) (h' : Noted d e) : Noted c e := by
  obtain ⟨first, rfl⟩ := h
  obtain ⟨second, rfl⟩ := h'
  refine ⟨first ++ second, ?_⟩
  simp only [Context.note, List.append_assoc]

theorem alike (h : Noted c d) : Alike c d := by
  obtain ⟨notices, rfl⟩ := h
  exact c.alike_note notices

end Noted

/-! ### Where nothing is listed -/

/-- Asking for the programs in vain does not make them known. -/
theorem noted_programs_of_error {fault : Fault} (h : c.programs.2 = .error fault) :
    Noted c c.programs.1 := by
  refine ⟨(c.catalog.names c.world).2.1, ?_⟩
  suffices hcatalog : (c.catalog.names c.world).1 = c.catalog by
    simp only [programs, hcatalog]
  have hnames : (c.catalog.names c.world).2.2 = .error fault := h
  unfold Catalog.names at hnames ⊢
  cases hknown : c.catalog.known with
  | some known => rfl
  | none =>
    rcases hfound : c.catalog.gather c.world with ⟨notices, fault' | found⟩
    · rfl
    · rw [hknown, hfound] at hnames
      cases hnames

/-- A suggestion that cannot be made leaves nothing but notices. -/
theorem noted_suggest_of_error {fault : Fault} (h : (c.suggest argument r).2 = .error fault) :
    Noted c (c.suggest argument r).1 := by
  unfold suggest at h ⊢
  cases hkind : r.kind with
  | program =>
    simp only [hkind] at h ⊢
    rw [programs_eq] at h ⊢
    cases hnames : c.programs.2 with
    | error fault => exact noted_programs_of_error hnames
    | ok names => rw [hnames] at h; cases h
  | path =>
    simp only [hkind] at h ⊢
    cases htarget : c.target argument with
    | error fault => exact .refl c
    | ok target => exact .note c _
  | text => exact .refl c

/-- A suggestion that has the programs for its choices is renewed without asking for them. -/
theorem renew_of_scope (hkind : r.kind = .program) (hscope : s.scope = some .programs) :
    c.renew argument r s =
      ⟨c, { s with placeholder := r.placeholder }.renewProgram [] argument, none⟩ := by
  simp only [renew, hkind, hscope, if_true]

/-- Nothing is listed for a suggestion that has the programs for its choices if they are what is
asked for. -/
theorem noted_renew_of_scope (h : r.kind = .program → s.scope = some .programs) :
    Noted c (c.renew argument r s).context := by
  cases hkind : r.kind with
  | program =>
    rw [renew_of_scope hkind (h hkind)]
    exact .refl c
  | path =>
    cases htarget : c.target argument with
    | error fault =>
      simp only [renew, hkind, htarget]
      exact .refl c
    | ok target =>
      rw [renew_path hkind htarget]
      exact .note c _
  | text =>
    simp only [renew, hkind]
    exact .refl c

/-- A suggestion that cannot be renewed leaves nothing but notices. -/
theorem noted_renew_of_fault {fault : Fault} (h : (c.renew argument r s).fault = some fault) :
    Noted c (c.renew argument r s).context := by
  by_cases hscope : r.kind = .program → s.scope = some .programs
  · exact noted_renew_of_scope hscope
  · obtain ⟨hkind, hother⟩ := Classical.not_imp.mp hscope
    simp only [renew, hkind, if_neg hother] at h ⊢
    rw [programs_eq] at h ⊢
    cases hnames : c.programs.2 with
    | error fault => exact noted_programs_of_error hnames
    | ok names => rw [hnames] at h; cases h

end Context

/-! ### Renewing a suggestion again -/

namespace Suggestion

theorem renewProgram_renewProgram (s : Suggestion) (names names' : List Text) (argument : Text) :
    (s.renewProgram names argument).renewProgram names' argument =
      s.renewProgram names argument := rfl

theorem renewTarget_renewTarget (w : World) (s : Suggestion) (target : Option Target) :
    ((s.renewTarget w target).2.renewTarget w target).2 = (s.renewTarget w target).2 := by
  cases target with
  | none => rfl
  | some target =>
    simp only [renewTarget]
    split <;> simp [focus, bestFor, *]

theorem placeholder_renewTarget (w : World) (s : Suggestion) (target : Option Target) :
    (s.renewTarget w target).2.placeholder = s.placeholder := by
  cases target with
  | none => rfl
  | some target =>
    simp only [renewTarget]
    split <;> rfl

end Suggestion

namespace Context

variable {c d : Context} {argument : Text} {r : Reading} {s : Suggestion}

/-- What was shown before does not matter for a renewal. -/
theorem renew_placeholder (c : Context) (argument : Text) (r : Reading) (s : Suggestion)
    (placeholder : Option Text) :
    c.renew argument r { s with placeholder } = c.renew argument r s := rfl

/-- A program's suggestion is renewed with some names, unless there was a fault. -/
theorem renew_program (hkind : r.kind = .program) (h : (c.renew argument r s).fault = none) :
    ∃ names, (c.renew argument r s).suggestion =
      { s with placeholder := r.placeholder }.renewProgram names argument := by
  unfold renew at h ⊢
  simp only [hkind] at h ⊢
  split
  · exact ⟨[], rfl⟩
  next hscope =>
    rw [if_neg hscope, programs_eq] at h
    rw [programs_eq]
    cases hnames : c.programs.2 with
    | ok names => exact ⟨names, rfl⟩
    | error fault => rw [hnames] at h; cases h

/-- In one context a renewed suggestion stays as it is, with the same fault if there was one. -/
theorem renew_renew_self (c : Context) (argument : Text) (r : Reading) (s : Suggestion) :
    let once := c.renew argument r s
    (c.renew argument r once.suggestion).suggestion = once.suggestion ∧
      (c.renew argument r once.suggestion).fault = once.fault := by
  intro once
  -- After a fault nothing but the placeholder is new, and it is the same the second time.
  cases hfault : once.fault with
  | some fault =>
    have honce : once.suggestion = { s with placeholder := r.placeholder } :=
      Suggestion.renew_of_fault hfault
    rw [honce, renew_placeholder]
    exact ⟨honce, hfault⟩
  | none =>
    let shown : Suggestion := { s with placeholder := r.placeholder }
    cases hkind : r.kind with
    | program =>
      obtain ⟨names, honce⟩ : ∃ names, once.suggestion = shown.renewProgram names argument :=
        renew_program hkind hfault
      rw [honce, renew_of_scope hkind rfl]
      exact ⟨Suggestion.renewProgram_renewProgram shown names [] argument, rfl⟩
    | path =>
      cases htarget : c.target argument with
      | error fault =>
        simp only [once, renew, hkind, htarget] at hfault
        cases hfault
      | ok target =>
        have honce : once.suggestion = (shown.renewTarget c.world target).2 := by
          simp only [once, renew_path hkind htarget, shown]
        -- The placeholder is the one of the reading already.
        have hshown : { once.suggestion with placeholder := r.placeholder } = once.suggestion := by
          rw [honce]
          exact congrArg (fun p => { (shown.renewTarget c.world target).2 with placeholder := p })
            (Suggestion.placeholder_renewTarget c.world shown target).symm
        rw [renew_path hkind htarget]
        dsimp only
        rw [hshown, honce]
        exact ⟨Suggestion.renewTarget_renewTarget c.world shown target, rfl⟩
    | text =>
      simp only [once, renew, hkind]
      exact ⟨rfl, trivial⟩

/-- **A renewed suggestion stays as it is** when it is renewed again, with the same fault if there
was one, and that leaves nothing but notices. -/
theorem renew_renew (h : c.Alike d) (argument : Text) (r : Reading) (s : Suggestion) :
    let once := c.renew argument r s
    let twice := d.renew argument r once.suggestion
    twice.suggestion = once.suggestion ∧ twice.fault = once.fault ∧ Noted d twice.context := by
  intro once twice
  obtain ⟨hsuggestion, hfault⟩ := h.renew_eq argument r once.suggestion
  obtain ⟨hsame, hsamefault⟩ := renew_renew_self c argument r s
  have hfaults : twice.fault = once.fault := hfault.trans hsamefault
  refine ⟨hsuggestion.trans hsame, hfaults, ?_⟩
  -- The choices are there already, so that nothing is listed again.
  cases hgood : once.fault with
  | none =>
    refine noted_renew_of_scope fun hkind => ?_
    obtain ⟨names, honce⟩ := renew_program hkind hgood
    rw [show once.suggestion = _ from honce]
    rfl
  | some fault => exact noted_renew_of_fault (hfaults.trans hgood)

/-- **A new suggestion is a bare one renewed**, and cannot be had where that one cannot be
renewed. -/
theorem suggest_eq_renew (hshown : r.placeholder ≠ some []) (c : Context) (argument : Text) :
    (c.suggest argument r).2 =
      unlessFault (c.renew argument r (.bare r.placeholder)).fault
        (c.renew argument r (.bare r.placeholder)).suggestion := by
  rw [suggest_snd]
  unfold renew
  simp only [Suggestion.bare_of_shown hshown]
  -- For each kind, renewing a bare suggestion gives it the choices that a new one has.
  cases r.kind with
  | program =>
    dsimp only
    rw [if_neg (Option.some_ne_none _).symm, programs_eq]
    cases c.programs.2 with
    | error fault => rfl
    | ok names =>
      simp [Except.map, unlessFault, Suggestion.forProgram, Suggestion.renewProgram,
        Suggestion.ofChoices, Suggestion.bare_of_shown hshown]
  | path =>
    dsimp only
    cases c.target argument with
    | error fault => rfl
    | ok target =>
      cases target <;>
        simp [Except.map, unlessFault, Suggestion.forTarget, Suggestion.renewTarget,
          Suggestion.ofChoices, Suggestion.bare_of_shown hshown]
  | text => simp [unlessFault, Suggestion.forText, Suggestion.bare_of_shown hshown]

end Context

/-! ### Treating an argument again -/

namespace Table

variable {c d : Context} {argument : Text} {r : Reading}
  {before : Option (ArgumentKind × Suggestion)}

/-- A treatment that fails leaves nothing but notices. -/
theorem noted_treat_of_fault {fault : Fault} (h : (treat c argument r before).fault = some fault) :
    c.Noted (treat c argument r before).context := by
  rcases treat_eq c argument r before with hanew | ⟨s, -, hrenewed⟩
  · rw [hanew] at h ⊢
    unfold treatAnew at h ⊢
    cases hs : (c.suggest argument r).2 with
    | ok s => rw [hs] at h; cases h
    | error fault => exact Context.noted_suggest_of_error hs
  · rw [hrenewed] at h ⊢
    exact Context.noted_renew_of_fault h

/-- A treatment leaves a renewed entry, or the entry that it failed for. -/
theorem treat_cases (hshown : r.placeholder ≠ some []) (c : Context) (argument : Text)
    (before : Option (ArgumentKind × Suggestion)) :
    (∃ s, (treat c argument r before).entry = some (r.kind, (c.renew argument r s).suggestion) ∧
      (treat c argument r before).fault = (c.renew argument r s).fault) ∨
    ((treat c argument r before).entry = before ∧ (treat c argument r before).fault ≠ none) := by
  rcases treat_eq c argument r before with hanew | ⟨s, -, hrenewed⟩
  · rw [hanew]
    have hsuggest := Context.suggest_eq_renew hshown c argument
    unfold treatAnew
    cases hs : (c.suggest argument r).2 with
    | error fault => exact Or.inr ⟨rfl, nofun⟩
    | ok s =>
      rw [hs] at hsuggest
      obtain ⟨hfault, rfl⟩ := unlessFault_eq_ok_iff.mp hsuggest.symm
      exact Or.inl ⟨_, rfl, hfault.symm⟩
  · rw [hrenewed]
    exact Or.inl ⟨s, rfl, rfl⟩

/-- **A treated entry stays as it is** when its argument is treated again, with the same fault if
there was one, and that leaves nothing but notices. -/
theorem treat_treat (h : c.Alike d) (hshown : r.placeholder ≠ some []) (argument : Text)
    (before : Option (ArgumentKind × Suggestion)) :
    let once := treat c argument r before
    let twice := treat d argument r once.entry
    twice.entry = once.entry ∧ twice.fault = once.fault ∧ d.Noted twice.context := by
  intro once twice
  rcases treat_cases hshown c argument before with ⟨s, hentry, hfault⟩ | ⟨hentry, hfault⟩
  · obtain ⟨hsame, hsamefault, hnoted⟩ := Context.renew_renew h argument r s
    have htwice : twice = treat d argument r (some (r.kind, (c.renew argument r s).suggestion)) :=
      congrArg (treat d argument r) hentry
    simp only [treat, if_true] at htwice
    rw [htwice, show once.entry = _ from hentry, show once.fault = _ from hfault]
    dsimp only
    rw [hsame]
    exact ⟨rfl, hsamefault, hnoted⟩
  · -- The entry is the old one, so the treatment is repeated and fails again.
    obtain ⟨hsame, hsamefault⟩ := treat_congr h argument r before
    obtain ⟨fault, hfailed⟩ := Option.ne_none_iff_exists'.mp hfault
    have htwice : twice = treat d argument r before := congrArg (treat d argument r) hentry
    rw [htwice]
    exact ⟨hsame, hsamefault, noted_treat_of_fault (hsamefault.trans hfailed)⟩

/-! ### Refreshing a table again -/

/-- What a treatment leaves of a table it failed for starts with its entry. -/
theorem treat_tail (c : Context) (argument : Text) (r : Reading) (table : Table) :
    let left : Table := (treat c argument r table.head?).entry.toList ++ table.tail
    left.head? = (treat c argument r table.head?).entry ∧ left.tail = table.tail := by
  cases table with
  | nil =>
    rw [List.head?_nil, List.tail_nil, List.append_nil]
    cases (treat c argument r none).entry <;> exact ⟨rfl, rfl⟩
  | cons before table =>
    obtain ⟨entry, hentry⟩ := exists_entry_treat c argument r before
    rw [List.head?_cons, hentry]
    exact ⟨rfl, rfl⟩

/-- **A refreshed table stays as it is** when it is refreshed again, with the same fault if there
was one, and that leaves nothing but notices. -/
theorem refresh_refresh (h : c.Alike d) {items : List (Text × Reading)} (hshown : Shown items)
    (table : Table) :
    let once := refresh c items table
    let twice := refresh d items once.table
    twice.table = once.table ∧ twice.fault = once.fault ∧ d.Noted twice.context := by
  induction items generalizing c d table with
  | nil =>
    simp only [refresh_nil, true_and]
    exact .refl d
  | cons item rest ih =>
    obtain ⟨argument, r⟩ := item
    obtain ⟨hr, hrest⟩ := List.forall_mem_cons.mp hshown
    obtain ⟨hentry, hsamefault, hnoted⟩ := treat_treat (r := r) h hr argument table.head?
    rw [refresh_cons c]
    cases hfault : (treat c argument r table.head?).fault with
    | none =>
      obtain ⟨entry, hfirst⟩ := entry_of_no_fault hfault
      rw [hfirst] at hentry hsamefault hnoted ⊢
      -- The rest is refreshed in contexts that are alike again.
      have halike := (alike_treat c argument r table.head?).symm.trans (h.trans hnoted.alike)
      obtain ⟨htable, hothers, hlater⟩ := ih halike hrest table.tail
      dsimp only [Option.toList_some, List.singleton_append]
      rw [refresh_cons d, List.head?_cons, List.tail_cons, hentry, hsamefault, hfault]
      exact ⟨congrArg (entry :: ·) htable, hothers, hnoted.trans hlater⟩
    | some fault =>
      obtain ⟨hhead, htail⟩ := treat_tail c argument r table
      dsimp only
      rw [refresh_cons d, hhead, htail, hentry, hsamefault, hfault]
      exact ⟨rfl, rfl, hnoted⟩

end Table

/-! ### Updating again -/

namespace Session

theorem Noted.trans {s t u : Session} (h : Noted s t) (h' : Noted t u) : Noted s u := by
  obtain ⟨c, hc, rfl⟩ := h
  obtain ⟨d, hd, rfl⟩ := h'
  exact ⟨d, hc.trans hd, rfl⟩

/-- An update after an update has the same answer and leaves nothing but notices. -/
theorem update_update (s : Session) :
    s.update.session.update.answer = s.update.answer ∧
      s.update.session.Noted s.update.session.update.session := by
  let t := s.update.session
  have halike : s.context.Alike t.context := s.alike_update
  have hnoticed : s.noticed.Alike t.noticed :=
    s.alike_noticed.symm.trans (halike.trans t.alike_noticed)
  -- The second refresh is one of the same arguments in the table that the first one left.
  have hrefreshed : t.refreshed = Table.refresh t.noticed s.items s.refreshed.table :=
    congrArg (Table.refresh t.noticed · s.refreshed.table) (items_congr halike rfl)
  obtain ⟨htable, hfault, hnoted⟩ : t.refreshed.table = s.refreshed.table ∧
      t.refreshed.fault = s.refreshed.fault ∧ t.noticed.Noted t.refreshed.context := by
    rw [hrefreshed]
    exact Table.refresh_refresh hnoticed s.shown_items s.analysis.table
  refine ⟨?_, t.refreshed.context, (Context.Noted.note _ _).trans hnoted, ?_⟩
  · rw [update_answer, update_answer, hfault]
  · show t.update.session = { t with context := t.refreshed.context }
    rw [update_session, htable, analysisWith_congr halike rfl rfl]
    rfl

/-- **Updating a line again, however often, changes nothing.**  Whatever was done to a line before,
and whether its update goes well or fails: another update right after it has the same answer and
leaves the same line, the text, the cursors and all that is known about them, with every suggestion
in the table, in the same context but for more notices in the journal. -/
theorem update_again (s : Session) (n : Nat) :
    let once := s.update
    let again := (once.session.operateAll (List.replicate n .update)).update
    again.answer = once.answer ∧ once.session.Noted again.session := by
  induction n generalizing s with
  | zero => exact s.update_update
  | succ n ih =>
    obtain ⟨hanswer, hnoted⟩ := s.update_update
    obtain ⟨hagain, hlater⟩ := ih s.update.session
    exact ⟨hagain.trans hanswer, hnoted.trans hlater⟩

end Session

end Typeahead
