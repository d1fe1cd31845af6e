import Typeahead.Proofs.Session.Treatment
import Typeahead.Proofs.Session.Draft

/-!
# Refreshing a table builds it

A suggestion that was made for another text keeps its choices as long as they come from the same
scope.  In a world that does not change this is not seen: as long as every entry holds the choices
of its scope, refreshing a table gives, entry by entry, what making every suggestion anew would
give, and goes wrong where that would.

## Main definitions

* `Suggestion.Settled`, `Table.Settled` — the choices are those of the scope.
* `Table.build` — all suggestions made anew.

## Main results

* `Suggestion.renew_eq_suggest` — a settled suggestion brought up to date is the new one.
* `Table.refresh_eq_build` — **a settled table refreshed is the table built anew.**
* `Table.settled_refresh` — a refresh leaves a settled table settled, also one that went wrong.
-/

namespace Typeahead

/-- A value that was had unless there was a fault. -/
def unlessFault {α : Type} (fault : Option Fault) (a : α) : Except Fault α :=
  match fault with
  | none => .ok a
  | some fault => .error fault

theorem unlessFault_eq_ok_iff {α : Type} {fault : Option Fault} {a b : α} :
    unlessFault fault a = .ok b ↔ fault = none ∧ a = b := by
  cases fault <;> simp [unlessFault]

/-! ### Settled suggestions -/

namespace Suggestion

/-- A suggestion of a kind whose choices are those that its scope has in a context. -/
def Settled (c : Context) : ArgumentKind → Suggestion → Prop
  | .program, s => s.scope = some .programs ∧ c.programs.2 = .ok s.choices
  | .path, s =>
    (s.scope = none ∧ s.choices = []) ∨
      ∃ directory, s.scope = some (.directory directory) ∧
        s.choices = (c.world.choices directory).2
  | .text, s => s.scope = none ∧ s.choices = [] ∧ s.skip = 0

variable {c d : Context} {kind : ArgumentKind} {s : Suggestion}

/-- What is shown and what fits best do not matter. -/
theorem Settled.congr {t : Suggestion} (h : Settled c kind s) (choices : t.choices = s.choices)
    (scope : t.scope = s.scope) (skip : t.skip = s.skip) : Settled c kind t := by
  cases kind <;> simpa only [Settled, choices, scope, skip] using h

theorem Settled.of_alike (h : Settled c kind s) (halike : c.Alike d) : Settled d kind s := by
  cases kind <;> simpa only [Settled, halike.programs, halike.world] using h

/-- A new suggestion is settled. -/
theorem settled_suggest {argument : Text} {r : Reading}
    (h : (c.suggest argument r).2 = .ok s) : Settled c r.kind s := by
  rw [Context.suggest_snd] at h
  -- The scope goes by the kind: the programs, the directory of the target or none, and nothing.
  cases hkind : r.kind with
  | program =>
    simp only [hkind] at h
    cases hnames : c.programs.2 with
    | error fault => rw [hnames] at h; cases h
    | ok names =>
      rw [hnames] at h
      cases h
      exact ⟨rfl, hnames⟩
  | path =>
    simp only [hkind] at h
    cases htarget : c.target argument with
    | error fault => rw [htarget] at h; cases h
    | ok target =>
      rw [htarget] at h
      cases h
      cases target with
      | none => exact Or.inl ⟨rfl, rfl⟩
      | some target => exact Or.inr ⟨target.directory, rfl, rfl⟩
  | text =>
    simp only [hkind] at h
    cases h
    exact ⟨rfl, rfl, rfl⟩

/-- What is found to fit depends on the other parts of a suggestion only. -/
theorem focus_congr {s t : Suggestion} (choices : s.choices = t.choices)
    (placeholder : s.placeholder = t.placeholder) (scope : s.scope = t.scope)
    (skip : s.skip = t.skip) (typed : Text) : s.focus typed = t.focus typed := by
  simp only [focus, bestFor, choices, placeholder, scope, skip]

theorem bare_of_shown {placeholder : Option Text} (h : placeholder ≠ some []) :
    bare placeholder = ⟨[], placeholder, none, 0, none⟩ := by
  cases placeholder with
  | none => rfl
  | some t =>
    have ht : t ≠ [] := fun hnil => h (hnil ▸ rfl)
    simp [bare, Option.filter, ht]

/-- A program's suggestion whose choices are the programs is renewed as if made anew. -/
theorem renewProgram_eq (hscope : s.scope = some .programs) (hshown : s.placeholder ≠ some [])
    (argument : Text) :
    s.renewProgram [] argument = forProgram s.choices argument s.placeholder := by
  simp only [renewProgram, forProgram, ofChoices, bare_of_shown hshown, hscope, if_true]
  apply focus_congr <;> rfl

/-- A path's suggestion is renewed as if made anew: its choices are either asked for or those of its
scope already. -/
theorem renewTarget_eq (h : Settled c .path s) (hshown : s.placeholder ≠ some [])
    (target : Option Target) :
    (s.renewTarget c.world target).2 = (forTarget c.world s.placeholder target).2 := by
  cases target with
  | none =>
    simp only [renewTarget, forTarget, bare_of_shown hshown]
    apply focus_congr <;> rfl
  | some target =>
    simp only [renewTarget, forTarget, ofChoices, bare_of_shown hshown]
    split
    next hscope =>
      -- The directory is the one listed before, so the choices are kept.
      have hchoices : s.choices = (c.world.choices target.directory).2 := by
        rcases h with ⟨hnone, -⟩ | ⟨directory, hdirectory, hchoices⟩
        · rw [hnone] at hscope; cases hscope
        · rw [hdirectory] at hscope
          cases hscope
          exact hchoices
      apply focus_congr
      · exact hchoices
      · rfl
      · exact hscope
      · rfl
    next => apply focus_congr <;> rfl

/-- **A settled suggestion brought up to date is the new one**, and cannot be had where the new one
cannot. -/
theorem renew_eq_suggest {r : Reading} (h : Settled c r.kind s) (hshown : r.placeholder ≠ some [])
    (argument : Text) :
    unlessFault (c.renew argument r s).fault (c.renew argument r s).suggestion =
      (c.suggest argument r).2 := by
  rw [Context.suggest_snd]
  unfold Context.renew
  -- For each kind, the choices it has are the ones a new suggestion would get.
  cases hkind : r.kind with
  | program =>
    rw [hkind] at h
    obtain ⟨hscope, hnames⟩ := h
    dsimp only
    rw [if_pos hscope, hnames]
    exact congrArg Except.ok
      (renewProgram_eq (s := { s with placeholder := r.placeholder }) hscope hshown argument)
  | path =>
    rw [hkind] at h
    cases c.target argument with
    | error fault => rfl
    | ok target =>
      have hrenewed : Settled c .path { s with placeholder := r.placeholder } := h.congr rfl rfl rfl
      exact congrArg Except.ok (renewTarget_eq hrenewed hshown target)
  | text =>
    rw [hkind] at h
    obtain ⟨hscope, hchoices, hskip⟩ := h
    simp only [unlessFault, forText, bare_of_shown hshown]
    refine congrArg Except.ok ?_
    apply focus_congr
    · exact hchoices
    · rfl
    · exact hscope
    · exact hskip

/-- If a suggestion cannot be brought up to date, only its placeholder is new. -/
theorem renew_of_fault {argument : Text} {r : Reading} {fault : Fault}
    (h : (c.renew argument r s).fault = some fault) :
    (c.renew argument r s).suggestion = { s with placeholder := r.placeholder } := by
  unfold Context.renew at h ⊢
  cases hkind : r.kind with
  | program =>
    simp only [hkind] at h ⊢
    split
    next hscope => simp only [hscope, if_true, reduceCtorEq] at h
    next hscope =>
      rw [Context.programs_eq] at h ⊢
      cases hnames : c.programs.2 with
      | error _ => rfl
      | ok names => simp only [hscope, if_false, hnames, reduceCtorEq] at h
  | path =>
    simp only [hkind] at h ⊢
    cases htarget : c.target argument with
    | error _ => rfl
    | ok target => simp only [htarget, reduceCtorEq] at h
  | text => simp only [hkind, reduceCtorEq] at h

/-- Bringing a settled suggestion up to date leaves it settled, also if there was a fault. -/
theorem settled_renew {r : Reading} (h : Settled c r.kind s) (hshown : r.placeholder ≠ some [])
    (argument : Text) : Settled c r.kind (c.renew argument r s).suggestion := by
  have heq := renew_eq_suggest h hshown argument
  cases hfault : (c.renew argument r s).fault with
  | none =>
    rw [hfault] at heq
    exact settled_suggest heq.symm
  | some fault =>
    rw [renew_of_fault hfault]
    exact h.congr rfl rfl rfl

end Suggestion

/-! ### Settled tables -/

namespace Table

/-- A table in which every entry has the choices of its scope. -/
def Settled (c : Context) (table : Table) : Prop := ∀ entry ∈ table, entry.2.Settled c entry.1

/-- The suggestions for some arguments, all of them made anew. -/
def build (c : Context) : List (Text × Reading) → Except Fault Table
  | [] => .ok []
  | (argument, r) :: rest => do
    let s ← (c.suggest argument r).2
    let others ← build c rest
    pure ((r.kind, s) :: others)

variable {c d : Context} {table : Table}

theorem settled_nil (c : Context) : Settled c [] := fun _ h => nomatch h

theorem Settled.of_alike (h : Settled c table) (halike : c.Alike d) : Settled d table :=
  fun entry hentry => (h entry hentry).of_alike halike

theorem settled_unfocused_iff : Settled c table.unfocused ↔ Settled c table := by
  constructor
  · intro h entry hentry
    exact (h _ (List.mem_map_of_mem hentry)).congr rfl rfl rfl
  · intro h entry hentry
    obtain ⟨before, hbefore, rfl⟩ := List.mem_map.mp hentry
    exact (h before hbefore).congr rfl rfl rfl

/-- What fits best does not matter for a table to be settled. -/
theorem Settled.of_unfocused {table' : Table} (h : Settled c table)
    (heq : table'.unfocused = table.unfocused) : Settled c table' := by
  rw [← settled_unfocused_iff, heq, settled_unfocused_iff]
  exact h

theorem build_of_alike (halike : c.Alike d) (items : List (Text × Reading)) :
    build d items = build c items := by
  induction items with
  | nil => rfl
  | cons item rest ih => simp only [build, ih, halike.suggest_eq]

/-- The treatment of one argument gives the entry made anew. -/
theorem treat_eq_suggest {r : Reading} {entry : Option (ArgumentKind × Suggestion)}
    (h : ∀ e ∈ entry, e.2.Settled c e.1) (hshown : r.placeholder ≠ some []) (argument : Text) :
    unlessFault (treat c argument r entry).fault (treat c argument r entry).entry.toList =
      (c.suggest argument r).2.map fun s => [(r.kind, s)] := by
  rcases treat_eq c argument r entry with hanew | ⟨s, hentry, hrenewed⟩
  · rw [hanew]
    unfold treatAnew
    cases (c.suggest argument r).2 <;> rfl
  · rw [hrenewed, ← Suggestion.renew_eq_suggest (h _ hentry) hshown argument]
    cases (c.renew argument r s).fault <;> rfl

/-- The treatment of one argument leaves its entry settled. -/
theorem settled_treat {r : Reading} {entry : Option (ArgumentKind × Suggestion)}
    (h : ∀ e ∈ entry, e.2.Settled c e.1) (hshown : r.placeholder ≠ some []) (argument : Text) :
    ∀ e ∈ (treat c argument r entry).entry, e.2.Settled c e.1 := by
  intro e he
  rcases treat_eq c argument r entry with hanew | ⟨s, hentry, hrenewed⟩
  · rw [hanew] at he
    unfold treatAnew at he
    cases hs : (c.suggest argument r).2 with
    | error fault =>
      rw [hs] at he
      exact h e he
    | ok s =>
      rw [hs] at he
      cases he
      exact Suggestion.settled_suggest hs
  · rw [hrenewed] at he
    cases he
    exact Suggestion.settled_renew (h _ hentry) hshown argument

/-! ### Refreshing -/

/-- What every reading of a line shows is not empty. -/
def Shown (items : List (Text × Reading)) : Prop := ∀ item ∈ items, item.2.placeholder ≠ some []

/-- A refresh leaves a settled table settled, also one that went wrong. -/
theorem settled_refresh {items : List (Text × Reading)} (h : Settled c table)
    (hshown : Shown items) :
    Settled (refresh c items table).context (refresh c items table).table := by
  -- By induction on the items. What the later ones do leaves the choices of the scopes as they are.
  induction items generalizing c table with
  | nil => rw [refresh_nil]; exact settled_nil c
  | cons item rest ih =>
    obtain ⟨argument, r⟩ := item
    obtain ⟨hr, hrest⟩ := List.forall_mem_cons.mp hshown
    have halike := alike_treat c argument r table.head?
    have hentry := settled_treat (fun e he => h e (List.mem_of_mem_head? he)) hr argument
    have htail : Settled c table.tail := fun e he => h e (List.mem_of_mem_tail he)
    rw [refresh_cons]
    split
    · have hothers := ih (htail.of_alike halike) hrest
      have hfinal := halike.trans (alike_refresh _ rest table.tail)
      intro e he
      rcases List.mem_append.mp he with he | he
      · exact (hentry e (Option.mem_toList.mp he)).of_alike hfinal
      · exact hothers e he
    · -- Behind a fault the old entries stay, and their scopes have the choices they had before.
      intro e he
      rcases List.mem_append.mp he with he | he
      · exact (hentry e (Option.mem_toList.mp he)).of_alike halike
      · exact (htail e he).of_alike halike

/-- **A settled table refreshed is the table built anew**, and a refresh goes wrong where building
does. -/
theorem refresh_eq_build {items : List (Text × Reading)} (h : Settled c table)
    (hshown : Shown items) :
    unlessFault (refresh c items table).fault (refresh c items table).table = build c items := by
  induction items generalizing c table with
  | nil => rw [refresh_nil]; rfl
  | cons item rest ih =>
    obtain ⟨argument, r⟩ := item
    obtain ⟨hr, hrest⟩ := List.forall_mem_cons.mp hshown
    have halike := alike_treat c argument r table.head?
    have htreat := treat_eq_suggest (fun e he => h e (List.mem_of_mem_head? he)) hr argument
    have htail : Settled c table.tail := fun e he => h e (List.mem_of_mem_tail he)
    rw [refresh_cons]
    simp only [build]
    cases hfault : (treat c argument r table.head?).fault with
    | none =>
      -- The rest is refreshed in the context that the treatment leaves, which builds the same.
      have hothers := ih (htail.of_alike halike) hrest
      rw [build_of_alike halike] at hothers
      rw [hfault] at htreat
      cases hs : (c.suggest argument r).2 with
      | error fault => rw [hs] at htreat; cases htreat
      | ok s =>
        rw [hs] at htreat
        rw [← hothers, Except.ok.inj htreat]
        dsimp only
        cases (refresh (treat c argument r table.head?).context rest table.tail).fault <;> rfl
    | some fault =>
      rw [hfault] at htreat
      cases hs : (c.suggest argument r).2 with
      | error fault' => rw [hs] at htreat; cases htreat; rfl
      | ok s => rw [hs] at htreat; cases htreat

end Table

end Typeahead
