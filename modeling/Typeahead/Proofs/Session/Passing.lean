import Typeahead.Proofs.Session.Operation
import Typeahead.Proofs.Session.Placeholder

/-!
# What a suggestion passes over

A suggestion passes over the part of its argument that takes no part in the matching.  For a path
that is what stands before the name, as long as it points somewhere, and for anything else it is
nothing.  A suggestion for plain text is not told so when it is brought up to date, but it has never
passed over anything: it is of that kind since it was made.  So after an update that went well no
suggestion passes over more than there is of its argument.

## Main definitions

* `Table.Plain` — nothing is passed over of plain text.

## Main results

* `Session.plain_operateAll` — whatever is done to a line, nothing is passed over of plain text.
* `Session.skip_le_of_holds` — **what is passed over is a part of the argument.**
-/

namespace Typeahead

namespace Suggestion

variable {c : Context} {argument : Text} {r : Reading} {s : Suggestion}

/-- A suggestion that was looked up for a path passes over no more than there is of it. -/
theorem Sought.skip_le (h : s.Sought c .path argument) : s.skip ≤ argument.length := by
  obtain ⟨target, htarget, hfor, -⟩ := h.path rfl
  cases target with
  | none =>
    rw [hfor.2]
    exact Nat.zero_le _
  | some target =>
    rw [show s.skip = target.skip from hfor,
      (Target.of_resolve (Context.resolve_of_target htarget)).1]
    exact Target.skip_split_le argument

/-- A new suggestion passes over something of a path only. -/
theorem skip_suggest (h : (c.suggest argument r).2 = .ok s) (hkind : r.kind ≠ .path) :
    s.skip = 0 := by
  rw [Context.suggest_snd] at h
  cases hr : r.kind with
  | program =>
    simp only [hr] at h
    cases hnames : c.programs.2 with
    | error fault => rw [hnames] at h; cases h
    | ok names =>
      rw [hnames] at h
      cases h
      rfl
  | path => exact absurd hr hkind
  | text =>
    simp only [hr] at h
    cases h
    rfl

/-- Brought up to date, a suggestion for plain text passes over what it passed over before. -/
theorem skip_renew_text (hkind : r.kind = .text) :
    (c.renew argument r s).suggestion.skip = s.skip := by
  simp only [Context.renew, hkind, focus]

/-- Brought up to date without a fault, a suggestion for a program passes over nothing. -/
theorem skip_renew_program (hkind : r.kind = .program) (h : (c.renew argument r s).fault = none) :
    (c.renew argument r s).suggestion.skip = 0 := by
  simp only [Context.renew, hkind] at h ⊢
  split at h
  next hscope => rw [if_pos hscope]; rfl
  next hscope =>
    rw [if_neg hscope]
    rw [Context.programs_eq] at h ⊢
    cases hnames : c.programs.2 with
    | error fault => rw [hnames] at h; cases h
    | ok names => rfl

end Suggestion

namespace Table

/-- Nothing is passed over of plain text. -/
def Plain (table : Table) : Prop := ∀ entry ∈ table, entry.1 = .text → entry.2.skip = 0

variable {c : Context} {argument : Text} {r : Reading} {table : Table}
  {before : Option (ArgumentKind × Suggestion)} {entry : ArgumentKind × Suggestion}

/-- A treatment passes over nothing of plain text, also if there was a fault. -/
theorem plain_treat (hbefore : ∀ e ∈ before, e.1 = .text → e.2.skip = 0)
    (hentry : (treat c argument r before).entry = some entry) (hkind : entry.1 = .text) :
    entry.2.skip = 0 := by
  rcases treat_eq c argument r before with hanew | ⟨s, hold, hrenewed⟩
  · rw [hanew] at hentry
    unfold treatAnew at hentry
    cases hs : (c.suggest argument r).2 with
    | error fault =>
      rw [hs] at hentry
      exact hbefore entry hentry hkind
    | ok s =>
      rw [hs] at hentry
      cases hentry
      have htext : r.kind = .text := hkind
      exact Suggestion.skip_suggest hs (by rw [htext]; decide)
  · rw [hrenewed] at hentry
    cases hentry
    rw [Suggestion.skip_renew_text hkind]
    exact hbefore _ hold hkind

/-- A treatment without a fault passes over something of a path only. -/
theorem skip_treat (hbefore : ∀ e ∈ before, e.1 = .text → e.2.skip = 0)
    (hfault : (treat c argument r before).fault = none)
    (hentry : (treat c argument r before).entry = some entry) (hkind : entry.1 ≠ .path) :
    entry.2.skip = 0 := by
  by_cases htext : entry.1 = .text
  · exact plain_treat hbefore hentry htext
  -- What is left are the programs, for which nothing is passed over.
  rcases treat_eq c argument r before with hanew | ⟨s, -, hrenewed⟩
  · rw [hanew] at hfault hentry
    unfold treatAnew at hfault hentry
    cases hs : (c.suggest argument r).2 with
    | error fault => rw [hs] at hfault; cases hfault
    | ok s =>
      rw [hs] at hentry
      cases hentry
      exact Suggestion.skip_suggest hs hkind
  · rw [hrenewed] at hfault hentry
    cases hentry
    refine Suggestion.skip_renew_program ?_ hfault
    cases hr : r.kind with
    | program => rfl
    | path => exact absurd hr hkind
    | text => exact absurd hr htext

/-- A refresh passes over nothing of plain text, also one that went wrong. -/
theorem plain_refresh {items : List (Text × Reading)} (h : Plain table) :
    Plain (refresh c items table).table := by
  intro entry hentry
  obtain ⟨i, hi⟩ := List.getElem?_of_mem hentry
  rcases entry_refresh hi with ⟨argument, r, d, -, -, htreated, -⟩ | ⟨-, hold⟩
  · exact plain_treat (fun e he => h e (List.mem_of_getElem? he)) htreated
  · exact h entry (List.mem_of_getElem? hold)

theorem plain_unfocused_iff : Plain table.unfocused ↔ Plain table := by
  simp only [Plain, unfocused, List.forall_mem_map]
  rfl

end Table

namespace Session

variable {s t : Session} {argument : Text} {suggestion : Suggestion}

theorem plain_of_drafted (h : s.analysis.table.Plain) (hdrafted : Drafted s t) :
    t.analysis.table.Plain := by
  rcases hdrafted.table with htable | hnone
  · rw [← Table.plain_unfocused_iff, htable, Table.plain_unfocused_iff]
    exact h
  · rw [hnone]
    exact fun _ hentry => nomatch hentry

/-- **Whatever is done to a line, nothing is passed over of plain text.** -/
theorem plain_operateAll (context : Context) (capacity : Int) (operations : List Operation) :
    ((start context capacity).operateAll operations).analysis.table.Plain := by
  have hstart : (start context capacity).analysis.table.Plain := fun _ hentry => nomatch hentry
  refine operateAll_induction (P := fun s => s.analysis.table.Plain) hstart ?_ operations
  intro s o h
  refine operate_induction (P := fun t => t.analysis.table.Plain) o ?_ ?_ (fun _ => h) (fun _ => h)
  · exact fun t hdrafted => Table.plain_refresh (plain_of_drafted h hdrafted)
  · exact fun t hdrafted => plain_of_drafted h hdrafted

/-- After an update that went well something is passed over of paths only. -/
theorem skip_update {i : Nat} {kind : ArgumentKind} (h : s.analysis.table.Plain)
    (hok : s.update.answer = .ok ())
    (hentry : s.update.session.analysis.table[i]? = some (kind, suggestion))
    (hkind : kind ≠ .path) : suggestion.skip = 0 := by
  have hfault := update_answer_eq_ok_iff.mp hok
  rcases Table.entry_refresh hentry with ⟨argument, r, d, -, -, htreated, hgood⟩ | hold
  · exact Table.skip_treat (fun e he => h e (List.mem_of_getElem? he)) (hgood hfault) htreated hkind
  · exact absurd hfault hold.1

/-- **What is passed over is a part of the argument**, after an update that went well. -/
theorem skip_le_of_holds {i : Nat} (h : s.analysis.table.Plain) (hok : s.update.answer = .ok ())
    (hholds : s.update.session.Holds i argument suggestion) :
    suggestion.skip ≤ argument.length := by
  obtain ⟨r, hargument, hreading, hsought⟩ := sought_of_holds hok hholds
  obtain ⟨span, kind, -, hentry, -⟩ := hholds
  obtain ⟨-, r', -, hreading', rfl, -⟩ := sought_update hok hentry
  rw [hreading, Option.some.injEq] at hreading'
  subst hreading'
  by_cases hkind : r.kind = .path
  · rw [hkind] at hsought
    exact hsought.skip_le
  · rw [skip_update h hok hentry hkind]
    exact Nat.zero_le _

end Session

end Typeahead
