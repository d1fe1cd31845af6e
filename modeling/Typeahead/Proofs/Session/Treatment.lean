import Typeahead.Proofs.Session.Alike
import Typeahead.Session.Table

/-!
# One argument of a refresh

Refreshing a table goes through the arguments of a line with the entries that the table has for
them.  What is done for one argument, with or without an entry, is its treatment; a refresh is a
chain of treatments that ends at the first fault.  So a fact about all refreshes is a fact about one
treatment and an induction over the arguments.

## Main definitions

* `Treatment`, `Table.treat` — what becomes of the entry of one argument.

## Main results

* `Table.treat_eq` — an entry is made anew or brought up to date.
* `Table.refresh_cons` — a refresh is a treatment and the refresh of the rest.
* `Table.alike_refresh` — a refresh leaves a context that looks alike.
* `Table.length_refresh` — a refresh without a fault leaves an entry for every argument.
* `Table.entry_refresh` — an entry of a refreshed table is a treated one or an old one behind a
  fault.
-/

namespace Typeahead

/-- What became of the entry of one argument. -/
structure Treatment where
  context : Context
  /-- The entry as it is now; none only if there was none and none could be had. -/
  entry : Option (ArgumentKind × Suggestion)
  fault : Option Fault

namespace Table

/-- A new entry for an argument; `before` is what stays if it cannot be had. -/
def treatAnew (c : Context) (argument : Text) (r : Reading)
    (before : Option (ArgumentKind × Suggestion)) : Treatment :=
  match (c.suggest argument r).2 with
  | .ok s => ⟨(c.suggest argument r).1, some (r.kind, s), none⟩
  | .error fault => ⟨(c.suggest argument r).1, before, some fault⟩

/-- The treatment of the entry that a table has for an argument: an entry of the argument's kind is
brought up to date, any other gives way to a new one. -/
def treat (c : Context) (argument : Text) (r : Reading) :
    Option (ArgumentKind × Suggestion) → Treatment
  | none => treatAnew c argument r none
  | some (kind, s) =>
    if kind = r.kind then
      ⟨(c.renew argument r s).context, some (kind, (c.renew argument r s).suggestion),
        (c.renew argument r s).fault⟩
    else treatAnew c argument r (some (kind, s))

/-- A treatment makes the entry anew or brings one of the argument's kind up to date. -/
theorem treat_eq (c : Context) (argument : Text) (r : Reading)
    (entry : Option (ArgumentKind × Suggestion)) :
    treat c argument r entry = treatAnew c argument r entry ∨
      ∃ s, entry = some (r.kind, s) ∧
        treat c argument r entry = ⟨(c.renew argument r s).context,
          some (r.kind, (c.renew argument r s).suggestion), (c.renew argument r s).fault⟩ := by
  rcases entry with _ | ⟨kind, s⟩
  · exact Or.inl rfl
  · simp only [treat]
    by_cases hkind : kind = r.kind
    · right
      refine ⟨s, by rw [hkind], ?_⟩
      rw [if_pos hkind, hkind]
    · exact Or.inl (if_neg hkind)

@[simp] theorem refresh_nil (c : Context) (table : Table) : refresh c [] table = ⟨c, [], none⟩ := by
  cases table <;> rfl

/-- **A refresh treats the first argument and goes on with the rest unless there was a fault.** -/
theorem refresh_cons (c : Context) (argument : Text) (r : Reading) (rest : List (Text × Reading))
    (table : Table) :
    refresh c ((argument, r) :: rest) table =
      match (treat c argument r table.head?).fault with
      | none =>
        let others := refresh (treat c argument r table.head?).context rest table.tail
        { others with
          table := (treat c argument r table.head?).entry.toList ++ others.table }
      | some fault =>
        ⟨(treat c argument r table.head?).context,
          (treat c argument r table.head?).entry.toList ++ table.tail, some fault⟩ := by
  rcases table with _ | ⟨⟨kind, s⟩, table⟩
  · simp only [refresh, treat, treatAnew, List.head?_nil]
    rcases hs : c.suggest argument r with ⟨d, fault | s⟩ <;> rfl
  · simp only [refresh, treat, treatAnew, List.head?_cons]
    by_cases hkind : kind = r.kind
    · simp only [hkind, if_true]
      rcases hf : (c.renew argument r s).fault with _ | fault <;> rfl
    · simp only [hkind, if_false]
      rcases hs : c.suggest argument r with ⟨d, fault | fresh⟩ <;> rfl

theorem alike_treat (c : Context) (argument : Text) (r : Reading)
    (entry : Option (ArgumentKind × Suggestion)) :
    Context.Alike c (treat c argument r entry).context := by
  rcases treat_eq c argument r entry with hanew | ⟨s, -, hrenewed⟩
  · rw [hanew]
    unfold treatAnew
    split <;> exact c.alike_suggest argument r
  · rw [hrenewed]
    exact c.alike_renew argument r s

/-- Refreshing a table leaves a context that looks alike. -/
theorem alike_refresh (c : Context) (items : List (Text × Reading)) (table : Table) :
    Context.Alike c (refresh c items table).context := by
  induction items generalizing c table with
  | nil => rw [refresh_nil]
  | cons item rest ih =>
    obtain ⟨argument, r⟩ := item
    rw [refresh_cons]
    have htreat := alike_treat c argument r table.head?
    split
    · exact htreat.trans (ih _ table.tail)
    · exact htreat

/-- A treatment without a fault leaves an entry. -/
theorem entry_of_no_fault {c : Context} {argument : Text} {r : Reading}
    {entry : Option (ArgumentKind × Suggestion)} (h : (treat c argument r entry).fault = none) :
    ∃ e, (treat c argument r entry).entry = some e := by
  rcases treat_eq c argument r entry with hanew | ⟨s, -, hrenewed⟩
  · rw [hanew] at h ⊢
    unfold treatAnew at h ⊢
    cases hs : (c.suggest argument r).2 with
    | ok s => exact ⟨(r.kind, s), rfl⟩
    | error fault => rw [hs] at h; cases h
  · rw [hrenewed]
    exact ⟨_, rfl⟩

/-- A refresh without a fault leaves an entry for every argument. -/
theorem length_refresh {c : Context} {items : List (Text × Reading)} {table : Table}
    (h : (refresh c items table).fault = none) :
    (refresh c items table).table.length = items.length := by
  induction items generalizing c table with
  | nil => rw [refresh_nil]; rfl
  | cons item rest ih =>
    obtain ⟨argument, r⟩ := item
    rw [refresh_cons] at h ⊢
    cases hfault : (treat c argument r table.head?).fault with
    | some fault => rw [hfault] at h; cases h
    | none =>
      rw [hfault] at h
      obtain ⟨e, he⟩ := entry_of_no_fault hfault
      rw [he]
      exact congrArg (· + 1) (ih h)

/-- A treatment leaves an entry where there was one. -/
theorem exists_entry_treat (c : Context) (argument : Text) (r : Reading)
    (before : ArgumentKind × Suggestion) :
    ∃ entry, (treat c argument r (some before)).entry = some entry := by
  rcases treat_eq c argument r (some before) with hanew | ⟨s, -, hrenewed⟩
  · rw [hanew]
    unfold treatAnew
    cases (c.suggest argument r).2 <;> exact ⟨_, rfl⟩
  · rw [hrenewed]
    exact ⟨_, rfl⟩

/-- **Where an entry of a refreshed table comes from**: it is the treated entry of its argument,
without a fault if there was none at all, or an old one behind a fault. -/
theorem entry_refresh {c : Context} {items : List (Text × Reading)} {table : Table} {i : Nat}
    {entry : ArgumentKind × Suggestion} (h : (refresh c items table).table[i]? = some entry) :
    (∃ argument r d, items[i]? = some (argument, r) ∧ c.Alike d ∧
      (treat d argument r table[i]?).entry = some entry ∧
      ((refresh c items table).fault = none → (treat d argument r table[i]?).fault = none)) ∨
    ((refresh c items table).fault ≠ none ∧ table[i]? = some entry) := by
  induction items generalizing c table i with
  | nil =>
    rw [refresh_nil] at h
    cases h
  | cons item rest ih =>
    obtain ⟨argument, r⟩ := item
    have hhead : table[0]? = table.head? := List.head?_eq_getElem?.symm
    rw [refresh_cons] at h ⊢
    cases hfault : (treat c argument r table.head?).fault with
    | none =>
      obtain ⟨first, hfirst⟩ := entry_of_no_fault hfault
      rw [hfault] at h
      simp only [hfirst, Option.toList_some, List.singleton_append] at h
      cases i with
      | zero =>
        cases h
        exact Or.inl ⟨argument, r, c, rfl, .refl c, hhead ▸ hfirst, fun _ => hhead ▸ hfault⟩
      | succ i =>
        simp only [← List.getElem?_tail] at h ⊢
        rcases ih h with ⟨argument', r', d, hitem, halike, hentry, hgood⟩ | hold
        · exact Or.inl ⟨argument', r', d, hitem, (alike_treat ..).trans halike, hentry, hgood⟩
        · exact Or.inr hold
    | some fault =>
      -- The treated entry is the last one that is new.
      rw [hfault] at h
      dsimp only at h ⊢
      cases hentry : (treat c argument r table.head?).entry with
      | none =>
        cases table with
        | nil => rw [hentry] at h; cases h
        | cons before table =>
          obtain ⟨first, hfirst⟩ := exists_entry_treat c argument r before
          rw [List.head?_cons, hfirst] at hentry
          cases hentry
      | some first =>
        rw [hentry] at h
        cases i with
        | zero =>
          cases h
          exact Or.inl ⟨argument, r, c, rfl, .refl c, hhead ▸ hentry, fun h => nomatch h⟩
        | succ i => exact Or.inr ⟨nofun, List.getElem?_tail ▸ h⟩
end Table

end Typeahead
