import Typeahead.Grammar.Basic

/-!
# The grammar of a name

Of several grammars with one name the last counts.

## Main definitions

* `Grammar.LastNamed` — the last grammar of a name in a list.

## Main results

* `Grammar.find?_eq_some_iff` — the grammar found for a name is the last one of that name.
-/

namespace Typeahead

namespace Grammar

/-- `g` stands in the list under the name, and no grammar behind it has that name. -/
def LastNamed (name : Text) (grammars : List Grammar) (g : Grammar) : Prop :=
  ∃ before after, grammars = before ++ g :: after ∧ g.name = name ∧
    ∀ other ∈ after, other.name ≠ name

theorem find?_eq_none_iff {name : Text} {grammars : List Grammar} :
    find? name grammars = none ↔ ∀ g ∈ grammars, g.name ≠ name := by
  induction grammars with
  | nil => simp [find?]
  | cons g rest ih =>
    simp only [find?, List.mem_cons, forall_eq_or_imp]
    -- The search looks at the later grammars first.
    cases hrest : find? name rest with
    | some later =>
      have hlater : ¬ ∀ g ∈ rest, g.name ≠ name := fun h => by
        rw [ih.mpr h] at hrest
        cases hrest
      simp [hlater]
    | none =>
      have hnone := ih.mp hrest
      constructor
      · intro h
        refine ⟨?_, hnone⟩
        intro hname
        rw [if_pos hname] at h
        cases h
      · rintro ⟨hname, -⟩
        exact if_neg hname

/-- **The grammar found for a name is the last one of that name.** -/
theorem find?_eq_some_iff {name : Text} {grammars : List Grammar} {g : Grammar} :
    find? name grammars = some g ↔ LastNamed name grammars g := by
  induction grammars with
  | nil => simp [find?, LastNamed]
  | cons first rest ih =>
    simp only [find?]
    cases hrest : find? name rest with
    | some later =>
      simp only [Option.some.injEq]
      rw [hrest, Option.some.injEq] at ih
      constructor
      · intro h
        obtain ⟨before, after, rfl, hname, hafter⟩ := ih.mp h
        exact ⟨first :: before, after, rfl, hname, hafter⟩
      · rintro ⟨before, after, heq, hname, hafter⟩
        cases before with
        | nil =>
          -- Then nothing behind the first has the name, against what was found there.
          cases heq
          rw [find?_eq_none_iff.mpr hafter] at hrest
          cases hrest
        | cons first' before =>
          cases heq
          exact ih.mpr ⟨before, after, rfl, hname, hafter⟩
    | none =>
      have hnone := find?_eq_none_iff.mp hrest
      constructor
      · intro h
        simp only [Option.ite_none_right_eq_some, Option.some.injEq] at h
        obtain ⟨hname, rfl⟩ := h
        exact ⟨[], rest, rfl, hname, hnone⟩
      · rintro ⟨before, after, heq, hname, -⟩
        cases before with
        | nil => cases heq; simp [hname]
        | cons first' before =>
          cases heq
          exact absurd hname (hnone g (List.mem_append_right _ List.mem_cons_self))

end Grammar

end Typeahead
