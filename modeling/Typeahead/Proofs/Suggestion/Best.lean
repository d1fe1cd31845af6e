import Typeahead.Proofs.Text.Sorting
import Typeahead.Suggestion.Source

/-!
# The choice that fits best

What fits best is the first of the choices that start with what is typed.  The choices come from a
directory or from the search path, both of which are put in order; and among choices in order the
first that fits is the least.  As long as nothing is typed every choice fits, but a placeholder goes
before them.

## Main definitions

* `Suggestion.Leads` — a choice is the least of those that start with what is typed.
* `Suggestion.BestOf` — what fits best is what it should be.
* `Catalog.Gathered` — the programs that a catalog knows are those of some world.

## Main results

* `Suggestion.bestOf_focus` — **among choices in order what is found is what fits best.**
* `World.pairwise_choices`, `Catalog.pairwise_gather` — what a directory and the search path offer is
  in order.
-/

namespace Typeahead

namespace Suggestion

/-- `s.Leads typed choice` says that `choice` is the least of the choices that start with what is
typed. -/
def Leads (s : Suggestion) (typed choice : Text) : Prop :=
  (choice ∈ s.choices ∧ typed <+: choice) ∧ ∀ other ∈ s.choices, typed <+: other → ¬ other < choice

/-- What fits best is what it should be if this is typed. -/
structure BestOf (s : Suggestion) (typed : Text) : Prop where
  /-- As long as nothing is typed it is the placeholder, if there is one. -/
  shown : typed = [] → s.placeholder.isSome → s.best = s.placeholder
  /-- Otherwise it is the least choice that starts with what is typed, or nothing if none does.
  This is also the first of the choices that fit. -/
  chosen : typed ≠ [] ∨ s.placeholder = none →
    (∀ choice, s.best = some choice ↔ s.Leads typed choice) ∧
      (s.best = none ↔ ∀ choice ∈ s.choices, ¬ typed <+: choice) ∧
      s.best = (s.fitting typed).head?

variable {s : Suggestion} {typed choice : Text}

theorem mem_fitting : choice ∈ s.fitting typed ↔ choice ∈ s.choices ∧ typed <+: choice := by
  simp [fitting]

theorem bestFor_eq_head? (h : typed ≠ [] ∨ s.placeholder = none) :
    s.bestFor typed = (s.fitting typed).head? := by
  simp only [bestFor, fitting, List.head?_filter]
  split
  next htyped =>
    -- Every choice starts with nothing.
    rw [h.resolve_left (not_not_intro htyped), htyped]
    cases s.choices <;> rfl
  next => rfl

theorem head?_fitting_eq_some_iff (h : s.choices.Pairwise (· < ·)) :
    (s.fitting typed).head? = some choice ↔ s.Leads typed choice := by
  have hfitting : (s.fitting typed).Pairwise (· < ·) := h.filter _
  rw [Text.head?_eq_some_iff_least hfitting, mem_fitting]
  refine and_congr_right fun _ => ?_
  simp only [mem_fitting, and_imp]

theorem head?_fitting_eq_none_iff :
    (s.fitting typed).head? = none ↔ ∀ choice ∈ s.choices, ¬ typed <+: choice := by
  simp [fitting]

/-- **Among choices in order what is found is what fits best.** -/
theorem bestOf_focus (h : s.choices.Pairwise (· < ·)) (typed : Text) :
    (s.focus typed).BestOf typed := by
  constructor
  · intro htyped hshown
    obtain ⟨placeholder, hplaceholder⟩ := Option.isSome_iff_exists.mp hshown
    have hplaceholder' : s.placeholder = some placeholder := hplaceholder
    simp only [focus, bestFor, htyped, hplaceholder', if_true]
  · intro hnone
    have hbest : (s.focus typed).best = ((s.focus typed).fitting typed).head? :=
      bestFor_eq_head? (s := s) hnone
    rw [hbest]
    exact ⟨fun choice => head?_fitting_eq_some_iff (s := s.focus typed) h,
      head?_fitting_eq_none_iff, rfl⟩

end Suggestion

/-! ### Listings are in order -/

/-- What is left of a list without its repetitions has none. -/
theorem nodup_eraseDups {α : Type} [BEq α] [LawfulBEq α] (xs : List α) : xs.eraseDups.Nodup := by
  induction hlength : xs.length using Nat.strongRecOn generalizing xs with
  | ind n ih =>
    cases xs with
    | nil => exact List.nodup_nil
    | cons x rest =>
      -- What follows the first entry is a list without that entry, and no longer than the rest.
      have hshorter : (rest.filter fun y => !y == x).length < n := by
        rw [← hlength]
        exact Nat.lt_succ_of_le (List.length_filter_le _ rest)
      rw [List.eraseDups_cons, List.nodup_cons, List.mem_eraseDups, List.mem_filter]
      exact ⟨by simp, ih _ hshorter _ rfl⟩

/-- A directory has no name twice. -/
theorem FileTree.nodup_names (files : FileTree) (here : Location) : (files.names here).Nodup :=
  nodup_eraseDups _

/-- The names in a directory have no order of their own, and are in order when they are offered. -/
theorem World.pairwise_choices (w : World) (directory : Path) :
    (w.choices directory).2.Pairwise (· < ·) := by
  unfold World.choices World.list
  cases w.locate directory.toText with
  | error fault => exact List.Pairwise.nil
  | ok here =>
    dsimp only
    rcases w.files.at? here with _ | ⟨⟨⟩⟩ | _ | _
    -- Only a directory has names, and only one that may be listed gives them.
    · exact List.Pairwise.nil
    · exact Text.pairwise_sort (w.files.nodup_names here)
    · exact List.Pairwise.nil
    · exact Text.pairwise_sort (w.files.nodup_names here)
    all_goals exact List.Pairwise.nil

namespace Catalog

variable {c : Catalog} {w : World} {names : List Text}

/-- The programs that a catalog knows, if it knows any, were gathered in some world. -/
def Gathered (c : Catalog) : Prop :=
  ∀ names, c.known = some names → ∃ w, (c.gather w).2 = .ok names

/-- The programs of a world are in order. -/
theorem pairwise_gather (h : (c.gather w).2 = .ok names) : names.Pairwise (· < ·) := by
  unfold gather at h
  cases hdirectories : c.directories with
  | none => rw [hdirectories] at h; cases h
  | some directories =>
    rw [hdirectories] at h
    dsimp only at h
    rcases hcollect : collect w c.extensions directories with ⟨notices, fault | found⟩ <;>
      rw [hcollect] at h <;> cases h
    exact Text.pairwise_sortDistinct found

/-- The answer of a catalog to the question for the programs. -/
theorem names_answer (c : Catalog) (w : World) :
    (c.names w).2.2 =
      match c.known with
      | some known => .ok known
      | none => (c.gather w).2 := by
  unfold names
  cases c.known with
  | some known => rfl
  | none => rcases c.gather w with ⟨notices, fault | found⟩ <;> rfl

end Catalog

end Typeahead
