import Mathlib.Data.List.Forall2
import Typeahead.Grammar.Checked

/-!
# Good descriptions

A description of several parts is good exactly if all its parts are, and its value is made of
theirs.  So what holds of every value that a reader lets pass holds of every part of a good
description.

## Main results

* `Checked.map_eq_good_iff`, `Checked.seq_eq_good_iff` — the parts of a good description.
* `Checked.listOf_eq_good_iff` — the items of a good list, one by one.
* `Checked.exists_of_optionalField` — where the value of a key that may be left out comes from.
-/

namespace Typeahead

namespace Checked

variable {α β : Type}

theorem map_eq_good_iff {f : α → β} {c : Checked α} {b : β} :
    f <$> c = .good b ↔ ∃ a, c = .good a ∧ f a = b := by
  cases c with
  | good a =>
    change Checked.good (f a) = .good b ↔ _
    simp only [good.injEq, exists_eq_left']
  | bad issues => exact iff_of_false nofun nofun

theorem seq_eq_good_iff {f : Checked (α → β)} {c : Checked α} {b : β} :
    f <*> c = .good b ↔ ∃ g a, f = .good g ∧ c = .good a ∧ g a = b := by
  constructor
  · intro h
    cases f with
    | good g =>
      cases c with
      | good a =>
        cases h
        exact ⟨g, a, rfl, rfl, rfl⟩
      | bad issues => cases h
    | bad issues => cases c <;> cases h
  · rintro ⟨g, a, rfl, rfl, rfl⟩
    rfl

theorem andThen_eq_good_iff {c : Checked α} {f : α → Checked β} {b : β} :
    c.andThen f = .good b ↔ ∃ a, c = .good a ∧ f a = .good b := by
  cases c with
  | good a => simp only [andThen, good.injEq, exists_eq_left']
  | bad issues => exact iff_of_false nofun nofun

theorem within_eq_good_iff {step : Step} {c : Checked α} {a : α} :
    within step c = .good a ↔ c = .good a := by
  cases c with
  | good b => rfl
  | bad issues => exact iff_of_false nofun nofun

/-- The value at a key that has to be there has been read. -/
theorem exists_of_field {members : List (Text × Json)} {key other : String}
    {read : Json → Checked α} {a : α} (h : field members key other read = .good a) :
    ∃ v, read v = .good a := by
  unfold field at h
  split at h
  next v _ => exact ⟨v, within_eq_good_iff.mp h⟩
  next => cases h

/-- The value at a key that may be left out has been read, or it is the one for its absence. -/
theorem exists_of_optionalField {members : List (Text × Json)} {key other : String} {absent : α}
    {read : Json → Checked α} {a : α} (h : optionalField members key other absent read = .good a) :
    a = absent ∨ ∃ v, read v = .good a := by
  unfold optionalField at h
  split at h
  next v _ => exact .inr ⟨v, within_eq_good_iff.mp h⟩
  next =>
    cases h
    exact .inl rfl

theorem itemsFrom_eq_good_iff {read : Json → Checked α} {i : Nat} {items : List Json}
    {as : List α} :
    itemsFrom read i items = .good as ↔ List.Forall₂ (fun v a => read v = .good a) items as := by
  induction items generalizing i as with
  | nil =>
    rw [List.forall₂_nil_left_iff, itemsFrom, good.injEq, eq_comm]
  | cons v rest ih =>
    change List.cons <$> within (.index i) (read v) <*> itemsFrom read (i + 1) rest = _ ↔ _
    rw [seq_eq_good_iff, List.forall₂_cons_left_iff]
    constructor
    · rintro ⟨f, as, hf, has, rfl⟩
      obtain ⟨a, ha, rfl⟩ := map_eq_good_iff.mp hf
      exact ⟨a, as, within_eq_good_iff.mp ha, ih.mp has, rfl⟩
    · rintro ⟨a, as, ha, has, rfl⟩
      exact ⟨_, as, map_eq_good_iff.mpr ⟨a, within_eq_good_iff.mpr ha, rfl⟩, ih.mpr has, rfl⟩

/-- The items of a good list have been read one by one. -/
theorem listOf_eq_good_iff {read : Json → Checked α} {v : Json} {as : List α} :
    listOf read v = .good as ↔
      ∃ items, v = .list items ∧ List.Forall₂ (fun v a => read v = .good a) items as := by
  cases v with
  | list items =>
    simp only [listOf, itemsFrom_eq_good_iff, Json.list.injEq, exists_eq_left']
  | _ => exact iff_of_false nofun nofun

/-- Every item of a good list has been read. -/
theorem exists_of_mem_listOf {read : Json → Checked α} {v : Json} {as : List α} {a : α}
    (h : listOf read v = .good as) (ha : a ∈ as) : ∃ item, read item = .good a := by
  obtain ⟨items, -, hread⟩ := listOf_eq_good_iff.mp h
  obtain ⟨i, hi, rfl⟩ := List.getElem_of_mem ha
  exact ⟨_, hread.get (hread.length_eq ▸ hi) hi⟩

end Checked

end Typeahead
