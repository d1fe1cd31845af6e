import Mathlib.Data.List.Nodup
import Typeahead.Text.Order

/-!
# Sorting by a key

Sorting keeps the entries of one key in their order.  If no two entries have one key, what is sorted
is decided by the entries alone, in whatever order they come.

## Main definitions

* `KeyOrder` — the laws of an order that entries are sorted by.
* `Sorts` — a list has the entries of another one by increasing key, those of one key in their
  order.

## Main results

* `KeyOrder.sorts` — **sorting sorts.**
* `KeyOrder.stableSort_eq_of_perm` — the order of entries with different keys does not matter.
* `Text.pairwise_sort` — different texts are sorted strictly.
-/

namespace Typeahead

variable {α κ : Type} [LT κ]

/-- The laws of an order that entries are sorted by. -/
structure KeyOrder (κ : Type) [LT κ] : Prop where
  asymm : ∀ a b : κ, a < b → ¬ b < a
  trans : ∀ a b c : κ, ¬ b < a → ¬ c < b → ¬ c < a
  eq_of_not_lt : ∀ a b : κ, ¬ a < b → ¬ b < a → a = b

theorem keyOrder_nat : KeyOrder Nat where
  asymm _ _ := Nat.lt_asymm
  trans a b c _ _ := by omega
  eq_of_not_lt a b _ _ := by omega

theorem keyOrder_text : KeyOrder Text where
  asymm _ _ := List.lt_asymm
  trans _ _ _ hab hbc :=
    List.not_lt.mpr (List.le_trans (List.not_lt.mp hab) (List.not_lt.mp hbc))
  eq_of_not_lt _ _ := Text.eq_of_not_lt

/-- `sorted` has the entries of `xs` by increasing key, and those of one key in their order. -/
structure Sorts [DecidableEq κ] (key : α → κ) (xs sorted : List α) : Prop where
  perm : sorted.Perm xs
  ordered : sorted.Pairwise fun entry later => ¬ key later < key entry
  stable : ∀ k, (sorted.filter fun entry => key entry = k) = xs.filter fun entry => key entry = k

namespace KeyOrder

variable [DecidableRel (α := κ) (· < ·)] {xs ys : List α}

/-- **Entries of different keys are sorted in the same way in whatever order they come.** -/
theorem stableSort_eq_of_perm (h : KeyOrder κ) {key : α → κ} (hperm : xs.Perm ys)
    (hdistinct : (xs.map key).Nodup) : stableSort key xs = stableSort key ys := by
  have hxs := stableSort_perm key xs
  have hsame : (stableSort key xs).Perm (stableSort key ys) :=
    hxs.trans (hperm.trans (stableSort_perm key ys).symm)
  refine hsame.eq_of_pairwise ?_ (pairwise_stableSort h.asymm h.trans key xs)
    (pairwise_stableSort h.asymm h.trans key ys)
  intro x y hx hy hle hge
  -- Neither key is smaller, so the two entries are one.
  exact List.inj_on_of_nodup_map hdistinct (hxs.mem_iff.mp hx)
    (hxs.mem_iff.mp (hsame.mem_iff.mpr hy)) (h.eq_of_not_lt _ _ hge hle)

variable [DecidableEq κ]

/-- An entry is only put behind entries of other keys. -/
theorem filter_insertBefore (h : KeyOrder κ) (key : α → κ) (x : α) (ys : List α) (k : κ) :
    ((insertBefore key x ys).filter fun entry => key entry = k) =
      (x :: ys).filter fun entry => key entry = k := by
  induction ys with
  | nil => rfl
  | cons y ys ih =>
    -- What the new one is put behind has a smaller key, so it is not among those with its key.
    simp only [insertBefore]
    split
    next hlt =>
      rw [List.filter_cons, ih]
      by_cases hy : key y = k
      · have hx : key x ≠ k := fun hx => by
          rw [hx, hy] at hlt
          exact h.asymm k k hlt hlt
        simp [hx, hy]
      · simp [hy, List.filter_cons]
    next => rfl

theorem filter_stableSort (h : KeyOrder κ) (key : α → κ) (xs : List α) (k : κ) :
    ((stableSort key xs).filter fun entry => key entry = k) =
      xs.filter fun entry => key entry = k := by
  induction xs with
  | nil => rfl
  | cons x xs ih =>
    rw [stableSort_cons, h.filter_insertBefore, List.filter_cons, ih, List.filter_cons]

/-- **Sorting sorts.** -/
theorem sorts (h : KeyOrder κ) (key : α → κ) (xs : List α) : Sorts key xs (stableSort key xs) :=
  ⟨stableSort_perm key xs, pairwise_stableSort h.asymm h.trans key xs, h.filter_stableSort key xs⟩

end KeyOrder

namespace Text

variable {ts : List Text}

/-- **Different texts are sorted strictly.** -/
theorem pairwise_sort (h : ts.Nodup) : (sort ts).Pairwise (· < ·) := by
  have hordered := pairwise_stableSort keyOrder_text.asymm keyOrder_text.trans id ts
  have hdistinct : (sort ts).Nodup := (stableSort_perm id ts).nodup_iff.mpr h
  refine (hordered.and hdistinct).imp fun {t u} htu => ?_
  -- Two texts of which neither comes first would be equal.
  by_contra hlt
  exact htu.2 (eq_of_not_lt hlt htu.1)

end Text

end Typeahead
