import Typeahead.Text.Basic

/-!
# Code-point order

Texts are ordered like the words of a dictionary over their code points: `List`'s own order on
lists of characters.  Two ways of putting things in order are kept apart: `Text.sortDistinct` for a
set of names, where equal texts count once, and `stableSort` for a table, where entries with equal
keys stay and keep their order.  `Text.sort` is the second one for a table of nothing but names.

## Main definitions

* `Text.insertDistinct`, `Text.sortDistinct` — the strictly increasing list of the texts of a list;
  `Text.mem_sortDistinct` says that it has the same members, and `Text.pairwise_sortDistinct` that
  they are in order.
* `insertBefore`, `stableSort` — insertion sort by a key; `stableSort_perm` says that it only
  reorders, and `pairwise_stableSort` that no entry has a smaller key than one before it.
* `firstRepeat?` — the first value of a list that equals its predecessor.
-/

namespace Typeahead

namespace Text

/-- A text put into its place in an increasing list; one that is there already is not repeated. -/
def insertDistinct (t : Text) : List Text → List Text
  | [] => [t]
  | u :: us => if t < u then t :: u :: us else if u < t then u :: insertDistinct t us else u :: us

/-- The texts of a list in code-point order, each once. -/
def sortDistinct (ts : List Text) : List Text := ts.foldr insertDistinct []

@[simp] theorem sortDistinct_nil : sortDistinct [] = [] := rfl

@[simp] theorem sortDistinct_cons (t : Text) (ts : List Text) :
    sortDistinct (t :: ts) = insertDistinct t (sortDistinct ts) := rfl

/-- Two texts of which neither comes first are equal. -/
theorem eq_of_not_lt {t u : Text} (h : ¬ t < u) (h' : ¬ u < t) : t = u :=
  List.le_antisymm (List.not_lt.mp h') (List.not_lt.mp h)

theorem mem_insertDistinct {t u : Text} {us : List Text} :
    u ∈ insertDistinct t us ↔ u = t ∨ u ∈ us := by
  induction us with
  | nil => simp [insertDistinct]
  | cons v vs ih =>
    simp only [insertDistinct]
    split
    next => simp
    next hlt =>
      split
      next => simp only [List.mem_cons, ih]; exact or_left_comm
      next hgt =>
        -- Neither comes first, so the text is there already.
        have heq : t = v := eq_of_not_lt hlt hgt
        simp [heq]

/-- Sorting keeps the members of a list. -/
theorem mem_sortDistinct {u : Text} {ts : List Text} : u ∈ sortDistinct ts ↔ u ∈ ts := by
  induction ts with
  | nil => simp
  | cons t ts ih => simp [mem_insertDistinct, ih]

theorem pairwise_insertDistinct {t : Text} {us : List Text} (h : us.Pairwise (· < ·)) :
    (insertDistinct t us).Pairwise (· < ·) := by
  induction us with
  | nil => exact List.pairwise_singleton _ t
  | cons u us ih =>
    obtain ⟨hu, hus⟩ := List.pairwise_cons.mp h
    simp only [insertDistinct]
    split
    next hlt =>
      refine List.pairwise_cons.mpr ⟨?_, h⟩
      intro v hv
      rcases List.mem_cons.mp hv with rfl | hv
      · exact hlt
      · exact List.lt_trans hlt (hu v hv)
    next =>
      split
      next hgt =>
        refine List.pairwise_cons.mpr ⟨?_, ih hus⟩
        intro v hv
        rcases mem_insertDistinct.mp hv with rfl | hv
        · exact hgt
        · exact hu v hv
      next => exact h

/-- A sorted list is in order, and no text is in it twice. -/
theorem pairwise_sortDistinct (ts : List Text) : (sortDistinct ts).Pairwise (· < ·) := by
  induction ts with
  | nil => exact List.Pairwise.nil
  | cons t ts ih => exact pairwise_insertDistinct ih

/-- The first of some texts in order is the one that none of them comes before. -/
theorem head?_eq_some_iff_least {ts : List Text} (h : ts.Pairwise (· < ·)) {t : Text} :
    ts.head? = some t ↔ t ∈ ts ∧ ∀ u ∈ ts, ¬ u < t := by
  cases ts with
  | nil => simp
  | cons first rest =>
    obtain ⟨hfirst, -⟩ := List.pairwise_cons.mp h
    simp only [List.head?_cons, Option.some.injEq]
    constructor
    · rintro rfl
      refine ⟨List.mem_cons_self, ?_⟩
      intro u hu
      rcases List.mem_cons.mp hu with rfl | hu
      · exact List.lt_irrefl u
      · exact List.lt_asymm (hfirst u hu)
    · rintro ⟨ht, hleast⟩
      rcases List.mem_cons.mp ht with rfl | ht
      · rfl
      · exact absurd (hfirst t ht) (hleast first List.mem_cons_self)

end Text

section Sorting

variable {α κ : Type} [LT κ] [DecidableRel (α := κ) (· < ·)]

/-- An entry put before the first one whose key is not smaller than its own. -/
def insertBefore (key : α → κ) (x : α) : List α → List α
  | [] => [x]
  | y :: ys => if key y < key x then y :: insertBefore key x ys else x :: y :: ys

/-- The entries by increasing key; entries with equal keys keep their order. -/
def stableSort (key : α → κ) (xs : List α) : List α := xs.foldr (insertBefore key) []

@[simp] theorem stableSort_nil (key : α → κ) : stableSort key [] = [] := rfl

@[simp] theorem stableSort_cons (key : α → κ) (x : α) (xs : List α) :
    stableSort key (x :: xs) = insertBefore key x (stableSort key xs) := rfl

theorem insertBefore_perm (key : α → κ) (x : α) (ys : List α) :
    (insertBefore key x ys).Perm (x :: ys) := by
  induction ys with
  | nil => exact List.Perm.refl _
  | cons y ys ih =>
    simp only [insertBefore]
    split
    next => exact (ih.cons y).trans (List.Perm.swap x y ys)
    next => exact List.Perm.refl _

/-- Sorting only reorders. -/
theorem stableSort_perm (key : α → κ) (xs : List α) : (stableSort key xs).Perm xs := by
  induction xs with
  | nil => exact List.Perm.refl _
  | cons x xs ih => exact (insertBefore_perm key x _).trans (ih.cons x)

theorem pairwise_insertBefore (hasymm : ∀ a b : κ, a < b → ¬ b < a)
    (htrans : ∀ a b c : κ, ¬ b < a → ¬ c < b → ¬ c < a) (key : α → κ) (x : α) {ys : List α}
    (h : ys.Pairwise fun y z => ¬ key z < key y) :
    (insertBefore key x ys).Pairwise fun y z => ¬ key z < key y := by
  induction ys with
  | nil => exact List.pairwise_singleton _ x
  | cons y ys ih =>
    obtain ⟨hy, hys⟩ := List.pairwise_cons.mp h
    simp only [insertBefore]
    split
    next hlt =>
      refine List.pairwise_cons.mpr ⟨?_, ih hys⟩
      intro z hz
      rcases List.mem_cons.mp ((insertBefore_perm key x ys).mem_iff.mp hz) with rfl | hz
      · exact hasymm _ _ hlt
      · exact hy z hz
    next hge =>
      refine List.pairwise_cons.mpr ⟨?_, h⟩
      intro z hz
      rcases List.mem_cons.mp hz with rfl | hz
      · exact hge
      · exact htrans _ _ _ hge (hy z hz)

/-- Sorted entries are in order. -/
theorem pairwise_stableSort (hasymm : ∀ a b : κ, a < b → ¬ b < a)
    (htrans : ∀ a b c : κ, ¬ b < a → ¬ c < b → ¬ c < a) (key : α → κ) (xs : List α) :
    (stableSort key xs).Pairwise fun y z => ¬ key z < key y := by
  induction xs with
  | nil => exact List.Pairwise.nil
  | cons x xs ih => exact pairwise_insertBefore hasymm htrans key x ih

end Sorting

/-- The texts of a list in code-point order; one that is there several times stays so. -/
def Text.sort (ts : List Text) : List Text := stableSort id ts

/-- The first value that equals the one before it. -/
def firstRepeat? {κ : Type} [DecidableEq κ] : List κ → Option κ
  | [] => none
  | [_] => none
  | a :: b :: rest => if a = b then some b else firstRepeat? (b :: rest)

end Typeahead
