import Typeahead.Fault
import Typeahead.Number.Word

/-!
# Indexes

An index into a list counts from the end if it is negative.  One outside the list names nothing, and
one that is not even a machine word is refused as such.

## Main definitions

* `place?` — the place that an index stands for.
* `entryAt` — the entry at an index; `entryAt_natCast` says that an index which does not count from
  the end is a place in the list.
-/

namespace Typeahead

/-- The place that an index stands for among `length` things. -/
def place? (length : Nat) (i : Int) : Option Nat :=
  let j := if i < 0 then i + length else i
  if 0 ≤ j && j < length then some j.toNat else none

/-- The entry of a list at an index. -/
def entryAt {α : Type} (xs : List α) (i : Int) : Except Fault α :=
  match (place? xs.length i).bind (xs[·]?) with
  | some x => .ok x
  | none => .error (if fitsWord i then .noEntry else .hugeIndex)

theorem place?_natCast {length k : Nat} (h : k < length) : place? length k = some k := by
  have hneg : ¬ (k : Int) < 0 := by omega
  simp [place?, hneg, h]

/-- An index that does not count from the end is a place in the list. -/
theorem entryAt_natCast {α : Type} {xs : List α} {k : Nat} (h : k < xs.length) :
    entryAt xs k = .ok xs[k] := by
  simp [entryAt, place?_natCast h, h]

end Typeahead
