import Mathlib.Order.Bounds.Basic
import Typeahead.Grammar.Schema
import Typeahead.Proofs.Grammar.Checked

/-!
# The slots of a grammar

A description that is let pass has a position of at least one for each of its slots and no position
twice, and the slots of its grammar stand in order of position.  Nothing says that the positions
follow one another.  Those that do, from the first on, are the leading slots: each of them stands at
the index before its position, while the position of every slot behind them lies further ahead.

## Main definitions

* `Slot.Ordered` — the slots stand in order of position, from a position on.
* `Slot.leading` — how many slots at the start have one position after the other.

## Main results

* `Readers.ordered_slots` — **the slots of a grammar from a description are in order**, whatever the
  readers of single values.
* `Slot.isGreatest_leading` — the leading slots are the longest part with one position after the
  other.
* `Slot.Ordered.position_cases` — the position of a slot, by its index.
-/

namespace Typeahead

/-! ### The order of the slots -/

/-- The slots stand in order of position, no two have one position, and none has one below
`first`. -/
structure Slot.Ordered (first : Nat) (slots : List Slot) : Prop where
  increasing : slots.Pairwise fun slot later => slot.position < later.position
  first_le : ∀ slot ∈ slots, first ≤ slot.position

theorem Position.one_le_of_read {integer : Json → Except IssueKind Int} {v : Json} {n : Nat}
    (h : Position.read integer v = .good n) : 1 ≤ n := by
  unfold Position.read at h
  split at h
  next => cases h
  next m _ =>
    split at h
    next => cases h
    next =>
      cases h
      omega

theorem Readers.one_le_position {r : Readers} {v : Json} {slot : Slot}
    (h : r.slot v = .good slot) : 1 ≤ slot.position := by
  cases v with
  | object members =>
    obtain ⟨make, position, hmake, hposition, rfl⟩ := Checked.seq_eq_good_iff.mp h
    obtain ⟨make, placeholder, hkind, -, rfl⟩ := Checked.seq_eq_good_iff.mp hmake
    obtain ⟨kind, -, rfl⟩ := Checked.map_eq_good_iff.mp hkind
    obtain ⟨given, hread⟩ := Checked.exists_of_field hposition
    exact Position.one_le_of_read hread
  | _ => cases h

/-- Numbers in order of which none equals its predecessor are increasing. -/
theorem pairwise_lt_of_firstRepeat?_eq_none {keys : List Nat} (h : firstRepeat? keys = none)
    (hle : keys.Pairwise (· ≤ ·)) : keys.Pairwise (· < ·) := by
  fun_induction firstRepeat? keys with
  | case1 => exact .nil
  | case2 a => exact List.pairwise_singleton _ a
  | case3 b rest => cases h
  | case4 a b rest hne ih =>
    obtain ⟨ha, hrest⟩ := List.pairwise_cons.mp hle
    have hincreasing : (b :: rest).Pairwise (· < ·) := ih h hrest
    have hlt : a < b := Nat.lt_of_le_of_ne (ha b List.mem_cons_self) hne
    refine List.pairwise_cons.mpr ⟨?_, hincreasing⟩
    intro c hc
    rcases List.mem_cons.mp hc with rfl | hc
    · exact hlt
    · exact Nat.lt_trans hlt (List.rel_of_pairwise_cons hincreasing hc)

namespace Grammar

open Checked

/-- Slots that are let pass are put in order of position, and no two have one position. -/
theorem inOrder_eq_good {slots sorted : List Slot} (h : inOrder slots = .good sorted) :
    sorted = stableSort Slot.position slots ∧
      sorted.Pairwise fun slot later => slot.position < later.position := by
  unfold inOrder at h
  dsimp only at h
  split at h
  next => cases h
  next hnone =>
    cases h
    have hsorted := pairwise_stableSort (κ := Nat) (fun _ _ => Nat.lt_asymm)
      (fun a b c hab hbc => by omega) Slot.position slots
    have hle : ((stableSort Slot.position slots).map Slot.position).Pairwise (· ≤ ·) :=
      List.pairwise_map.mpr (hsorted.imp Nat.le_of_not_lt)
    exact ⟨rfl, List.pairwise_map.mp (pairwise_lt_of_firstRepeat?_eq_none hnone hle)⟩

end Grammar

namespace Readers

open Checked

variable {r : Readers} {v : Json}

theorem ordered_of_slots {slots : List Slot} (h : r.slots v = .good slots) :
    Slot.Ordered 1 slots := by
  obtain ⟨given, hgiven, horder⟩ := andThen_eq_good_iff.mp h
  obtain ⟨rfl, hincreasing⟩ := Grammar.inOrder_eq_good horder
  refine ⟨hincreasing, ?_⟩
  intro slot hslot
  obtain ⟨item, hread⟩ :=
    exists_of_mem_listOf hgiven ((stableSort_perm Slot.position given).mem_iff.mp hslot)
  exact one_le_position hread

/-- What the parts of a grammar have been read from. -/
theorem grammar_eq_good {g : Grammar} (h : r.grammar v = .good g) :
    ∃ members, v = .object members ∧
      field members "name" "name" r.text = .good g.name ∧
      optionalField members "exeTo" "exe_to" [] r.text = .good g.substitute ∧
      r.hooks members = .good g.hooks ∧
      optionalField members "singleArg" "args" [] r.slots = .good g.slots ∧
      optionalField members "flag" "flags" [] r.flags = .good g.flags ∧
      optionalField members "flagArgPair" "arg_flags" [] r.valueFlags = .good g.valueFlags := by
  cases v with
  | object members =>
    obtain ⟨make₅, valueFlags, h₅, hvalueFlags, rfl⟩ := seq_eq_good_iff.mp h
    obtain ⟨make₄, flags, h₄, hflags, rfl⟩ := seq_eq_good_iff.mp h₅
    obtain ⟨make₃, slots, h₃, hslots, rfl⟩ := seq_eq_good_iff.mp h₄
    obtain ⟨make₂, hooks, h₂, hhooks, rfl⟩ := seq_eq_good_iff.mp h₃
    obtain ⟨make₁, substitute, h₁, hsubstitute, rfl⟩ := seq_eq_good_iff.mp h₂
    obtain ⟨name, hname, rfl⟩ := map_eq_good_iff.mp h₁
    exact ⟨members, rfl, hname, hsubstitute, hhooks, hslots, hflags, hvalueFlags⟩
  | _ => cases h

/-- **The slots of a grammar from a description are in order of position**, from one on, and no
position is there twice. -/
theorem ordered_slots {g : Grammar} (h : r.grammar v = .good g) : Slot.Ordered 1 g.slots := by
  obtain ⟨members, -, -, -, -, hslots, -, -⟩ := grammar_eq_good h
  rcases exists_of_optionalField hslots with hnil | ⟨given, hgiven⟩
  · rw [hnil]
    exact ⟨.nil, nofun⟩
  · exact ordered_of_slots hgiven

end Readers

/-! ### The slots that follow one another -/

namespace Slot

/-- How many slots at the start have the positions `first`, `first + 1` and so on. -/
def leading (first : Nat) : List Slot → Nat
  | [] => 0
  | slot :: rest => if slot.position = first then leading (first + 1) rest + 1 else 0

theorem exists_of_lt_leading {first i : Nat} {slots : List Slot} (h : i < leading first slots) :
    ∃ slot, slots[i]? = some slot := by
  induction slots generalizing first i with
  | nil => cases h
  | cons slot rest ih =>
    simp only [leading] at h
    split at h
    next =>
      cases i with
      | zero => exact ⟨slot, rfl⟩
      | succ i => exact ih (Nat.lt_of_succ_lt_succ h)
    next => cases h

/-- The positions of the leading slots follow one another. -/
theorem map_position_take_leading (first : Nat) (slots : List Slot) :
    (slots.take (leading first slots)).map position = List.range' first (leading first slots) := by
  induction slots generalizing first with
  | nil => rfl
  | cons slot rest ih =>
    simp only [leading]
    split
    next heq => rw [List.take_succ_cons, List.map_cons, List.range'_succ, ih, heq]
    next => rfl

/-- There are no more slots at the start whose positions follow one another. -/
theorem le_leading {first m : Nat} {slots : List Slot}
    (h : (slots.take m).map position = List.range' first m) : m ≤ leading first slots := by
  induction slots generalizing first m with
  | nil =>
    cases m with
    | zero => exact Nat.zero_le _
    | succ m => cases h
  | cons slot rest ih =>
    cases m with
    | zero => exact Nat.zero_le _
    | succ m =>
      rw [List.take_succ_cons, List.map_cons, List.range'_succ, List.cons.injEq] at h
      rw [leading, if_pos h.1]
      exact Nat.succ_le_succ (ih h.2)

/-- **The leading slots are the longest part at the start of the slots whose positions follow one
another.** -/
theorem isGreatest_leading (first : Nat) (slots : List Slot) :
    IsGreatest {m | (slots.take m).map position = List.range' first m} (leading first slots) :=
  ⟨map_position_take_leading first slots, fun _ h => le_leading h⟩

namespace Ordered

variable {first i : Nat} {slots : List Slot} {slot : Slot}

/-- The slots behind the first one are in order behind its position. -/
theorem tail (h : Ordered first (slot :: slots)) : Ordered (slot.position + 1) slots :=
  ⟨(List.pairwise_cons.mp h.increasing).2, (List.pairwise_cons.mp h.increasing).1⟩

/-- A position is as far ahead as the index of its slot. -/
theorem le_position (h : Ordered first slots) (hslot : slots[i]? = some slot) :
    first + i ≤ slot.position := by
  induction slots generalizing first i with
  | nil => cases hslot
  | cons other rest ih =>
    have hfirst : first ≤ other.position := h.first_le other List.mem_cons_self
    cases i with
    | zero =>
      cases hslot
      exact hfirst
    | succ i =>
      have := ih h.tail hslot
      omega

/-- **The position of a slot, by its index**: that of a leading slot is as far ahead as its index,
and that of a slot behind them is further ahead. -/
theorem position_cases (h : Ordered first slots) (hslot : slots[i]? = some slot) :
    (i < leading first slots → slot.position = first + i) ∧
      (leading first slots ≤ i → first + i < slot.position) := by
  induction slots generalizing first i with
  | nil => cases hslot
  | cons other rest ih =>
    simp only [leading]
    split
    next heq =>
      cases i with
      | zero =>
        cases hslot
        exact ⟨fun _ => heq, fun hle => absurd hle (by omega)⟩
      | succ i =>
        have htail := h.tail
        rw [heq] at htail
        obtain ⟨hbefore, hbehind⟩ := ih htail hslot
        refine ⟨fun hlt => ?_, fun hle => ?_⟩
        · have := hbefore (by omega)
          omega
        · have := hbehind (by omega)
          omega
    next hne =>
      refine ⟨fun hlt => absurd hlt (Nat.not_lt_zero i), fun _ => ?_⟩
      have hfirst : first ≤ other.position := h.first_le other List.mem_cons_self
      -- The first slot leaves a gap, and every slot behind it keeps its distance.
      cases i with
      | zero =>
        cases hslot
        omega
      | succ i =>
        have := h.tail.le_position hslot
        omega

/-- Among the slots the next position can only be that of the next leading slot. -/
theorem index_of_position (h : Ordered first slots) {n : Nat} (hn : n ≤ leading first slots)
    (hslot : slots[i]? = some slot) (hposition : slot.position = first + n) :
    i = n ∧ n < leading first slots := by
  obtain ⟨hbefore, hbehind⟩ := h.position_cases hslot
  rcases Nat.lt_or_ge i (leading first slots) with hlt | hge
  · have := hbefore hlt
    omega
  · have := hbehind hge
    omega

end Ordered

end Slot

end Typeahead
