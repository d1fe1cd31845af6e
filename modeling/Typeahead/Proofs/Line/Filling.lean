import Typeahead.Proofs.Grammar.Slots
import Typeahead.Proofs.Line.Entries

/-!
# How the slots are filled

The arguments that are neither the name of the command nor a flag nor the value of one are the free
ones.  They fill the leading slots of the grammar one after the other, whatever stands between them,
and once these are full every further one is left over: a slot behind a gap in the positions is
never filled.

## Main definitions

* `Reading.isFree` — the reading of a free argument.

## Main results

* `Used.Reads.slots_cases` — what reading an argument does to the slots.
* `Reading.filled_readAll` — a run of free arguments, behind any arguments before it.
* `Reading.filled_ofArguments` — **the free arguments of a line fill the leading slots in order, and
  the others are left over.**
-/

namespace Typeahead

namespace Reading

/-- The argument is neither the name of the command nor a flag nor the value of one. -/
def isFree (r : Reading) : Bool := r.role ∉ [Role.command, .flag, .valueFlag, .value]

/-- The reading of an argument that fills the slot at an index. -/
def ofSlot (k : Nat) (slot : Slot) : Reading :=
  ⟨slot.kind, .positional, some k, shown slot.placeholder⟩

/-- The reading of an argument that is left over. -/
def leftOver : Reading := ⟨.text, .other, none, none⟩

end Reading

open Reading

namespace Used

variable {g : Grammar} {u u' : Used} {argument : Text} {r : Reading}

/-- **What reading an argument does to the slots**, as long as only leading ones are filled: it is
not free and leaves them as they are, or it fills the next leading slot, or these are full and it is
left over. -/
theorem Reads.slots_cases (horder : Slot.Ordered 1 g.slots)
    (hu : u.slots ≤ Slot.leading 1 g.slots) (h : Reads g u argument r u') :
    (r.isFree = false ∧ u'.slots = u.slots) ∨
      (u.slots < Slot.leading 1 g.slots ∧ u'.slots = u.slots + 1 ∧
        ∃ slot, g.slots[u.slots]? = some slot ∧ r = ofSlot u.slots slot) ∨
      (u.slots = Slot.leading 1 g.slots ∧ u'.slots = u.slots ∧ r = leftOver) := by
  cases h with
  | value waiting => exact .inl ⟨rfl, rfl⟩
  | valueFlag idle entry name unused => exact .inl ⟨rfl, rfl⟩
  | flag idle spent entry name unused => exact .inl ⟨rfl, rfl⟩
  | @positional k slot idle spent gone entry position =>
    obtain ⟨rfl, hlt⟩ :=
      horder.index_of_position hu entry (position.trans (Nat.add_comm u.slots 1))
    exact .inr (.inl ⟨hlt, rfl, slot, entry, rfl⟩)
  | other idle spent gone full =>
    refine .inr (.inr ⟨Nat.le_antisymm hu (Nat.le_of_not_lt fun hlt => ?_), rfl, rfl⟩)
    -- The next leading slot would have been filled.
    obtain ⟨slot, hslot⟩ := Slot.exists_of_lt_leading hlt
    have hposition := (horder.position_cases hslot).1 hlt
    exact full _ slot hslot (hposition.trans (Nat.add_comm 1 u.slots))

end Used

namespace Reading

variable {g : Grammar}

/-- What the free argument at a place among the free ones is read as. -/
inductive Filled (g : Grammar) (place : Nat) : Reading → Prop
  /-- It fills the leading slot of that index. -/
  | slot {slot : Slot} (leading : place < Slot.leading 1 g.slots)
    (entry : g.slots[place]? = some slot) : Filled g place (ofSlot place slot)
  /-- The leading slots are full. -/
  | leftOver (full : Slot.leading 1 g.slots ≤ place) : Filled g place leftOver

/-- **The free arguments go on filling the leading slots** behind those that the arguments before
have filled. -/
theorem filled_readAll (horder : Slot.Ordered 1 g.slots) {u : Used}
    (hu : u.slots ≤ Slot.leading 1 g.slots) {arguments : List Text} {i : Nat} {r : Reading}
    (hr : ((readAll g u arguments).filter isFree)[i]? = some r) : Filled g (u.slots + i) r := by
  -- By induction on the arguments, with the number of filled slots as what changes. The three sorts
  -- of reading: one that is not free, one that fills the next slot, and one that finds all filled.
  induction arguments generalizing u i with
  | nil => cases hr
  | cons argument rest ih =>
    rw [readAll] at hr
    rcases (u.reads_read g argument).slots_cases horder hu with
      ⟨hfree, hslots⟩ | ⟨hlt, hslots, slot, hslot, hread⟩ | ⟨hfull, hslots, hread⟩
    · rw [List.filter_cons_of_neg (by simp [hfree])] at hr
      have := ih (hslots ▸ hu) hr
      rwa [hslots] at this
    · rw [hread, List.filter_cons_of_pos rfl] at hr
      cases i with
      | zero =>
        cases hr
        exact .slot hlt hslot
      | succ i =>
        have := ih (hslots ▸ hlt) hr
        rwa [hslots, Nat.add_right_comm] at this
    · rw [hread, List.filter_cons_of_pos rfl] at hr
      cases i with
      | zero =>
        cases hr
        exact .leftOver hfull.ge
      | succ i =>
        cases ih (hslots ▸ hu) hr with
        | slot hlt _ => omega
        | leftOver _ => exact .leftOver (by omega)

/-- The free arguments of a line are those behind the name of the command. -/
theorem filter_isFree_ofArguments (g : Grammar) (arguments : List Text) :
    (ofArguments (some g) arguments).filter isFree =
      (readAll g .initial arguments.tail).filter isFree := by
  cases arguments with
  | nil => rfl
  | cons name rest => rfl

/-- If the first free arguments fill slots and the others do not, the arguments that fill slots are
those. -/
theorem filter_positional_eq_take {readings : List Reading} {n : Nat}
    (hbelow : ∀ i r, (readings.filter isFree)[i]? = some r → i < n → r.role = .positional)
    (hbehind : ∀ i r, (readings.filter isFree)[i]? = some r → n ≤ i → r.role ≠ .positional) :
    readings.filter (·.role = .positional) = (readings.filter isFree).take n := by
  have hfirst : ∀ r ∈ (readings.filter isFree).take n, decide (r.role = .positional) = true := by
    intro r hr
    obtain ⟨i, hi⟩ := List.mem_iff_getElem?.mp hr
    rw [List.getElem?_take, Option.ite_none_right_eq_some] at hi
    exact decide_eq_true (hbelow i r hi.2 hi.1)
  have hrest : ∀ r ∈ (readings.filter isFree).drop n, ¬ decide (r.role = .positional) = true := by
    intro r hr
    obtain ⟨i, hi⟩ := List.mem_iff_getElem?.mp hr
    rw [List.getElem?_drop] at hi
    exact mt of_decide_eq_true (hbehind (n + i) r hi (Nat.le_add_right n i))
  calc readings.filter (·.role = .positional)
      = (readings.filter isFree).filter (·.role = .positional) := by
        rw [List.filter_filter]
        refine List.filter_congr fun r _ => ?_
        -- An argument that fills a slot is free.
        by_cases hrole : r.role = .positional <;> simp [isFree, hrole]
    _ = ((readings.filter isFree).take n ++ (readings.filter isFree).drop n).filter
          (·.role = .positional) := by rw [List.take_append_drop]
    _ = (readings.filter isFree).take n := by
        rw [List.filter_append, List.filter_eq_self.mpr hfirst, List.filter_eq_nil_iff.mpr hrest,
          List.append_nil]

/-- **The free arguments of a line fill the leading slots in order, and the others are left over.**
Let the grammar be from a description that is let pass.  Of the free arguments, the one at a place
below the number of leading slots fills the slot of that index, whose position is one more; all
others are left over.  So the arguments that fill slots are the first of the free ones, and a slot
that is not a leading one is never taken, whatever the line holds. -/
theorem filled_ofArguments {v : Json} {g : Grammar} (h : Grammar.ofJson v = .good g)
    (arguments : List Text) :
    let readings := ofArguments (some g) arguments
    let free := readings.filter isFree
    let n := Slot.leading 1 g.slots
    IsGreatest {m | (g.slots.take m).map Slot.position = List.range' 1 m} n ∧
      readings.length = arguments.length ∧
      (∀ i r, free[i]? = some r → i < n →
        ∃ slot, g.slots[i]? = some slot ∧ slot.position = i + 1 ∧ r = ofSlot i slot) ∧
      (∀ i r, free[i]? = some r → n ≤ i → r = leftOver) ∧
      readings.filter (·.role = .positional) = free.take n ∧
      ∀ k, n ≤ k → ¬ Taken readings .positional k := by
  intro readings free n
  have horder : Slot.Ordered 1 g.slots := Readers.ordered_slots h
  -- The free readings are those that are made from the start, where no slot is filled.
  have hfilled : ∀ i r, free[i]? = some r → Filled g i r := by
    intro i r hr
    rw [show free = _ from filter_isFree_ofArguments g arguments] at hr
    have := filled_readAll horder (Nat.zero_le n) hr
    rwa [show Used.initial.slots = 0 from rfl, Nat.zero_add] at this
  have hslot : ∀ i r, free[i]? = some r → i < n →
      ∃ slot, g.slots[i]? = some slot ∧ slot.position = i + 1 ∧ r = ofSlot i slot := by
    intro i r hr hlt
    cases hfilled i r hr with
    | @slot slot leading entry =>
      have hposition := (horder.position_cases entry).1 leading
      exact ⟨slot, entry, hposition.trans (Nat.add_comm 1 i), rfl⟩
    | leftOver full => exact absurd hlt (Nat.not_lt_of_le full)
  have hleft : ∀ i r, free[i]? = some r → n ≤ i → r = leftOver := by
    intro i r hr hle
    cases hfilled i r hr with
    | slot leading entry => exact absurd leading (Nat.not_lt_of_le hle)
    | leftOver full => rfl
  have hpositional : readings.filter (·.role = .positional) = free.take n := by
    refine filter_positional_eq_take ?_ ?_
    · intro i r hr hlt
      obtain ⟨slot, -, -, rfl⟩ := hslot i r hr hlt
      rfl
    · intro i r hr hle
      rw [hleft i r hr hle]
      nofun
  refine ⟨Slot.isGreatest_leading 1 g.slots, length_ofArguments _ _, hslot, hleft, hpositional, ?_⟩
  -- A slot behind the first gap would have to be that of a positional reading, and all of these are
  -- in front of the gap.
  rintro k hle ⟨r, hr, hrole, hentry⟩
  have hmem : r ∈ free.take n := hpositional ▸ List.mem_filter.mpr ⟨hr, decide_eq_true hrole⟩
  obtain ⟨i, hi⟩ := List.mem_iff_getElem?.mp hmem
  rw [List.getElem?_take, Option.ite_none_right_eq_some] at hi
  obtain ⟨slot, -, -, rfl⟩ := hslot i r hi.2 hi.1
  have hindex : (i : Int) = k := Option.some.inj hentry
  omega

/-- A description of slots at the positions three and one, given in that order, a flag and a flag
with a value. -/
def gappedDescription : Json :=
  let slot (position : Int) : Json :=
    .object [("argType".toList, .text "path".toList), ("argPos".toList, .int position)]
  let flag (name : Text) : Json :=
    .object [("flagName".toList, .text name), ("argType".toList, .text "text".toList)]
  .object [("name".toList, .text ['c', 'p']), ("singleArg".toList, .list [slot 3, slot 1]),
    ("flag".toList, .list [flag ['-', 'f']]), ("flagArgPair".toList, .list [flag ['-', 'o']])]

/-- The slot behind the gap is not filled, although there are arguments left for it. -/
theorem filled_ofArguments_sample :
    let output : ValueFlag := ⟨['-', 'o'], [], .text, [], ⟨none, none⟩⟩
    let g : Grammar := ⟨['c', 'p'], [], ⟨none, none⟩, [⟨.path, [], 1⟩, ⟨.path, [], 3⟩],
      [⟨['-', 'f'], [], ⟨none, none⟩⟩], [output]⟩
    let arguments : List Text :=
      [['c', 'p'], ['-', 'f'], ['a'], ['-', 'o'], ['b'], ['c'], [], ['d']]
    let readings := ofArguments (some g) arguments
    Grammar.ofJson gappedDescription = .good g ∧ Slot.leading 1 g.slots = 1 ∧
      readings.map role =
        [.command, .flag, .positional, .valueFlag, .value, .other, .other, .other] ∧
      ¬ Taken readings .positional 1 := by
  intro output g arguments readings
  have hgood : Grammar.ofJson gappedDescription = .good g := rfl
  have hroles : readings.map role =
      [.command, .flag, .positional, .valueFlag, .value, .other, .other, .other] := by
    decide +kernel
  exact ⟨hgood, rfl, hroles, (filled_ofArguments hgood arguments).2.2.2.2.2 1 (by decide)⟩

end Reading

end Typeahead
