import Typeahead.Proofs.Line.Reading

/-!
# How a line uses up its grammar

The readings of a line are made from left to right, and what an argument is taken for depends on the
entries of the grammar that those before it have taken.  Each entry is taken once, flags with a
value come before flags and these before slots, and an argument is left over only if no entry that
it names is still there and no slot is the next to be filled.  While reading, the entries taken so
far are kept in a record of its own; here the record is tied to the readings made so far, so that
every reading is explained by those before it and the record is not mentioned.

## Main definitions

* `Used.Reads` — the ways to read an argument, each with what is known then.
* `Reading.Taken` — an entry that some readings have taken.
* `Reading.Justified` — a reading that the readings before it explain.
* `Used.Accounts` — the record says what some readings have taken.

## Main results

* `Used.reads_read` — an argument is read in one of these ways.
* `Used.Accounts.justified`, `Used.Accounts.step` — a reading is explained by those before it, and
  the record accounts for it from then on.
* `Reading.justified_ofArguments` — **every reading of a line is explained by those before it, and
  no entry is taken twice.**
-/

namespace Typeahead

namespace Used

/-! ### Looking for an entry -/

section Lookup

variable {α : Type} {name : α → Text} {used : List Nat} {argument : Text} {i k : Nat}
  {entries : List α} {entry : α}

/-- The entry found has the name that was looked for and is not used up. -/
theorem firstUnused_eq_some (h : firstUnused name used argument i entries = some (k, entry)) :
    ∃ j, k = i + j ∧ entries[j]? = some entry ∧ name entry = argument ∧ k ∉ used := by
  induction entries generalizing i with
  | nil => cases h
  | cons first rest ih =>
    simp only [firstUnused] at h
    split at h
    next hfirst =>
      cases h
      simp only [Bool.and_eq_true, decide_eq_true_eq, Bool.not_eq_true', List.contains_eq_mem,
        decide_eq_false_iff_not] at hfirst
      exact ⟨0, rfl, rfl, hfirst.1, hfirst.2⟩
    next =>
      obtain ⟨j, hk, hentry, hname, hunused⟩ := ih h
      exact ⟨j + 1, by omega, hentry, hname, hunused⟩

/-- If none is found, every entry of the name is used up. -/
theorem firstUnused_eq_none (h : firstUnused name used argument i entries = none) {j : Nat}
    (hentry : entries[j]? = some entry) (hname : name entry = argument) : i + j ∈ used := by
  induction entries generalizing i j with
  | nil => cases hentry
  | cons first rest ih =>
    simp only [firstUnused] at h
    split at h
    next => cases h
    next hfirst =>
      cases j with
      | zero =>
        cases hentry
        simp only [hname, decide_true, Bool.true_and, Bool.not_eq_true', List.contains_eq_mem,
          decide_eq_false_iff_not, Classical.not_not] at hfirst
        exact hfirst
      | succ j =>
        have := ih h hentry
        rwa [Nat.add_right_comm] at this

end Lookup

/-- The slot found has the position that was looked for. -/
theorem slotAt_eq_some {position i k : Nat} {slots : List Slot} {slot : Slot}
    (h : slotAt position i slots = some (k, slot)) :
    ∃ j, k = i + j ∧ slots[j]? = some slot ∧ slot.position = position := by
  induction slots generalizing i with
  | nil => cases h
  | cons first rest ih =>
    simp only [slotAt] at h
    split at h
    next hfirst =>
      cases h
      exact ⟨0, rfl, rfl, hfirst⟩
    next =>
      obtain ⟨j, hk, hslot, hposition⟩ := ih h
      exact ⟨j + 1, by omega, hslot, hposition⟩

/-- If none is found, no slot has the position. -/
theorem slotAt_eq_none {position i : Nat} {slots : List Slot}
    (h : slotAt position i slots = none) (k : Nat) (slot : Slot) (hslot : slots[k]? = some slot) :
    slot.position ≠ position := by
  induction slots generalizing i k with
  | nil => cases hslot
  | cons first rest ih =>
    simp only [slotAt] at h
    split at h
    next => cases h
    next hfirst =>
      cases k with
      | zero =>
        cases hslot
        exact hfirst
      | succ k => exact ih h k hslot

/-! ### The ways to read an argument -/

/-- Every flag with a value that has this name is used up. -/
def NoValueFlag (g : Grammar) (u : Used) (argument : Text) : Prop :=
  ∀ (k : Nat) (flag : ValueFlag), g.valueFlags[k]? = some flag → flag.name = argument →
    k ∈ u.valueFlags

/-- Every flag that has this name is used up. -/
def NoFlag (g : Grammar) (u : Used) (argument : Text) : Prop :=
  ∀ (k : Nat) (flag : Flag), g.flags[k]? = some flag → flag.name = argument → k ∈ u.flags

/-- No slot is the next to be filled. -/
def NoSlot (g : Grammar) (u : Used) : Prop :=
  ∀ (k : Nat) (slot : Slot), g.slots[k]? = some slot → slot.position ≠ u.slots + 1

/-- **The ways to read an argument** behind those that used up `u`, each with the reading, what is
used up then, and what is known. -/
inductive Reads (g : Grammar) (u : Used) (argument : Text) : Reading → Used → Prop
  /-- It is the value that a flag waits for. -/
  | value {k : Nat} {flag : ValueFlag} (waiting : u.waiting = some (k, flag)) :
    Reads g u argument ⟨flag.kind, .value, some k, shown flag.placeholder⟩
      { u with waiting := none }
  /-- It is a flag that takes a value. -/
  | valueFlag {k : Nat} {flag : ValueFlag} (idle : u.waiting = none)
    (entry : g.valueFlags[k]? = some flag) (name : flag.name = argument)
    (unused : k ∉ u.valueFlags) :
    Reads g u argument ⟨.text, .valueFlag, some k, none⟩
      { u with waiting := some (k, flag), valueFlags := k :: u.valueFlags }
  /-- It is a flag that stands alone. -/
  | flag {k : Nat} {flag : Flag} (idle : u.waiting = none) (spent : NoValueFlag g u argument)
    (entry : g.flags[k]? = some flag) (name : flag.name = argument) (unused : k ∉ u.flags) :
    Reads g u argument ⟨.text, .flag, some k, none⟩ { u with flags := k :: u.flags }
  /-- It fills the next slot. -/
  | positional {k : Nat} {slot : Slot} (idle : u.waiting = none)
    (spent : NoValueFlag g u argument) (gone : NoFlag g u argument)
    (entry : g.slots[k]? = some slot) (position : slot.position = u.slots + 1) :
    Reads g u argument ⟨slot.kind, .positional, some k, shown slot.placeholder⟩
      { u with slots := u.slots + 1 }
  /-- It is left over. -/
  | other (idle : u.waiting = none) (spent : NoValueFlag g u argument)
    (gone : NoFlag g u argument) (full : NoSlot g u) :
    Reads g u argument ⟨.text, .other, none, none⟩ u

/-- **An argument is read in one of these ways.** -/
theorem reads_read (g : Grammar) (u : Used) (argument : Text) :
    Reads g u argument (u.read g argument).1 (u.read g argument).2 := by
  obtain ⟨waiting, valueFlags, flags, slots⟩ := u
  unfold read
  -- The cases are those of the search: each table is asked only if the ones before it had nothing,
  -- and that they had nothing is what the next case has to know.
  cases waiting with
  | some waiting => exact .value rfl
  | none =>
    dsimp only
    cases hvalueFlag : firstUnused ValueFlag.name valueFlags argument 0 g.valueFlags with
    | some found =>
      obtain ⟨j, hk, hentry, hname, hunused⟩ := firstUnused_eq_some hvalueFlag
      rw [Nat.zero_add] at hk
      exact .valueFlag rfl (hk ▸ hentry) hname hunused
    | none =>
      have hspent : NoValueFlag g ⟨none, valueFlags, flags, slots⟩ argument := by
        intro k flag hentry hname
        have hused := firstUnused_eq_none hvalueFlag hentry hname
        rwa [Nat.zero_add] at hused
      cases hflag : firstUnused Flag.name flags argument 0 g.flags with
      | some found =>
        obtain ⟨j, hk, hentry, hname, hunused⟩ := firstUnused_eq_some hflag
        rw [Nat.zero_add] at hk
        exact .flag rfl hspent (hk ▸ hentry) hname hunused
      | none =>
        have hgone : NoFlag g ⟨none, valueFlags, flags, slots⟩ argument := by
          intro k flag hentry hname
          have hused := firstUnused_eq_none hflag hentry hname
          rwa [Nat.zero_add] at hused
        cases hslot : slotAt (slots + 1) 0 g.slots with
        | some found =>
          obtain ⟨j, hk, hentry, hposition⟩ := slotAt_eq_some hslot
          rw [Nat.zero_add] at hk
          exact .positional rfl hspent hgone (hk ▸ hentry) hposition
        | none => exact .other rfl hspent hgone (slotAt_eq_none hslot)

end Used

/-! ### What some readings have taken -/

namespace Reading

/-- One of some readings has taken an entry of the table that belongs to a role. -/
def Taken (before : List Reading) (role : Role) (k : Nat) : Prop :=
  ∃ r ∈ before, r.role = role ∧ r.entry = some (k : Int)

theorem taken_concat_iff {before : List Reading} {r : Reading} {role : Role} {k : Nat} :
    Taken (before ++ [r]) role k ↔
      Taken before role k ∨ (r.role = role ∧ r.entry = some (k : Int)) := by
  simp only [Taken, List.mem_append, List.mem_singleton, or_and_right, exists_or, exists_eq_left]

/-- A reading in another role takes nothing. -/
theorem taken_concat_of_ne {before : List Reading} {r : Reading} {role : Role} (h : r.role ≠ role)
    (k : Nat) : Taken (before ++ [r]) role k ↔ Taken before role k := by
  rw [taken_concat_iff, or_iff_left]
  rintro ⟨hrole, -⟩
  exact h hrole

/-- A reading in a role takes its entry. -/
theorem taken_concat_self {before : List Reading} {r : Reading} {role : Role} {i : Nat}
    (hrole : r.role = role) (hentry : r.entry = some (i : Int)) (k : Nat) :
    Taken (before ++ [r]) role k ↔ k = i ∨ Taken before role k := by
  have hindex : r.entry = some (k : Int) ↔ k = i := by
    rw [hentry, Option.some.injEq, Int.natCast_inj, eq_comm]
  rw [taken_concat_iff, hindex, and_iff_right hrole, or_comm]

/-- How many slots some readings have filled. -/
def filled (before : List Reading) : Nat := before.countP (·.role = .positional)

theorem filled_concat_of_ne {before : List Reading} {r : Reading} (h : r.role ≠ .positional) :
    filled (before ++ [r]) = filled before := by
  rw [filled, List.countP_append, List.countP_singleton, if_neg (by simpa using h), Nat.add_zero,
    filled]

theorem filled_concat_self {before : List Reading} {r : Reading} (h : r.role = .positional) :
    filled (before ++ [r]) = filled before + 1 := by
  rw [filled, List.countP_append, List.countP_singleton, if_pos (by simpa using h), filled]

/-- **A reading of an argument that the readings before it explain.**  The roles exclude each other,
so that it is enough to say of each what it takes. -/
structure Justified (g : Grammar) (before : List Reading) (argument : Text) (r : Reading) :
    Prop where
  /-- The command stands at the start only. -/
  not_command : r.role ≠ .command
  /-- It is a value exactly behind a flag that takes one. -/
  value_iff : r.role = .value ↔ ∃ last, before.getLast? = some last ∧ last.role = .valueFlag
  /-- A value has the entry of its flag, and its kind and placeholder. -/
  value : r.role = .value → ∃ (last : Reading) (k : Nat) (flag : ValueFlag),
    before.getLast? = some last ∧ last.entry = some (k : Int) ∧ g.valueFlags[k]? = some flag ∧
      r = ⟨flag.kind, .value, some k, shown flag.placeholder⟩
  /-- A flag that takes a value is one of its name that was not taken before. -/
  valueFlag : r.role = .valueFlag → ∃ (k : Nat) (flag : ValueFlag),
    g.valueFlags[k]? = some flag ∧ flag.name = argument ∧ ¬ Taken before .valueFlag k ∧
      r = ⟨.text, .valueFlag, some k, none⟩
  /-- A flag that stands alone is one of its name that was not taken before. -/
  flag : r.role = .flag → ∃ (k : Nat) (flag : Flag),
    g.flags[k]? = some flag ∧ flag.name = argument ∧ ¬ Taken before .flag k ∧
      r = ⟨.text, .flag, some k, none⟩
  /-- What fills a slot fills the one behind those that were filled before, with its kind and
  placeholder. -/
  positional : r.role = .positional → ∃ (k : Nat) (slot : Slot),
    g.slots[k]? = some slot ∧ slot.position = filled before + 1 ∧ ¬ Taken before .positional k ∧
      r = ⟨slot.kind, .positional, some k, shown slot.placeholder⟩
  /-- What is left over is plain text. -/
  other : r.role = .other → r = ⟨.text, .other, none, none⟩
  /-- What is a flag that stands alone, fills a slot or is left over names no flag that takes a
  value and is still there. -/
  noValueFlag : r.role ∈ [Role.flag, .positional, .other] →
    ∀ (k : Nat) (flag : ValueFlag), g.valueFlags[k]? = some flag → flag.name = argument →
      Taken before .valueFlag k
  /-- What fills a slot or is left over names no flag that stands alone and is still there. -/
  noFlag : r.role ∈ [Role.positional, .other] →
    ∀ (k : Nat) (flag : Flag), g.flags[k]? = some flag → flag.name = argument →
      Taken before .flag k
  /-- What is left over finds no slot behind those that were filled before. -/
  noSlot : r.role = .other → ∀ (k : Nat) (slot : Slot), g.slots[k]? = some slot →
    slot.position ≠ filled before + 1

end Reading

/-! ### The record of what is used up -/

namespace Used

open Reading

/-- **The record says what some readings have taken**: the flags of both sorts, the slots up to a
position, and the flag at the end of them that waits for its value. -/
structure Accounts (g : Grammar) (u : Used) (before : List Reading) : Prop where
  valueFlags : ∀ k, k ∈ u.valueFlags ↔ Taken before .valueFlag k
  flags : ∀ k, k ∈ u.flags ↔ Taken before .flag k
  slots : u.slots = filled before
  filled_le : ∀ (k : Nat) (slot : Slot), Taken before .positional k → g.slots[k]? = some slot →
    slot.position ≤ filled before
  waiting : ∀ (k : Nat) (flag : ValueFlag), u.waiting = some (k, flag) →
    g.valueFlags[k]? = some flag ∧ ∃ last, before.getLast? = some last ∧
      last.role = .valueFlag ∧ last.entry = some (k : Int)
  idle : u.waiting = none → ¬ ∃ last, before.getLast? = some last ∧ last.role = .valueFlag

namespace Accounts

variable {g : Grammar} {u u' : Used} {before : List Reading} {argument : Text} {r : Reading}

/-- Behind the name of the command nothing is taken. -/
theorem initial (g : Grammar) : Accounts g Used.initial [Reading.command] := by
  have hnone : ∀ role k, ¬ Taken [Reading.command] role k := by
    rintro role k ⟨r, hr, -, hentry⟩
    rw [List.mem_singleton.mp hr] at hentry
    cases hentry
  refine ⟨fun k => ?_, fun k => ?_, rfl, fun k slot h => absurd h (hnone _ k), ?_, ?_⟩
  · exact iff_of_false List.not_mem_nil (hnone _ k)
  · exact iff_of_false List.not_mem_nil (hnone _ k)
  · intro k flag h
    cases h
  · rintro - ⟨last, hlast, hrole⟩
    cases hlast
    cases hrole

/-- **What an argument is read as is explained by the readings before it.** -/
theorem justified (h : Accounts g u before) (hread : Reads g u argument r u') :
    Justified g before argument r := by
  have hvalueFlags : NoValueFlag g u argument → ∀ (k : Nat) (flag : ValueFlag),
      g.valueFlags[k]? = some flag → flag.name = argument → Taken before .valueFlag k :=
    fun spent k flag hentry hname => (h.valueFlags k).mp (spent k flag hentry hname)
  have hflags : NoFlag g u argument → ∀ (k : Nat) (flag : Flag),
      g.flags[k]? = some flag → flag.name = argument → Taken before .flag k :=
    fun gone k flag hentry hname => (h.flags k).mp (gone k flag hentry hname)
  cases hread with
  | @value k flag waiting =>
    obtain ⟨hflag, last, hlast, hrole, hentry⟩ := h.waiting k flag waiting
    exact {
      not_command := nofun
      value_iff := iff_of_true rfl ⟨last, hlast, hrole⟩
      value := fun _ => ⟨last, k, flag, hlast, hentry, hflag, rfl⟩
      valueFlag := nofun
      flag := nofun
      positional := nofun
      other := nofun
      noValueFlag := by simp
      noFlag := by simp
      noSlot := nofun }
  | @valueFlag k flag idle entry name unused =>
    exact {
      not_command := nofun
      value_iff := iff_of_false nofun (h.idle idle)
      value := nofun
      valueFlag := fun _ => ⟨k, flag, entry, name, mt (h.valueFlags k).mpr unused, rfl⟩
      flag := nofun
      positional := nofun
      other := nofun
      noValueFlag := by simp
      noFlag := by simp
      noSlot := nofun }
  | @flag k flag idle spent entry name unused =>
    exact {
      not_command := nofun
      value_iff := iff_of_false nofun (h.idle idle)
      value := nofun
      valueFlag := nofun
      flag := fun _ => ⟨k, flag, entry, name, mt (h.flags k).mpr unused, rfl⟩
      positional := nofun
      other := nofun
      noValueFlag := fun _ => hvalueFlags spent
      noFlag := by simp
      noSlot := nofun }
  | @positional k slot idle spent gone entry position =>
    rw [h.slots] at position
    -- A slot filled before has a lower position.
    have hfree : ¬ Taken before .positional k := by
      intro htaken
      have hle : slot.position ≤ filled before := h.filled_le k slot htaken entry
      omega
    exact {
      not_command := nofun
      value_iff := iff_of_false nofun (h.idle idle)
      value := nofun
      valueFlag := nofun
      flag := nofun
      positional := fun _ => ⟨k, slot, entry, position, hfree, rfl⟩
      other := nofun
      noValueFlag := fun _ => hvalueFlags spent
      noFlag := fun _ => hflags gone
      noSlot := nofun }
  | other idle spent gone full =>
    rw [NoSlot, h.slots] at full
    exact {
      not_command := nofun
      value_iff := iff_of_false nofun (h.idle idle)
      value := nofun
      valueFlag := nofun
      flag := nofun
      positional := nofun
      other := fun _ => rfl
      noValueFlag := fun _ => hvalueFlags spent
      noFlag := fun _ => hflags gone
      noSlot := fun _ => full }

/-! What a reading in another role leaves as it is. -/

theorem valueFlags_of_ne (h : Accounts g u before) (hrole : r.role ≠ .valueFlag) (k : Nat) :
    k ∈ u.valueFlags ↔ Taken (before ++ [r]) .valueFlag k := by
  rw [taken_concat_of_ne hrole]
  exact h.valueFlags k

theorem flags_of_ne (h : Accounts g u before) (hrole : r.role ≠ .flag) (k : Nat) :
    k ∈ u.flags ↔ Taken (before ++ [r]) .flag k := by
  rw [taken_concat_of_ne hrole]
  exact h.flags k

theorem slots_of_ne (h : Accounts g u before) (hrole : r.role ≠ .positional) :
    u.slots = filled (before ++ [r]) := by
  rw [filled_concat_of_ne hrole]
  exact h.slots

theorem filled_le_of_ne (h : Accounts g u before) (hrole : r.role ≠ .positional) (k : Nat)
    (slot : Slot) (htaken : Taken (before ++ [r]) .positional k) (hslot : g.slots[k]? = some slot) :
    slot.position ≤ filled (before ++ [r]) := by
  rw [taken_concat_of_ne hrole] at htaken
  rw [filled_concat_of_ne hrole]
  exact h.filled_le k slot htaken hslot

theorem idle_of_ne (hrole : r.role ≠ .valueFlag) :
    ¬ ∃ last, (before ++ [r]).getLast? = some last ∧ last.role = .valueFlag := by
  rintro ⟨last, hlast, hlastRole⟩
  rw [List.getLast?_concat, Option.some.injEq] at hlast
  exact hrole (hlast ▸ hlastRole)

/-- **The record accounts for an argument that was read.** -/
theorem step (h : Accounts g u before) (hread : Reads g u argument r u') :
    Accounts g u' (before ++ [r]) := by
  -- Each sort of reading leaves all but its own table as it was, and what is taken of its own grows
  -- by the one entry it takes.
  cases hread with
  | @value k flag waiting =>
    exact {
      valueFlags := h.valueFlags_of_ne nofun
      flags := h.flags_of_ne nofun
      slots := h.slots_of_ne nofun
      filled_le := h.filled_le_of_ne nofun
      waiting := nofun
      idle := fun _ => idle_of_ne nofun }
  | @valueFlag k flag idle entry name unused =>
    refine {
      valueFlags := fun j => ?_
      flags := h.flags_of_ne nofun
      slots := h.slots_of_ne nofun
      filled_le := h.filled_le_of_ne nofun
      waiting := ?_
      idle := nofun }
    · rw [taken_concat_self rfl rfl, List.mem_cons, h.valueFlags j]
    · intro j flag' hsome
      cases hsome
      exact ⟨entry, _, List.getLast?_concat, rfl, rfl⟩
  | @flag k flag idle spent entry name unused =>
    refine {
      valueFlags := h.valueFlags_of_ne nofun
      flags := fun j => ?_
      slots := h.slots_of_ne nofun
      filled_le := h.filled_le_of_ne nofun
      waiting := fun _ _ hsome => nomatch idle.symm.trans hsome
      idle := fun _ => idle_of_ne nofun }
    rw [taken_concat_self rfl rfl, List.mem_cons, h.flags j]
  -- The slot that was filled is the only new one, and its position is the number filled so far.
  | @positional k slot idle spent gone entry position =>
    rw [h.slots] at position
    refine {
      valueFlags := h.valueFlags_of_ne nofun
      flags := h.flags_of_ne nofun
      slots := ?_
      filled_le := fun j other htaken hslot => ?_
      waiting := fun _ _ hsome => nomatch idle.symm.trans hsome
      idle := fun _ => idle_of_ne nofun }
    · rw [filled_concat_self rfl]
      exact congrArg (· + 1) h.slots
    · rw [filled_concat_self rfl]
      rcases (taken_concat_self rfl rfl j).mp htaken with rfl | htaken
      · rw [entry] at hslot
        cases hslot
        exact Nat.le_of_eq position
      · exact Nat.le_succ_of_le (h.filled_le j other htaken hslot)
  | other idle spent gone full =>
    exact {
      valueFlags := h.valueFlags_of_ne nofun
      flags := h.flags_of_ne nofun
      slots := h.slots_of_ne nofun
      filled_le := h.filled_le_of_ne nofun
      waiting := fun _ _ hsome => nomatch idle.symm.trans hsome
      idle := fun _ => idle_of_ne nofun }

end Accounts

end Used

namespace Reading

/-! ### The readings of a line -/

/-- **Each of the readings behind some that the record accounts for is explained** by all those
before it. -/
theorem justified_readAll {g : Grammar} {u : Used} {before : List Reading} {arguments : List Text}
    (h : u.Accounts g before) {i : Nat} {argument : Text} {r : Reading}
    (hargument : arguments[i]? = some argument) (hr : (readAll g u arguments)[i]? = some r) :
    Justified g (before ++ (readAll g u arguments).take i) argument r := by
  -- By induction on the arguments, with the readings so far as what the account is of.
  induction arguments generalizing u before i with
  | nil => cases hr
  | cons first rest ih =>
    have hread := Used.reads_read g u first
    cases i with
    | zero =>
      cases hargument
      cases hr
      rw [List.take_zero, List.append_nil]
      exact h.justified hread
    | succ i =>
      have hrest := ih (h.step hread) hargument hr
      rwa [List.append_assoc] at hrest

/-- A reading that takes an entry takes one that was not taken before. -/
theorem Justified.exists_entry {g : Grammar} {before : List Reading} {argument : Text} {r : Reading}
    (h : Justified g before argument r) (hrole : r.role ∈ [Role.valueFlag, .flag, .positional]) :
    ∃ k : Nat, r.entry = some (k : Int) ∧ ¬ Taken before r.role k := by
  simp only [List.mem_cons, List.not_mem_nil, or_false] at hrole
  rcases hrole with hrole | hrole | hrole
  · obtain ⟨k, flag, -, -, hfree, rfl⟩ := h.valueFlag hrole
    exact ⟨k, rfl, hfree⟩
  · obtain ⟨k, flag, -, -, hfree, rfl⟩ := h.flag hrole
    exact ⟨k, rfl, hfree⟩
  · obtain ⟨k, slot, -, -, hfree, rfl⟩ := h.positional hrole
    exact ⟨k, rfl, hfree⟩

/-- A reading that takes an entry takes another one than those before it in the same role. -/
theorem Justified.entry_ne {g : Grammar} {before : List Reading} {argument : Text} {r r' : Reading}
    (h : Justified g before argument r') (hr : r ∈ before)
    (hrole : r'.role ∈ [Role.valueFlag, .flag, .positional]) (hsame : r.role = r'.role) :
    r.entry ≠ r'.entry := by
  obtain ⟨k, hentry, hfree⟩ := h.exists_entry hrole
  intro heq
  exact hfree ⟨r, hr, hsame, heq.trans hentry⟩

/-- No entry is taken twice in a line. -/
theorem pairwise_entries (g : Grammar) (arguments : List Text) :
    (ofArguments (some g) arguments).Pairwise fun r r' =>
      r'.role ∈ [Role.valueFlag, .flag, .positional] → r.role = r'.role → r.entry ≠ r'.entry := by
  cases arguments with
  | nil => exact .nil
  | cons name rest =>
    refine List.pairwise_iff_getElem.mpr ?_
    intro i j hi hj hlt htakes hsame
    -- A command takes no entry, so the later of the two is not the first reading.
    obtain ⟨j, rfl⟩ := Nat.exists_eq_succ_of_ne_zero (Nat.ne_zero_of_lt hlt)
    have hreading : j < (readAll g .initial rest).length := Nat.lt_of_succ_lt_succ hj
    have hargument : j < rest.length := length_readAll g .initial rest ▸ hreading
    have hjustified := justified_readAll (Used.Accounts.initial g)
      (List.getElem?_eq_getElem hargument) (List.getElem?_eq_getElem hreading)
    have hbefore : (ofArguments (some g) (name :: rest))[i] ∈
        (ofArguments (some g) (name :: rest)).take (j + 1) :=
      List.mem_take_iff_getElem.mpr ⟨i, by omega, rfl⟩
    exact hjustified.entry_ne hbefore htakes hsame

/-- **Every reading of a line is explained by those before it.**  Every argument has a reading, and
the first is the command.  Without a grammar the others are paths.  With one, each is what the
readings before it leave it to be, and no entry of the grammar is taken twice. -/
theorem justified_ofArguments (grammar : Option Grammar) (arguments : List Text) :
    let readings := ofArguments grammar arguments
    readings.length = arguments.length ∧
    (∀ r ∈ readings.head?, r = command) ∧
    (grammar = none → ∀ r ∈ readings.tail, r = plainPath) ∧
    ∀ g ∈ grammar,
      (∀ (i : Nat) (argument : Text) (r : Reading), 0 < i → arguments[i]? = some argument →
        readings[i]? = some r → Justified g (readings.take i) argument r) ∧
      readings.Pairwise fun r r' =>
        r'.role ∈ [Role.valueFlag, .flag, .positional] → r.role = r'.role → r.entry ≠ r'.entry := by
  intro readings
  have hlength : readings.length = arguments.length := length_ofArguments grammar arguments
  refine ⟨hlength, ?_, ?_, ?_⟩
  · intro r hr
    cases arguments with
    | nil => cases hr
    | cons argument rest => exact (Option.mem_some.mp hr).symm
  · rintro rfl r hr
    cases arguments with
    | nil => cases hr
    | cons argument rest =>
      obtain ⟨-, -, rfl⟩ := List.mem_map.mp hr
      rfl
  · intro g hg
    obtain rfl := Option.mem_def.mp hg
    -- The command is read by itself, so the index counts one less among the others.
    have hjustified : ∀ (i : Nat) (argument : Text) (r : Reading), 0 < i →
        arguments[i]? = some argument → readings[i]? = some r →
        Justified g (readings.take i) argument r := by
      intro i argument r hi hargument hr
      cases arguments with
      | nil => cases hargument
      | cons first rest =>
        obtain ⟨i, rfl⟩ := Nat.exists_eq_succ_of_ne_zero (Nat.ne_of_gt hi)
        exact justified_readAll (Used.Accounts.initial g) hargument hr
    refine ⟨hjustified, List.pairwise_iff_getElem.mpr ?_⟩
    -- Of two that take an entry of one table, the later one was justified after the earlier one.
    intro i j hi hj hlt htakes hsame
    have hargument : arguments[j]? = some arguments[j] := List.getElem?_eq_getElem (hlength ▸ hj)
    have hreading : readings[j]? = some readings[j] := List.getElem?_eq_getElem hj
    have hbefore : readings[i] ∈ readings.take j := List.mem_take_iff_getElem.mpr ⟨i, by omega, rfl⟩
    exact (hjustified j _ _ (by omega) hargument hreading).entry_ne hbefore htakes hsame

/-- A flag that is named once more is left over, for its entry was taken before. -/
theorem justified_ofArguments_sample :
    let output : ValueFlag := ⟨['-', 'o'], [], .path, ['o', 'u', 't'], ⟨none, none⟩⟩
    let g : Grammar := ⟨['c', 'c'], [], ⟨none, none⟩, [⟨.path, [], 1⟩], [], [output]⟩
    let arguments : List Text := [['c', 'c'], ['-', 'o'], ['-', 'o'], ['x'], ['-', 'o']]
    let readings := ofArguments (some g) arguments
    readings.map role = [.command, .valueFlag, .value, .positional, .other] ∧
      Taken (readings.take 4) .valueFlag 0 := by
  intro output g arguments readings
  have hroles : readings.map role = [.command, .valueFlag, .value, .positional, .other] := rfl
  obtain ⟨hjustified, -⟩ := (justified_ofArguments (some g) arguments).2.2.2 g rfl
  have hlast : Justified g (readings.take 4) ['-', 'o'] ⟨.text, .other, none, none⟩ :=
    hjustified 4 _ _ (by decide) rfl rfl
  exact ⟨hroles, hlast.noValueFlag (by decide) 0 output rfl rfl⟩

end Reading

end Typeahead
