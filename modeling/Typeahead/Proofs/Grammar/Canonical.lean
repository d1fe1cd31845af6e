import Mathlib.Data.List.Perm.Basic
import Typeahead.Proofs.Grammar.Slots
import Typeahead.Proofs.Text.Sorting
import Typeahead.Session.Opening

/-!
# The tables of a grammar

The three tables of a grammar are sorted when its description is read.  So the order in which the
items of a table are described does not matter, except for items with one name, which keep theirs;
two slots cannot have one position, wherever they stand in the description.  All of this is so
however single values are read, as long as the items of a list are read one by one and in order.

## Main definitions

* `Grammar.TableOf` — a table made of the items of a list.
* `Grammar.Shuffle` — two descriptions that differ in the order of the items of their tables.
* `Grammar.Distinct` — no two flags of one table have one name.

## Main results

* `Checked.listOf_perm` — the items of a list are read in any order.
* `Readers.grammar_shuffle` — a description stays good if the items of its tables are reordered.
* `Readers.tables_of_items` — **what the tables of a grammar are, and on what of its description
  they depend**, for any readers of single values.
* `Grammar.canonical_tables` — the same for the readers in use, and for the lines that are typed.
-/

namespace Typeahead

namespace Checked

variable {α : Type} {members members' : List (Text × Json)} {key other : String}

/-- The items of the list at the first of two keys that is there. -/
def itemsAt (members : List (Text × Json)) (key other : String) : List Json :=
  match either? members key other with
  | some (_, .list items) => items
  | _ => []

/-- What holds of the items of every list that is let pass, and of none for none, holds of the items
at a key that may be left out. -/
theorem of_optionalField_list {read : Json → Checked (List α)} {P : List Json → List α → Prop}
    (hnil : P [] []) (hread : ∀ v as, read v = .good as → ∃ items, v = .list items ∧ P items as)
    {as : List α} (h : optionalField members key other [] read = .good as) :
    P (itemsAt members key other) as := by
  unfold optionalField at h
  unfold itemsAt
  cases heither : either? members key other with
  | none =>
    rw [heither] at h
    cases h
    exact hnil
  | some member =>
    obtain ⟨k, v⟩ := member
    rw [heither] at h
    obtain ⟨items, rfl, hitems⟩ := hread v as (within_eq_good_iff.mp h)
    exact hitems

/-- The items of a list are read in any order. -/
theorem listOf_perm {read : Json → Checked α} {items items' : List Json} {as : List α}
    (hperm : items.Perm items') (h : listOf read (.list items) = .good as) :
    ∃ as', listOf read (.list items') = .good as' ∧ as.Perm as' := by
  obtain ⟨_, heq, hread⟩ := listOf_eq_good_iff.mp h
  cases heq
  obtain ⟨as', hread', hperm'⟩ := List.perm_comp_forall₂ hperm.symm hread
  exact ⟨as', listOf_eq_good_iff.mpr ⟨items', rfl, hread'⟩, hperm'.symm⟩

end Checked

namespace Grammar

open Checked

variable {r : Readers} {v v' : Json} {g : Grammar} {members members' : List (Text × Json)}
  {key other : String}

/-! ### The tables -/

/-- A table made of items: each of them is read by itself, and what has been read is sorted. -/
def TableOf {α κ : Type} [LT κ] [DecidableEq κ] (read : Json → Checked α) (key : α → κ)
    (items : List Json) (table : List α) : Prop :=
  ∃ entries, List.Forall₂ (fun item entry => read item = .good entry) items entries ∧
    Sorts key entries table

theorem tableOf_nil {α κ : Type} [LT κ] [DecidableEq κ] (read : Json → Checked α) (key : α → κ) :
    TableOf read key [] [] :=
  ⟨[], .nil, .refl _, .nil, fun _ => rfl⟩

theorem tableOf_of_slots {slots : List Slot} (h : r.slots v = .good slots) :
    ∃ items, v = .list items ∧ TableOf r.slot Slot.position items slots := by
  obtain ⟨given, hgiven, horder⟩ := andThen_eq_good_iff.mp h
  obtain ⟨items, rfl, hread⟩ := listOf_eq_good_iff.mp hgiven
  obtain ⟨rfl, -⟩ := inOrder_eq_good horder
  exact ⟨items, rfl, given, hread, keyOrder_nat.sorts Slot.position given⟩

/-- A list that is sorted by name makes a table. -/
theorem tableOf_of_stableSort {α : Type} {read : Json → Checked α} {name : α → Text}
    {table : List α} (h : stableSort name <$> listOf read v = .good table) :
    ∃ items, v = .list items ∧ TableOf read name items table := by
  obtain ⟨given, hgiven, rfl⟩ := map_eq_good_iff.mp h
  obtain ⟨items, rfl, hread⟩ := listOf_eq_good_iff.mp hgiven
  exact ⟨items, rfl, given, hread, keyOrder_text.sorts name given⟩

/-- Slots that stand in order of position when they are sorted have different positions. -/
theorem nodup_position_of_perm {slots entries : List Slot} (hperm : slots.Perm entries)
    (hincreasing : slots.Pairwise fun slot later => slot.position < later.position) :
    (entries.map Slot.position).Nodup :=
  (hperm.map Slot.position).nodup (List.pairwise_map.mpr (hincreasing.imp Nat.ne_of_lt))

/-- Two items of a table of slots do not have one position. -/
theorem position_ne_of_tableOf {items : List Json} {slots : List Slot}
    (h : TableOf r.slot Slot.position items slots)
    (hslots : slots.Pairwise fun slot later => slot.position < later.position) {i j : Nat}
    {x y : Json} {a b : Slot} (hij : i < j) (hi : items[i]? = some x) (hj : items[j]? = some y)
    (ha : r.slot x = .good a) (hb : r.slot y = .good b) : a.position ≠ b.position := by
  obtain ⟨entries, hread, hsorts⟩ := h
  -- An item at some place of the list is the entry at the same place, before the table is sorted.
  have hentry {k : Nat} {item : Json} {slot : Slot} (hk : items[k]? = some item)
      (hslot : r.slot item = .good slot) : entries[k]? = some slot := by
    obtain ⟨hlt, rfl⟩ := List.getElem?_eq_some_iff.mp hk
    have hlt' : k < entries.length := hread.length_eq ▸ hlt
    have hgood := hread.get hlt hlt'
    simp only [List.get_eq_getElem, hslot, good.injEq] at hgood
    exact List.getElem?_eq_some_iff.mpr ⟨hlt', hgood.symm⟩
  have hnodup := nodup_position_of_perm hsorts.perm hslots
  obtain ⟨hi', rfl⟩ := List.getElem?_eq_some_iff.mp (hentry hi ha)
  obtain ⟨hj', rfl⟩ := List.getElem?_eq_some_iff.mp (hentry hj hb)
  exact List.pairwise_iff_getElem.mp (List.pairwise_map.mp hnodup) i j hi' hj' hij

/-! ### Tables in another order -/

/-- The keys of the three tables. -/
def tableKeys : List Text :=
  ["singleArg", "args", "flag", "flags", "flagArgPair", "arg_flags"].map String.toList

/-- Two members of a description, either the same or the items of a table in another order. -/
inductive MemberShuffle : Text × Json → Text × Json → Prop
  | same (member : Text × Json) : MemberShuffle member member
  | table {key : Text} {items items' : List Json} (known : key ∈ tableKeys)
      (perm : items.Perm items') : MemberShuffle (key, .list items) (key, .list items')

/-- Two descriptions that differ in the order of the items of their tables. -/
inductive Shuffle : Json → Json → Prop
  | object {members members' : List (Text × Json)}
      (shuffled : List.Forall₂ MemberShuffle members members') :
      Shuffle (.object members) (.object members')

/-- No two flags of one table have one name. -/
structure Distinct (g : Grammar) : Prop where
  flags : (g.flags.map Flag.name).Nodup
  valueFlags : (g.valueFlags.map ValueFlag.name).Nodup

theorem find?_shuffle (h : List.Forall₂ MemberShuffle members members') (key : Text) :
    Option.Rel (fun v v' => MemberShuffle (key, v) (key, v')) (Json.find? key members)
      (Json.find? key members') := by
  induction h with
  -- Items that are shuffled stay under their key, so the search stops at the same member.
  | nil => exact .none
  | @cons member member' _ _ hmember _ ih =>
    obtain ⟨k, v⟩ := member
    obtain ⟨k', v'⟩ := member'
    have hkey : k' = k := by cases hmember <;> rfl
    subst hkey
    simp only [Json.find?]
    split
    next heq =>
      subst heq
      exact .some hmember
    next => exact ih

/-- At one of two keys shuffled descriptions have shuffled members. -/
theorem either?_shuffle (h : List.Forall₂ MemberShuffle members members') (key other : String) :
    Option.Rel MemberShuffle (either? members key other) (either? members' key other) := by
  have hkey := find?_shuffle h key.toList
  have hother := find?_shuffle h other.toList
  unfold either?
  generalize Json.find? key.toList members = first at hkey ⊢
  generalize Json.find? key.toList members' = first' at hkey ⊢
  generalize Json.find? other.toList members = second at hother ⊢
  generalize Json.find? other.toList members' = second' at hother ⊢
  cases hkey with
  | some hmember => exact .some hmember
  | none =>
    cases hother with
    | some hmember => exact .some hmember
    | none => exact .none

theorem find?_eq_of_shuffle (h : List.Forall₂ MemberShuffle members members') {key : Text}
    (hkey : key ∉ tableKeys) : Json.find? key members' = Json.find? key members := by
  have hrel := find?_shuffle h key
  generalize Json.find? key members = found at hrel ⊢
  generalize Json.find? key members' = found' at hrel ⊢
  cases hrel with
  | none => rfl
  | some hmember =>
    cases hmember with
    | same => rfl
    | table known => exact absurd known hkey

/-- At keys that are not those of a table shuffled descriptions have one member. -/
theorem either?_eq_of_shuffle (h : List.Forall₂ MemberShuffle members members')
    (hkey : key.toList ∉ tableKeys) (hother : other.toList ∉ tableKeys) :
    either? members' key other = either? members key other := by
  simp only [either?, find?_eq_of_shuffle h hkey, find?_eq_of_shuffle h hother]

theorem field_eq_of_shuffle {α : Type} {read : Json → Checked α}
    (h : List.Forall₂ MemberShuffle members members') (hkey : key.toList ∉ tableKeys)
    (hother : other.toList ∉ tableKeys) :
    field members' key other read = field members key other read := by
  simp only [field, either?_eq_of_shuffle h hkey hother]

theorem optionalField_eq_of_shuffle {α : Type} {absent : α} {read : Json → Checked α}
    (h : List.Forall₂ MemberShuffle members members') (hkey : key.toList ∉ tableKeys)
    (hother : other.toList ∉ tableKeys) :
    optionalField members' key other absent read = optionalField members key other absent read := by
  simp only [optionalField, either?_eq_of_shuffle h hkey hother]

/-- What is read at the keys of a table is related as what is read from lists in another order. -/
theorem optionalField_shuffle {α : Type} {absent a : α} {read : Json → Checked α}
    {R : α → α → Prop} (hrefl : ∀ a, R a a)
    (hread : ∀ items items' a, items.Perm items' → read (.list items) = .good a →
      ∃ a', read (.list items') = .good a' ∧ R a a')
    (h : List.Forall₂ MemberShuffle members members')
    (hgood : optionalField members key other absent read = .good a) :
    ∃ a', optionalField members' key other absent read = .good a' ∧ R a a' := by
  have hrel := either?_shuffle h key other
  unfold optionalField at hgood ⊢
  generalize either? members key other = found at hrel hgood
  generalize either? members' key other = found' at hrel ⊢
  -- The field is absent in both, the same in both, or a table whose items are reordered.
  cases hrel with
  | none =>
    cases hgood
    exact ⟨absent, rfl, hrefl absent⟩
  | some hmember =>
    cases hmember with
    | same => exact ⟨a, hgood, hrefl a⟩
    | table _ hperm =>
      obtain ⟨a', ha', hR⟩ := hread _ _ a hperm (within_eq_good_iff.mp hgood)
      exact ⟨a', within_eq_good_iff.mpr ha', hR⟩

/-! ### Descriptions in another order -/

theorem slots_perm {items items' : List Json} {slots : List Slot}
    (hperm : items.Perm items') (h : r.slots (.list items) = .good slots) :
    r.slots (.list items') = .good slots := by
  obtain ⟨given, hgiven, horder⟩ := andThen_eq_good_iff.mp h
  obtain ⟨given', hgiven', hperm'⟩ := listOf_perm hperm hgiven
  obtain ⟨rfl, hincreasing⟩ := inOrder_eq_good horder
  have hdistinct := nodup_position_of_perm (stableSort_perm Slot.position given) hincreasing
  have hsame := keyOrder_nat.stableSort_eq_of_perm hperm' hdistinct
  refine andThen_eq_good_iff.mpr ⟨given', hgiven', ?_⟩
  unfold inOrder at horder ⊢
  rwa [← hsame]

/-- A table that is sorted by name is the same in another order if no name is there twice. -/
theorem stableSort_shuffle {α : Type} {read : Json → Checked α} {name : α → Text}
    {items items' : List Json} {table : List α} (hperm : items.Perm items')
    (h : stableSort name <$> listOf read (.list items) = .good table) :
    ∃ table', stableSort name <$> listOf read (.list items') = .good table' ∧
      ((table.map name).Nodup → table' = table) := by
  obtain ⟨given, hgiven, rfl⟩ := map_eq_good_iff.mp h
  obtain ⟨given', hgiven', hperm'⟩ := listOf_perm hperm hgiven
  refine ⟨_, map_eq_good_iff.mpr ⟨given', hgiven', rfl⟩, fun hdistinct => ?_⟩
  have hgivenDistinct := ((stableSort_perm name given).map name).nodup hdistinct
  exact (keyOrder_text.stableSort_eq_of_perm hperm' hgivenDistinct).symm

end Grammar

namespace Readers

open Checked Grammar

variable {r : Readers} {v v' : Json} {g : Grammar} {members : List (Text × Json)}

theorem grammar_of_parts (hname : field members "name" "name" r.text = .good g.name)
    (hsubstitute : optionalField members "exeTo" "exe_to" [] r.text = .good g.substitute)
    (hhooks : r.hooks members = .good g.hooks)
    (hslots : optionalField members "singleArg" "args" [] r.slots = .good g.slots)
    (hflags : optionalField members "flag" "flags" [] r.flags = .good g.flags)
    (hvalueFlags : optionalField members "flagArgPair" "arg_flags" [] r.valueFlags =
      .good g.valueFlags) : r.grammar (.object members) = .good g := by
  simp only [grammar]
  rw [hname, hsubstitute, hhooks, hslots, hflags, hvalueFlags]
  rfl

/-- **A description stays good if the items of its tables are reordered**, and gives the same
grammar unless two flags of one table have one name. -/
theorem grammar_shuffle (h : Shuffle v v') (hgood : r.grammar v = .good g) :
    ∃ g', r.grammar v' = .good g' ∧ (g.Distinct → g' = g) := by
  obtain @⟨members, members', h⟩ := h
  obtain ⟨_, heq, hname, hsubstitute, hhooks, hslots, hflags, hvalueFlags⟩ := grammar_eq_good hgood
  cases heq
  obtain ⟨slots, hslots', rfl⟩ := optionalField_shuffle (R := fun slots slots' => slots = slots')
    (fun _ => rfl) (fun _ _ _ hperm hread => ⟨_, slots_perm hperm hread, rfl⟩) h hslots
  obtain ⟨flags, hflags', hsameFlags⟩ := optionalField_shuffle
    (R := fun flags flags' => (flags.map Flag.name).Nodup → flags' = flags)
    (fun _ _ => rfl) (fun _ _ _ => stableSort_shuffle) h hflags
  obtain ⟨valueFlags, hvalueFlags', hsameValueFlags⟩ := optionalField_shuffle
    (R := fun flags flags' => (flags.map ValueFlag.name).Nodup → flags' = flags)
    (fun _ _ => rfl) (fun _ _ _ => stableSort_shuffle) h hvalueFlags
  refine ⟨⟨g.name, g.substitute, g.hooks, g.slots, flags, valueFlags⟩, grammar_of_parts ?_ ?_ ?_
    hslots' hflags' hvalueFlags', fun hdistinct => ?_⟩
  -- The other members are the same in both descriptions.
  · rwa [field_eq_of_shuffle h (by decide) (by decide)]
  · rwa [optionalField_eq_of_shuffle h (by decide) (by decide)]
  · unfold hooks at hhooks ⊢
    rwa [optionalField_eq_of_shuffle h (by decide) (by decide),
      optionalField_eq_of_shuffle h (by decide) (by decide)]
  · rw [hsameFlags hdistinct.flags, hsameValueFlags hdistinct.valueFlags]

/-- The slots of a grammar are made of the items at their key. -/
theorem tableOf_slots (hgood : r.grammar (.object members) = .good g) :
    TableOf r.slot Slot.position (itemsAt members "singleArg" "args") g.slots := by
  obtain ⟨_, heq, -, -, -, hslots, -⟩ := grammar_eq_good hgood
  cases heq
  exact of_optionalField_list (tableOf_nil r.slot Slot.position)
    (fun _ _ => tableOf_of_slots) hslots

/-- Of a description only the grammar counts that it gives. -/
theorem loadInto_congr {sink : Sink} {read : Json → Checked Grammar} (hgood : read v = .good g)
    (hgood' : read v' = .good g) (before after : List Json) :
    loadInto sink read (before ++ v' :: after) = loadInto sink read (before ++ v :: after) := by
  induction before with
  | nil => simp only [List.nil_append, loadInto, hgood, hgood']
  | cons first before ih => simp only [List.cons_append, loadInto, ih]

/-- **The tables of a grammar** are made of the items of its description, those of one name in their
order; the slots have different positions, from one on, so a description with one position for two
slots gives no grammar.  The order of the items does not show, if no two flags of a table have one
name: neither in the grammar nor in what a list of descriptions comes to. -/
theorem tables_of_items (r : Readers) (v : Json) :
    (∀ g : Grammar, r.grammar v = .good g → ∃ members, v = .object members ∧
      (g.slots.Pairwise fun slot later => slot.position < later.position) ∧
      (∀ slot ∈ g.slots, 1 ≤ slot.position) ∧
      TableOf r.slot Slot.position (itemsAt members "singleArg" "args") g.slots ∧
      TableOf r.flag Flag.name (itemsAt members "flag" "flags") g.flags ∧
      TableOf r.valueFlag ValueFlag.name (itemsAt members "flagArgPair" "arg_flags")
        g.valueFlags) ∧
    (∀ members (i j : Nat) x y a b, v = .object members → i < j →
      (itemsAt members "singleArg" "args")[i]? = some x →
      (itemsAt members "singleArg" "args")[j]? = some y →
      r.slot x = .good a → r.slot y = .good b → a.position = b.position →
      ∃ issues, r.grammar v = .bad issues) ∧
    ∀ (g : Grammar) v', r.grammar v = .good g → g.Distinct → Shuffle v v' →
      r.grammar v' = .good g ∧ ∀ sink before after,
        loadInto sink r.grammar (before ++ v' :: after) =
          loadInto sink r.grammar (before ++ v :: after) := by
  refine ⟨?_, ?_, ?_⟩
  · intro g hgood
    obtain ⟨members, rfl, -, -, -, -, hflags, hvalueFlags⟩ := grammar_eq_good hgood
    obtain ⟨hincreasing, hone⟩ := ordered_slots hgood
    exact ⟨members, rfl, hincreasing, hone, tableOf_slots hgood,
      of_optionalField_list (tableOf_nil r.flag Flag.name)
        (fun _ _ => tableOf_of_stableSort) hflags,
      of_optionalField_list (tableOf_nil r.valueFlag ValueFlag.name)
        (fun _ _ => tableOf_of_stableSort) hvalueFlags⟩
  · rintro members i j x y a b rfl hij hi hj ha hb hsame
    cases hread : r.grammar (.object members) with
    | bad issues => exact ⟨issues, rfl⟩
    | good g =>
      -- A grammar would have different positions for the two slots.
      have hincreasing := (ordered_slots hread).increasing
      have hne := position_ne_of_tableOf (tableOf_slots hread) hincreasing hij hi hj ha hb
      exact absurd hsame hne
  · intro g v' hgood hdistinct hshuffle
    obtain ⟨g', hgood', hsame⟩ := grammar_shuffle hshuffle hgood
    obtain rfl := hsame hdistinct
    exact ⟨hgood', fun sink => loadInto_congr hgood hgood'⟩

end Readers

namespace Grammar

open Checked

/-- **The tables of a grammar** are made of the items of its description, those of one name in their
order; the slots have different positions, from one on, so a description with one position for two
slots gives no grammar.  The order of the items does not show, if no two flags of a table have one
name: neither in the grammar nor in any line that is typed with it. -/
theorem canonical_tables (v : Json) :
    (∀ g : Grammar, ofJson v = .good g → ∃ members, v = .object members ∧
      (g.slots.Pairwise fun slot later => slot.position < later.position) ∧
      (∀ slot ∈ g.slots, 1 ≤ slot.position) ∧
      TableOf Slot.ofJson Slot.position (itemsAt members "singleArg" "args") g.slots ∧
      TableOf Flag.ofJson Flag.name (itemsAt members "flag" "flags") g.flags ∧
      TableOf ValueFlag.ofJson ValueFlag.name (itemsAt members "flagArgPair" "arg_flags")
        g.valueFlags) ∧
    (∀ members (i j : Nat) x y a b, v = .object members → i < j →
      (itemsAt members "singleArg" "args")[i]? = some x →
      (itemsAt members "singleArg" "args")[j]? = some y →
      Slot.ofJson x = .good a → Slot.ofJson y = .good b → a.position = b.position →
      ∃ issues, ofJson v = .bad issues) ∧
    ∀ (g : Grammar) v', ofJson v = .good g → g.Distinct → Shuffle v v' →
      ofJson v' = .good g ∧ ∀ (w : World) (s : Settings) (here : Option Path) (before after),
        Session.ofSettings w { s with commands := before ++ v' :: after } here =
          Session.ofSettings w { s with commands := before ++ v :: after } here := by
  obtain ⟨htables, hrepeats, hshuffles⟩ := Readers.standard.tables_of_items v
  refine ⟨htables, hrepeats, fun g v' hgood hdistinct hshuffle => ?_⟩
  obtain ⟨hgood', hload⟩ := hshuffles g v' hgood hdistinct hshuffle
  refine ⟨hgood', fun w s here before after => ?_⟩
  have hsame : load (before ++ v' :: after) = load (before ++ v :: after) :=
    hload .kept before after
  unfold Session.ofSettings Context.ofSettings
  rw [hsame]
  rfl

/-- A description with two slots and two flags, each table given from its end. -/
theorem canonical_tables_sample :
    let slot (n : Int) := pathSlot "x" n
    let flag (name : String) : Json := .object [("flagName".toList, .text name.toList)]
    let describe (slots flags : List Json) : Json := .object [("name".toList, .text "c".toList),
      ("singleArg".toList, .list slots), ("flags".toList, .list flags)]
    let g : Grammar := ⟨"c".toList, [], ⟨none, none⟩,
      [⟨.path, "x".toList, 1⟩, ⟨.path, "x".toList, 2⟩],
      [⟨"-a".toList, [], ⟨none, none⟩⟩, ⟨"-b".toList, [], ⟨none, none⟩⟩], []⟩
    let v := describe [slot 2, slot 1] [flag "-b", flag "-a"]
    let v' := describe [slot 1, slot 2] [flag "-a", flag "-b"]
    ofJson v = .good g ∧ g.Distinct ∧ Shuffle v v' ∧ ofJson v' = .good g := by
  intro slot flag describe g v v'
  have hgood : ofJson v = .good g := rfl
  have hdistinct : g.Distinct := ⟨by decide, by decide⟩
  have hshuffle : Shuffle v v' := .object
    (.cons (.same _) (.cons (.table (by decide) (.swap _ _ _))
      (.cons (.table (by decide) (.swap _ _ _)) .nil)))
  exact ⟨hgood, hdistinct, hshuffle, ((canonical_tables v).2.2 g v' hgood hdistinct hshuffle).1⟩

end Grammar

end Typeahead
