import Typeahead.Proofs.Grammar.Reference
import Typeahead.Proofs.Line.Division

/-!
# Ranges that give the line back

The arguments of a line with single spaces between them are the line, and a range stands for some
of them with single spaces between them.  So the range without ends stands for the whole line, the
empty arguments that its doubled spaces make included.  Two ranges that meet at an index stand for
what the range over both stands for, as long as neither of them is empty: the space between the two
words is the one between the arguments where they meet.

## Main definitions

* `Hook.range` — the word for a range.
* `Hook.Leads` — the index that one end of a range leads to.

## Main results

* `Hook.expand_range` — what a range stands for.
* `Hook.expand_adjacent` — **two ranges that meet stand for the range over both.**
* `Hook.expand_ranges` — **the ranges of a line give the line back**, whole or cut somewhere.
-/

namespace Typeahead

namespace Hook

open Numeral

variable {arguments : List Text} {absent limit i j k n : Nat} {t first last : Text}

/-- The word for a range from one index up to another. -/
def range (first last : Text) : Text := '$' :: (first ++ '.' :: '.' :: last)

/-- The index that one end of a range leads to: the number that it is in plain digits, or a given
one if it is left out. -/
inductive Leads (absent : Nat) : Text → Nat → Prop
  | absent : Leads absent [] absent
  | index {t : Text} {n : Nat} (writes : Writes t n) : Leads absent t n

namespace Leads

theorem decimal (h : Leads absent t n) : t = [] ∨ t.Decimal := by
  cases h with
  | absent => exact .inl rfl
  | index writes => exact .inr writes.decimal

theorem index?_eq (h : Leads absent t n) (hle : n ≤ limit) :
    index? t absent limit = .ok (some n) := by
  cases h with
  | absent => rfl
  | index writes =>
    have hsigns : t.all isDigitSign = true := List.all_eq_true.mpr writes.decimal.signs
    have hmin : min n limit = n := Nat.min_eq_left hle
    rw [index?, if_neg writes.ne_nil, hsigns, read_decimal writes.decimal writes.short,
      writes.value_eq]
    simp only [Bool.not_true, Bool.false_eq_true, if_false, Int.toNat_natCast, hmin]

end Leads

/-! ### One range -/

theorem isBlank_of_mem_index {c : Char} (h : t = [] ∨ t.Decimal) (hc : c ∈ t) :
    isBlank c = false := by
  rcases h with rfl | h
  · cases hc
  · exact isBlank_of_isDigitSign (h.signs c hc)

/-- A range is one word. -/
theorem words_range (hfirst : first = [] ∨ first.Decimal) (hlast : last = [] ∨ last.Decimal) :
    (range first last).words = [range first last] := by
  refine Text.words_of_forall (List.cons_ne_nil _ _) ?_
  simp only [range, List.forall_mem_cons, List.forall_mem_append]
  exact ⟨rfl, fun c => isBlank_of_mem_index hfirst, rfl, rfl, fun c => isBlank_of_mem_index hlast⟩

/-- What the word for a range is replaced by. -/
theorem expandWord_range (hfirst : Leads 0 first i) (hlast : Leads arguments.length last k)
    (hi : i ≤ arguments.length) (hk : k ≤ arguments.length) :
    expandWord arguments (range first last) =
      .ok (Text.join ' ' ((arguments.take k).drop i)) := by
  have hne : first ++ '.' :: '.' :: last ≠ [] :=
    List.append_ne_nil_of_right_ne_nil _ (List.cons_ne_nil _ _)
  rw [range, expandWord_dollar arguments hne,
    refer_range (Text.partition?_append (stop_notMem hfirst.decimal) last),
    hfirst.index?_eq hi, hlast.index?_eq hk]
  rfl

/-- **What a range stands for.** -/
theorem expand_range (hfirst : Leads 0 first i) (hlast : Leads arguments.length last k)
    (hi : i ≤ arguments.length) (hk : k ≤ arguments.length) :
    expand (range first last) arguments = .ok (Text.join ' ' ((arguments.take k).drop i)) := by
  rw [expand, words_range hfirst.decimal hlast.decimal, expandWords,
    expandWord_range hfirst hlast hi hk]
  rfl

/-! ### Ranges that meet -/

/-- The entries of a list from one index up to another, cut at an index between them. -/
theorem drop_take_append {α : Type} (l : List α) (hij : i ≤ j) (hjk : j ≤ k) (hj : j ≤ l.length) :
    (l.take j).drop i ++ (l.take k).drop j = (l.take k).drop i := by
  have htake : (l.take k).take j = l.take j := by rw [List.take_take, Nat.min_eq_left hjk]
  have hlength : i ≤ (l.take j).length := by
    rw [List.length_take]
    omega
  calc (l.take j).drop i ++ (l.take k).drop j
      = (l.take j ++ (l.take k).drop j).drop i := (List.drop_append_of_le_length hlength).symm
    _ = (l.take k).drop i := by rw [← htake, List.take_append_drop]

theorem drop_take_ne_nil {α : Type} {l : List α} (hij : i < j) (hj : j ≤ l.length) :
    (l.take j).drop i ≠ [] := by
  refine List.ne_nil_of_length_pos ?_
  rw [List.length_drop, List.length_take]
  omega

/-- **Two ranges that meet stand for the range over both**, if neither of them is empty. -/
theorem expand_adjacent {middle middle' : Text} (hfirst : Leads 0 first i)
    (hmiddle : Leads arguments.length middle j) (hmiddle' : Leads 0 middle' j)
    (hlast : Leads arguments.length last k) (hij : i < j) (hjk : j < k)
    (hk : k ≤ arguments.length) :
    expand (range first middle ++ ' ' :: range middle' last) arguments =
      .ok (Text.join ' ' ((arguments.take k).drop i)) := by
  have hj : j ≤ arguments.length := by omega
  have hwords : (range first middle ++ ' ' :: range middle' last).words =
      [range first middle, range middle' last] := by
    rw [Text.words_append_cons rfl, words_range hfirst.decimal hmiddle.decimal,
      words_range hmiddle'.decimal hlast.decimal]
    rfl
  rw [expand, hwords, expandWords, expandWords,
    expandWord_range hfirst hmiddle (by omega) hj, expandWord_range hmiddle' hlast hj hk,
    ← drop_take_append arguments hij.le hjk.le hj,
    Text.join_append (drop_take_ne_nil hij hj) (drop_take_ne_nil hjk hk)]
  rfl

/-! ### The ranges of a line -/

/-- **The ranges of a line give the line back.**  The range without ends does, and so do the two
that meet at an index inside the line.  Any two ranges that meet stand for the same as the range
over both.  The indices may be written with zeros before them, and each time in another way. -/
theorem expand_ranges (t : Text) :
    let arguments := Line.arguments t
    expand (range [] []) arguments = .ok t ∧
      (∀ {n : Nat}, 0 < n → n < arguments.length → ∀ {d d' : Text}, Writes d n → Writes d' n →
        expand (range [] d ++ ' ' :: range d' []) arguments = .ok t) ∧
      ∀ {i j k : Nat}, i < j → j < k → k ≤ arguments.length → ∀ {a a' b b' c c' : Text},
        Writes a i → Writes a' i → Writes b j → Writes b' j → Writes c k → Writes c' k →
          ∃ u, expand (range a b ++ ' ' :: range b' c) arguments = .ok u ∧
            expand (range a' c') arguments = .ok u ∧
            u = Text.join ' ' ((arguments.take k).drop i) := by
  intro arguments
  have hall : Text.join ' ' ((arguments.take arguments.length).drop 0) = t := by
    rw [List.take_length, List.drop_zero]
    exact Line.join_arguments t
  refine ⟨?_, ?_, ?_⟩
  · rw [expand_range .absent .absent (Nat.zero_le _) le_rfl, hall]
  · intro n hpos hlt d d' hd hd'
    rw [expand_adjacent .absent (.index hd) (.index hd') .absent hpos hlt le_rfl, hall]
  · intro i j k hij hjk hk a a' b b' c c' ha ha' hb hb' hc hc'
    exact ⟨_, expand_adjacent (.index ha) (.index hb) (.index hb') (.index hc) hij hjk hk,
      expand_range (.index ha') (.index hc') (by omega) hk, rfl⟩

/-- Three arguments, of which the last one is empty and the one before it has a quoted space. -/
theorem expand_ranges_sample :
    let t : Text := "mv \"a b\" ".toList
    Line.arguments t = ["mv".toList, "\"a b\"".toList, []] ∧
      expand (range [] ['1'] ++ ' ' :: range ['0', '1'] []) (Line.arguments t) = .ok t ∧
      expand (range ['0'] ['1'] ++ ' ' :: range ['1'] ['2']) (Line.arguments t) =
        expand (range ['0'] ['2']) (Line.arguments t) := by
  intro t
  have hzero : Writes ['0'] 0 := .toDigits 0 (by decide)
  have hone : Writes ['1'] 1 := .toDigits 1 (by decide)
  have htwo : Writes ['2'] 2 := .toDigits 2 (by decide)
  have hpadded : Writes ['0', '1'] 1 := ⟨by decide, List.all_eq_true.mp rfl, by decide, by decide⟩
  have harguments : Line.arguments t = ["mv".toList, "\"a b\"".toList, []] := rfl
  have hlength : (Line.arguments t).length = 3 := congrArg List.length harguments
  obtain ⟨-, htwice, hadjacent⟩ := expand_ranges t
  refine ⟨harguments, htwice (by decide) (by omega) hone hpadded, ?_⟩
  obtain ⟨u, hleft, hright, -⟩ :=
    hadjacent (by decide) (by decide) (by omega) hzero hzero hone hone htwo htwo
  rw [hleft, hright]

end Hook

end Typeahead
