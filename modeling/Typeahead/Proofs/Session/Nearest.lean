import Typeahead.Proofs.Line.Boundaries
import Typeahead.Proofs.Session.Event

/-!
# The boundary nearest to a position

A position parts the boundaries of a line into those before it and the rest.  The search for the
nearest one passes over the first part, looks at one boundary behind it and compares that with the
last one that was passed.  Since boundaries never go back these two are the only ones that can be
nearest, wherever the position is, and be it in the line or not.

## Main definitions

* `Session.Parted` — the two parts.
* `Session.Picked` — what the search picks from them.
* `Session.Nearest` — a place that is nearest to a position.

## Main results

* `Session.picked_closestBoundary` — the search picks from the two parts.
* `Session.closestBoundary_nearest` — **the boundary found is nearest to the position, the greater
  one of two that are equally near, and lies on the side that is told.**
-/

namespace Typeahead

namespace Session

variable {places low high : List Nat} {position : Int} {i b : Nat}

/-! ### The two parts -/

/-- A position parts some places: `low` are those before it, `high` the rest. -/
structure Parted (places : List Nat) (position : Int) (low high : List Nat) : Prop where
  eq : places = low ++ high
  low : ∀ a ∈ low, (a : Int) < position
  high : ∀ b ∈ high, position ≤ b

/-- Places that never go back are parted by every position. -/
theorem exists_parted (hsorted : places.Pairwise (· ≤ ·)) (position : Int) :
    ∃ low high, Parted places position low high := by
  induction places with
  | nil => exact ⟨[], [], rfl, List.forall_mem_nil _, List.forall_mem_nil _⟩
  | cons a rest ih =>
    obtain ⟨hfirst, hrest⟩ := List.pairwise_cons.mp hsorted
    by_cases ha : (a : Int) < position
    · obtain ⟨low, high, h⟩ := ih hrest
      exact ⟨a :: low, high, congrArg (a :: ·) h.eq, List.forall_mem_cons.mpr ⟨ha, h.low⟩, h.high⟩
    · -- Nothing is before the position if the first place is not.
      refine ⟨[], a :: rest, rfl, List.forall_mem_nil _, ?_⟩
      intro b hb
      rcases List.mem_cons.mp hb with rfl | hb
      · omega
      · have hle := hfirst b hb
        omega

namespace Parted

theorem sorted_low (h : Parted places position low high) (hsorted : places.Pairwise (· ≤ ·)) :
    low.Pairwise (· ≤ ·) := by
  rw [h.eq] at hsorted
  exact (List.pairwise_append.mp hsorted).1

theorem sorted_high (h : Parted places position low high) (hsorted : places.Pairwise (· ≤ ·)) :
    high.Pairwise (· ≤ ·) := by
  rw [h.eq] at hsorted
  exact (List.pairwise_append.mp hsorted).2.1

/-- No place of the first part is behind its last one. -/
theorem le_last (h : Parted places position low high) (hsorted : places.Pairwise (· ≤ ·))
    {c : Nat} (hc : c ∈ low) : ∃ a, low.getLast? = some a ∧ c ≤ a := by
  have hlow := h.sorted_low hsorted
  rcases List.eq_nil_or_concat low with rfl | ⟨init, a, rfl⟩
  · cases hc
  · rw [List.concat_eq_append] at hc hlow ⊢
    refine ⟨a, List.getLast?_concat, ?_⟩
    rcases List.mem_append.mp hc with hc | hc
    · exact (List.pairwise_append.mp hlow).2.2 c hc a List.mem_cons_self
    · exact (List.mem_singleton.mp hc).le

/-- No place of the second part is before its first one. -/
theorem first_le (h : Parted places position low high) (hsorted : places.Pairwise (· ≤ ·))
    {c : Nat} (hc : c ∈ high) : ∃ b, high.head? = some b ∧ b ≤ c := by
  have hhigh := h.sorted_high hsorted
  cases high with
  | nil => cases hc
  | cons b rest =>
    refine ⟨b, rfl, ?_⟩
    rcases List.mem_cons.mp hc with rfl | hc
    · exact Nat.le_refl _
    · exact (List.pairwise_cons.mp hhigh).1 c hc

/-- The first place of the second part stands behind all of the first part. -/
theorem getElem?_length (h : Parted places position low high) :
    places[low.length]? = high.head? := by
  rw [h.eq, List.getElem?_append_right (Nat.le_refl _), Nat.sub_self, List.head?_eq_getElem?]

/-- The last place of the first part stands just before that. -/
theorem getElem?_length_sub_one (h : Parted places position low high)
    (hlow : low.getLast? = some b) : places[low.length - 1]? = some b := by
  rw [List.getLast?_eq_getElem?] at hlow
  have hlt := (List.getElem?_eq_some_iff.mp hlow).1
  rw [h.eq, List.getElem?_append_left hlt, hlow]

end Parted

/-! ### What the search picks -/

theorem closestFrom_cons (position : Int) (i : Nat) (before : Option Nat) (b : Nat)
    (rest : List Nat) :
    closestFrom position i before (b :: rest) =
      if (b : Int) = position then (i, .neither)
      else if position < b then
        match before with
        | none => (i, .right)
        | some a => if (b : Int) - position ≤ position - a then (i, .right) else (i - 1, .left)
      else closestFrom position (i + 1) (some b) rest := by
  cases before <;> rfl

/-- The search passes over the places before the position. -/
theorem closestFrom_append (hlow : ∀ a ∈ low, (a : Int) < position) (i : Nat)
    (before : Option Nat) (high : List Nat) :
    closestFrom position i before (low ++ high) =
      closestFrom position (i + low.length) (low.getLast?.or before) high := by
  induction low generalizing i before with
  | nil => rfl
  | cons a low ih =>
    obtain ⟨ha, hlow⟩ := List.forall_mem_cons.mp hlow
    have hne : ¬ (a : Int) = position := by omega
    have hnot : ¬ position < (a : Int) := by omega
    have hlast : (a :: low).getLast?.or before = low.getLast?.or (some a) := by
      rw [List.getLast?_cons]
      cases low.getLast? <;> rfl
    rw [List.cons_append, closestFrom_cons, if_neg hne, if_neg hnot, ih hlow, hlast, List.length_cons,
      Nat.add_right_comm, Nat.add_assoc]

/-- What the search picks from the two parts: the first place of the second part if it is at the
position or nearer to it than the last place of the first part, or as near, and otherwise that
one. -/
inductive Picked (position : Int) (low high : List Nat) : Nat × Side → Prop
  | exact {b : Nat} (hfirst : high.head? = some b) (hb : (b : Int) = position) :
    Picked position low high (low.length, .neither)
  | right {b : Nat} (hfirst : high.head? = some b) (hb : position < b)
    (hnear : ∀ a : Nat, low.getLast? = some a → (b : Int) - position ≤ position - a) :
    Picked position low high (low.length, .right)
  | left {a : Nat} (hlast : low.getLast? = some a)
    (hnear : ∀ b : Nat, high.head? = some b → position - a < (b : Int) - position) :
    Picked position low high (low.length - 1, .left)

theorem picked_closestFrom (h : Parted places position low high) (hne : places ≠ []) :
    Picked position low high (closestFrom position 0 none places) := by
  rw [h.eq, closestFrom_append h.low, Nat.zero_add, Option.or_none]
  -- The search passes the first part, so the first place of the second part decides, against the
  -- last one of the first part.
  cases high with
  | nil =>
    cases hlast : low.getLast? with
    | none =>
      rw [List.getLast?_eq_none_iff] at hlast
      exact absurd (by rw [h.eq, hlast, List.append_nil]) hne
    | some a => exact .left hlast nofun
  | cons b rest =>
    have hle : position ≤ b := h.high b List.mem_cons_self
    rw [closestFrom_cons]
    by_cases hb : (b : Int) = position
    · rw [if_pos hb]
      exact .exact rfl hb
    · have hlt : position < b := by omega
      rw [if_neg hb, if_pos hlt]
      cases hlast : low.getLast? with
      | none => exact .right rfl hlt (by simp [hlast])
      | some a =>
        dsimp only
        split
        next hnear => exact .right rfl hlt (by simpa [hlast] using hnear)
        next hnear =>
          refine .left hlast ?_
          rintro b' ⟨⟩
          omega

variable {s : Session}

/-- **The search picks from the two parts** that a position parts the boundaries into. -/
theorem picked_closestBoundary (h : Parted (Line.boundaries s.analysis.spans) position low high)
    (hne : Line.boundaries s.analysis.spans ≠ []) :
    Picked position low high (s.closestBoundary position) :=
  picked_closestFrom h hne

/-! ### What is nearest -/

/-- **A place that is nearest to a position**: it is one of the places, none of them is nearer, and
of those as near none is greater. -/
structure Nearest (places : List Nat) (position : Int) (b : Nat) : Prop where
  mem : b ∈ places
  least : ∀ c ∈ places, (b - position).natAbs ≤ (c - position).natAbs
  greatest : ∀ c ∈ places, (c - position).natAbs = (b - position).natAbs → c ≤ b

/-- A place is nearest if every other is farther away, or no nearer and not behind it. -/
theorem nearest_of_far (hmem : b ∈ places)
    (hfar : ∀ c ∈ places, c ≤ b ∧ (b - position).natAbs ≤ (c - position).natAbs ∨
      (b - position).natAbs < (c - position).natAbs) : Nearest places position b := by
  refine ⟨hmem, ?_, ?_⟩
  · intro c hc
    rcases hfar c hc with ⟨-, hle⟩ | hlt
    · exact hle
    · exact hlt.le
  · intro c hc hdistance
    rcases hfar c hc with ⟨hle, -⟩ | hlt
    · exact hle
    · omega

/-- **What the search picks is nearest to the position**, and lies on the side that it tells. -/
theorem nearest_of_picked {found : Nat × Side} (h : Parted places position low high)
    (hsorted : places.Pairwise (· ≤ ·)) (hpicked : Picked position low high found) :
    ∃ b, places[found.1]? = some b ∧ Nearest places position b ∧
      (found.2 = .neither ↔ (b : Int) = position) ∧ (found.2 = .right ↔ position < b) ∧
        (found.2 = .left ↔ b < position) := by
  have hparts {c : Nat} (hc : c ∈ places) : c ∈ low ∨ c ∈ high := by
    rwa [h.eq, List.mem_append] at hc
  -- In each case it is compared with the places of both parts, which are in order.
  cases hpicked with
  | @exact b hfirst hb =>
    have hget : places[low.length]? = some b := h.getElem?_length.trans hfirst
    refine ⟨b, hget, nearest_of_far (List.mem_of_getElem? hget) ?_, by simp [hb]⟩
    intro c hc
    omega
  | @right b hfirst hb hnear =>
    have hget : places[low.length]? = some b := h.getElem?_length.trans hfirst
    refine ⟨b, hget, nearest_of_far (List.mem_of_getElem? hget) ?_, by simp; omega⟩
    intro c hc
    rcases hparts hc with hc | hc
    · -- The last place before the position is no nearer, and the others there are before it.
      obtain ⟨a, hlast, hca⟩ := h.le_last hsorted hc
      have hab := hnear a hlast
      have hbefore := h.low c hc
      omega
    · obtain ⟨first, hfirst', hle⟩ := h.first_le hsorted hc
      obtain rfl : b = first := Option.some.inj (hfirst.symm.trans hfirst')
      omega
  | @left a hlast hnear =>
    have hget : places[low.length - 1]? = some a := h.getElem?_length_sub_one hlast
    have ha : (a : Int) < position := h.low a (List.mem_of_getLast? hlast)
    refine ⟨a, hget, nearest_of_far (List.mem_of_getElem? hget) ?_, by simp; omega⟩
    intro c hc
    rcases hparts hc with hc | hc
    · obtain ⟨last, hlast', hle⟩ := h.le_last hsorted hc
      obtain rfl : a = last := Option.some.inj (hlast.symm.trans hlast')
      omega
    · -- The first place that is not before the position is farther, and the others are behind it.
      obtain ⟨b, hfirst, hbc⟩ := h.first_le hsorted hc
      have hab := hnear b hfirst
      omega

/-- **The boundary found is nearest to the position.**  As long as the spans of a line that is not
empty are up to date, the search finds for every position, in the line or not, a boundary that is
nearest to it, the greater one of two that are equally near, and tells on which side it lies. -/
theorem closestBoundary_nearest (s : Session) (hspans : s.analysis.spans = Line.spans s.text)
    (hne : s.text ≠ []) (position : Int) :
    let places := Line.boundaries s.analysis.spans
    let found := s.closestBoundary position
    ∃ b, places[found.1]? = some b ∧ Nearest places position b ∧
      (found.2 = .neither ↔ (b : Int) = position) ∧ (found.2 = .right ↔ position < b) ∧
        (found.2 = .left ↔ b < position) := by
  intro places found
  have hsorted : places.Pairwise (· ≤ ·) := by
    simp only [places, hspans]
    exact Line.pairwise_boundaries s.text
  have hplaces : places ≠ [] := by
    simp only [places, hspans]
    exact List.ne_nil_of_mem (Line.zero_mem_boundaries hne)
  -- The boundaries fall into those before the position and the others.
  obtain ⟨low, high, hparted⟩ := exists_parted hsorted position
  exact nearest_of_picked hparted hsorted (picked_closestBoundary hparted hplaces)

/-- In the middle of an argument the end of it is taken, and before the line the start of it. -/
theorem closestBoundary_nearest_sample :
    let s := ((start .sample 80).insertAll ['a', ' ', ' ', 'b', 'c']).update.session
    s.analysis.spans = Line.spans s.text ∧ s.text ≠ [] ∧
      Nearest (Line.boundaries s.analysis.spans) 4 5 ∧
        Nearest (Line.boundaries s.analysis.spans) (-7) 0 := by
  intro s
  have hspans : s.analysis.spans = Line.spans s.text := rfl
  have hne : s.text ≠ [] := by decide
  obtain ⟨b, hb, htie, -⟩ := closestBoundary_nearest s hspans hne 4
  obtain ⟨c, hc, hbefore, -⟩ := closestBoundary_nearest s hspans hne (-7)
  have hb' : (Line.boundaries s.analysis.spans)[(s.closestBoundary 4).1]? = some 5 := by decide
  have hc' : (Line.boundaries s.analysis.spans)[(s.closestBoundary (-7)).1]? = some 0 := by decide
  obtain rfl : b = 5 := Option.some.inj (hb.symm.trans hb')
  obtain rfl : c = 0 := Option.some.inj (hc.symm.trans hc')
  exact ⟨hspans, hne, htie, hbefore⟩

end Session

end Typeahead
