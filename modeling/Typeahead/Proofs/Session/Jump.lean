import Typeahead.Proofs.Session.Nearest

/-!
# Jumping from boundary to boundary

A jump starts with the boundary nearest to the cursor, which may lie on either side of it or be
where the cursor is, and from there it looks for one that lies ahead.  Wherever it starts, it finds
the next boundary ahead, and the end of the line if there is none.  So a caret that jumps again and
again in one direction, from one end of the line, comes by each place where there is a boundary just
once, although an empty argument has its boundaries twice at one place, and it stops at the other
end.

## Main definitions

* `Direction.Ahead` — one position lies ahead of another.
* `Direction.Next` — the next of some places ahead.
* `Direction.Visits` — a caret comes by the places ahead of it, each of them once.
* `Session.stride` — the action that moves the caret by a word.

## Main results

* `Session.next_jumpFrom` — a jump goes to the next boundary ahead.
* `Direction.visits_of_next` — going to the next place again and again visits all of them.
* `Session.jump_next` — **jumps go to the next boundary, and by words the caret visits every
  boundary.**
-/

namespace Typeahead

namespace Direction

/-! ### What lies ahead -/

/-- The position `q` lies ahead of the position `p`. -/
def Ahead : Direction → Nat → Nat → Prop
  | .left, p, q => q < p
  | .right, p, q => p < q

/-- The end of a line that a direction leads to. -/
def goal (length : Nat) : Direction → Nat
  | .left => 0
  | .right => length

/-- The end of a line that a direction leads away from. -/
def origin (length : Nat) : Direction → Nat
  | .left => length
  | .right => 0

/-- **The next of some places ahead of a position**: one that lies ahead, with no other one between,
or where to stop if none lies ahead. -/
def Next (d : Direction) (places : List Nat) (stop p q : Nat) : Prop :=
  (q ∈ places ∧ d.Ahead p q ∧ ∀ b ∈ places, d.Ahead p b → ¬ d.Ahead b q) ∨
    (∀ b ∈ places, ¬ d.Ahead p b) ∧ q = stop

/-- **A caret visits the places ahead of where it starts**: it is at each of them once, one after
the other, and from then on it stays at the last one, where it stops. -/
def Visits (d : Direction) (places : List Nat) (start stop : Nat) (caret : Nat → Nat) : Prop :=
  ∃ route : List Nat, route.Pairwise d.Ahead ∧
    (∀ b, b ∈ route ↔ b ∈ places ∧ d.Ahead start b) ∧
      (start :: route).getLast? = some stop ∧
        ∀ n, caret n = (start :: route)[n]?.getD stop

variable {d : Direction} {places : List Nat} {start stop p q r : Nat} {caret : Nat → Nat}

theorem Ahead.trans (h : d.Ahead p q) (h' : d.Ahead q r) : d.Ahead p r := by
  cases d with
  | left => exact Nat.lt_trans h' h
  | right => exact Nat.lt_trans h h'

theorem ahead_or_eq_or_ahead (d : Direction) (p q : Nat) :
    d.Ahead p q ∨ p = q ∨ d.Ahead q p := by
  cases d with
  | left => exact (Nat.lt_trichotomy q p).imp_right (Or.imp_left Eq.symm)
  | right => exact Nat.lt_trichotomy p q

/-- What lies ahead is the next place and what lies ahead of that. -/
theorem mem_ahead_iff (hnext : ∀ b ∈ places, d.Ahead p b → ¬ d.Ahead b q) (hq : q ∈ places)
    (hpq : d.Ahead p q) (b : Nat) :
    b ∈ places ∧ d.Ahead p b ↔ b = q ∨ b ∈ places ∧ d.Ahead q b := by
  constructor
  · rintro ⟨hb, hpb⟩
    rcases d.ahead_or_eq_or_ahead b q with hbq | rfl | hqb
    · exact absurd hbq (hnext b hb hpb)
    · exact .inl rfl
    · exact .inr ⟨hb, hqb⟩
  · rintro (rfl | ⟨hb, hqb⟩)
    · exact ⟨hq, hpq⟩
    · exact ⟨hb, hpq.trans hqb⟩

/-! ### Going on and on -/

/-- How far it is from one position to another. -/
def distance (p q : Nat) : Nat := (p - q) + (q - p)

/-- On the way to where to stop, going ahead comes nearer to it. -/
theorem distance_lt (hpq : d.Ahead p q) (hstop : q = stop ∨ d.Ahead q stop) :
    distance q stop < distance p stop := by
  cases d <;> simp only [Ahead, distance] at * <;> omega

/-- Where to stop nothing lies ahead, and the caret stays there. -/
theorem stays_of_next (hstep : ∀ n, d.Next places stop (caret n) (caret (n + 1)))
    (hnone : ∀ b ∈ places, ¬ d.Ahead stop b) (hstart : caret 0 = stop) (n : Nat) :
    caret n = stop := by
  induction n with
  | zero => exact hstart
  | succ n ih =>
    rcases hstep n with ⟨hmem, hahead, -⟩ | ⟨-, heq⟩
    · rw [ih] at hahead
      exact absurd hahead (hnone _ hmem)
    · exact heq

/-- **Going to the next place again and again visits all of them**, if the place to stop at is the
last one wherever there are any. -/
theorem visits_of_next (hstep : ∀ n, d.Next places stop (caret n) (caret (n + 1)))
    (hstop : ∀ p, p = caret 0 ∨ p ∈ places → p = stop ∨ stop ∈ places ∧ d.Ahead p stop) :
    d.Visits places (caret 0) stop caret := by
  -- Each step comes nearer to where to stop, until nothing lies ahead any more.
  induction hleft : distance (caret 0) stop using Nat.strong_induction_on generalizing caret with
  | _ left ih =>
  rcases hstep 0 with ⟨hmem, hahead, hnext⟩ | ⟨hnone, -⟩
  · have hbehind : caret 1 = stop ∨ stop ∈ places ∧ d.Ahead (caret 1) stop :=
      hstop (caret 1) (.inr hmem)
    have hlt : distance (caret 1) stop < left := by
      rw [← hleft]
      exact distance_lt hahead (hbehind.imp_right And.right)
    have hstop' : ∀ p, p = caret 1 ∨ p ∈ places → p = stop ∨ stop ∈ places ∧ d.Ahead p stop := by
      rintro p (rfl | hp)
      · exact hbehind
      · exact hstop p (.inr hp)
    have hrest : d.Visits places (caret 1) stop fun n => caret (n + 1) :=
      ih _ hlt (fun n => hstep (n + 1)) hstop' rfl
    obtain ⟨route, hordered, hroute, hlast, hcaret⟩ := hrest
    refine ⟨caret 1 :: route, ?_, ?_, ?_, ?_⟩
    · exact List.pairwise_cons.mpr ⟨fun b hb => ((hroute b).mp hb).2, hordered⟩
    · intro b
      rw [List.mem_cons, hroute, mem_ahead_iff hnext hmem hahead]
    · rwa [List.getLast?_cons_cons]
    · intro n
      cases n with
      | zero => rfl
      | succ n => exact hcaret n
  · have hstart : caret 0 = stop := by
      rcases hstop (caret 0) (.inl rfl) with heq | ⟨hmem, hahead⟩
      · exact heq
      · exact absurd hahead (hnone stop hmem)
    refine ⟨[], .nil, ?_, congrArg some hstart, ?_⟩
    · intro b
      simp only [List.not_mem_nil, false_iff, not_and]
      exact hnone b
    · intro n
      rw [stays_of_next hstep (hstart ▸ hnone) hstart n]
      cases n with
      | zero => exact hstart.symm
      | succ n => rfl

end Direction

namespace Session

variable {s : Session} {places low high : List Nat} {position i stop : Nat}

/-! ### The two parts of the boundaries -/

/-- To the left the last place before the position is the next one. -/
theorem next_left (h : Parted places position low high) (hsorted : places.Pairwise (· ≤ ·)) :
    Direction.left.Next places stop position (low.getLast?.getD stop) := by
  -- What comes before the position is all in the first part.
  have hlow : ∀ b ∈ places, b < position → b ∈ low := by
    intro b hb hlt
    rw [h.eq, List.mem_append] at hb
    refine hb.resolve_right fun hhigh => ?_
    have hle := h.high b hhigh
    omega
  cases hlast : low.getLast? with
  | none =>
    rw [List.getLast?_eq_none_iff] at hlast
    refine .inr ⟨?_, rfl⟩
    intro b hb hlt
    have hmem := hlow b hb hlt
    rw [hlast] at hmem
    cases hmem
  | some a =>
    have ha : a ∈ low := List.mem_of_getLast? hlast
    have hbefore := h.low a ha
    refine .inl ⟨?_, ?_, ?_⟩
    · rw [h.eq]
      exact List.mem_append_left high ha
    · exact Int.ofNat_lt.mp hbefore
    -- The last of them is the nearest one, since they are in order.
    · intro b hb hlt hlast'
      obtain ⟨a', ha', hle⟩ := h.le_last hsorted (hlow b hb hlt)
      obtain rfl : a = a' := Option.some.inj (hlast.symm.trans ha')
      exact absurd hle (Nat.not_le.mpr hlast')

/-- To the right the first place behind the position is the next one. -/
theorem next_right (h : Parted places position low high) (hsorted : places.Pairwise (· ≤ ·)) :
    Direction.right.Next places stop position ((high.find? (position < ·)).getD stop) := by
  -- What comes behind the position is all in the second part.
  have hhigh : ∀ b ∈ places, position < b → b ∈ high := by
    intro b hb hlt
    rw [h.eq, List.mem_append] at hb
    refine hb.resolve_left fun hlow => ?_
    have hbefore := h.low b hlow
    omega
  cases hfind : high.find? (position < ·) with
  | none =>
    rw [List.find?_eq_none] at hfind
    refine .inr ⟨?_, rfl⟩
    intro b hb hlt
    exact hfind b (hhigh b hb hlt) (decide_eq_true hlt)
  | some b =>
    obtain ⟨hb, before, behind, heq, hbefore⟩ := List.find?_eq_some_iff_append.mp hfind
    have hlt : position < b := of_decide_eq_true hb
    refine .inl ⟨?_, hlt, ?_⟩
    · rw [h.eq]
      exact List.mem_append_right low (List.mem_of_find?_eq_some hfind)
    · intro c hc hpc hcb
      have hmem := hhigh c hc hpc
      have hordered := h.sorted_high hsorted
      rw [heq] at hmem hordered
      rcases List.mem_append.mp hmem with hc | hc
      · -- What is passed over is not behind the position.
        have hnot : ¬ position < c := by simpa using hbefore c hc
        exact hnot hpc
      · have hle : b ≤ c := by
          rcases List.mem_cons.mp hc with rfl | hc
          · exact Nat.le_refl _
          · exact (List.pairwise_cons.mp (List.pairwise_append.mp hordered).2.1).1 c hc
        exact absurd hle (Nat.not_le.mpr hcb)

/-- To the left the search finds the last place before the position, if it starts there or behind
it. -/
theorem leftward_of_parted (h : Parted places position low high) (hi : low.length ≤ i + 1) :
    leftward places i position = low.getLast?.getD 0 := by
  have hhigh : (high.take (i + 1 - low.length)).reverse.find? (· < position) = none := by
    rw [List.find?_eq_none]
    intro b hb
    have hle := h.high b (List.mem_of_mem_take (List.mem_reverse.mp hb))
    simp only [decide_eq_true_eq]
    omega
  have hlow : low.reverse.find? (· < position) = low.getLast? := by
    rcases List.eq_nil_or_concat low with rfl | ⟨init, a, rfl⟩
    · rfl
    · have ha := h.low a (by simp)
      rw [List.concat_eq_append, List.reverse_append, List.getLast?_concat]
      exact List.find?_cons_of_pos (decide_eq_true (Int.ofNat_lt.mp ha))
  rw [leftward, h.eq, List.take_append, List.take_of_length_le hi, List.reverse_append,
    List.find?_append, hhigh, Option.none_or, hlow]

/-- To the right the search finds the first place behind the position, if it starts with the second
part or before it. -/
theorem rightward_of_parted (h : Parted places position low high) (hi : i ≤ low.length) :
    rightward places stop i position = (high.find? (position < ·)).getD stop := by
  have hlow : (low.drop i).find? (position < ·) = none := by
    rw [List.find?_eq_none]
    intro a ha
    have hbefore := h.low a (List.mem_of_mem_drop ha)
    simp only [decide_eq_true_eq]
    omega
  rw [rightward, h.eq, List.drop_append_of_le_length hi, List.find?_append, hlow, Option.none_or]

/-! ### One jump -/

theorem jumpFrom_of_boundaries_eq_nil (hnil : Line.boundaries s.analysis.spans = [])
    (d : Direction) : s.jumpFrom d.side position = d.goal s.text.length := by
  rw [jumpFrom, if_pos hnil]
  cases d <;> rfl

/-- A jump to the left goes to the last boundary before the position. -/
theorem jumpFrom_left (h : Parted (Line.boundaries s.analysis.spans) position low high)
    (hne : Line.boundaries s.analysis.spans ≠ []) :
    s.jumpFrom .left position = low.getLast?.getD 0 := by
  have hpicked := picked_closestBoundary h hne
  rw [jumpFrom, if_neg hne]
  generalize s.closestBoundary position = found at hpicked
  cases hpicked with
  | exact hfirst hb => exact leftward_of_parted h (Nat.le_succ _)
  | right hfirst hb hnear => exact leftward_of_parted h (Nat.le_succ _)
  | left hlast hnear =>
    dsimp only
    rw [if_pos rfl, h.getElem?_length_sub_one hlast, hlast]

/-- A jump to the right goes to the first boundary behind the position. -/
theorem jumpFrom_right (h : Parted (Line.boundaries s.analysis.spans) position low high)
    (hne : Line.boundaries s.analysis.spans ≠ []) :
    s.jumpFrom .right position = (high.find? (position < ·)).getD s.text.length := by
  have hpicked := picked_closestBoundary h hne
  rw [jumpFrom, if_neg hne]
  generalize s.closestBoundary position = found at hpicked
  cases hpicked with
  | exact hfirst hb => exact rightward_of_parted h (Nat.le_refl _)
  | @right b hfirst hb hnear =>
    obtain ⟨rest, rfl⟩ := List.head?_eq_some_iff.mp hfirst
    have hlt : position < b := Int.ofNat_lt.mp hb
    have hfind : (b :: rest).find? (position < ·) = some b :=
      List.find?_cons_of_pos (decide_eq_true hlt)
    dsimp only
    rw [if_pos rfl, h.getElem?_length, hfirst, hfind]
    rfl
  | left hlast hnear => exact rightward_of_parted h (Nat.sub_le _ _)

/-- **A jump goes to the next boundary ahead.** -/
theorem next_jumpFrom (hsorted : (Line.boundaries s.analysis.spans).Pairwise (· ≤ ·))
    (d : Direction) (position : Nat) :
    d.Next (Line.boundaries s.analysis.spans) (d.goal s.text.length) position
      (s.jumpFrom d.side position) := by
  by_cases hnil : Line.boundaries s.analysis.spans = []
  · rw [jumpFrom_of_boundaries_eq_nil hnil, hnil]
    exact .inr ⟨List.forall_mem_nil _, rfl⟩
  · obtain ⟨low, high, hparted⟩ := exists_parted hsorted position
    cases d with
    | left =>
      rw [Direction.side, jumpFrom_left hparted hnil]
      exact next_left hparted hsorted
    | right =>
      rw [Direction.side, jumpFrom_right hparted hnil]
      exact next_right hparted hsorted

/-! ### Jumps of the caret -/

/-- A jump stays in the line. -/
theorem jumpFrom_le_length (hspans : s.analysis.spans = Line.spans s.text) (d : Direction)
    (position : Nat) : s.jumpFrom d.side position ≤ s.text.length := by
  have hsorted := Line.pairwise_boundaries s.text
  rw [← hspans] at hsorted
  rcases next_jumpFrom hsorted d position with ⟨hmem, -, -⟩ | ⟨-, heq⟩
  · rw [hspans] at hmem
    exact Line.le_length_of_mem_boundaries hmem
  · rw [heq]
    cases d with
    | left => exact Nat.zero_le _
    | right => exact Nat.le_refl _

/-- The action that moves the caret by a word. -/
def stride (d : Direction) : Action := .move d .word false

/-- Moving the caret by a word changes no text and leaves the spans up to date. -/
theorem spans_run_stride (hspans : s.analysis.spans = Line.spans s.text) (d : Direction) (n : Nat) :
    let t := s.run (List.replicate n (stride d))
    t.text = s.text ∧ t.analysis.spans = Line.spans s.text := by
  induction n generalizing s with
  | zero => exact ⟨rfl, hspans⟩
  | succ n ih => exact ih (s := (s.perform (stride d)).session) rfl

/-- The caret is moved to where a jump goes. -/
theorem caret_stride (hspans : s.analysis.spans = Line.spans s.text) (d : Direction) :
    (s.perform (stride d)).session.caret = s.jumpFrom d.side s.caret := by
  have hle := jumpFrom_le_length hspans d s.caret
  change (max 0 (min (s.jumpFrom d.side s.caret : Int) s.text.length)).toNat = _
  omega

theorem run_replicate_succ (s : Session) (a : Action) (n : Nat) :
    s.run (List.replicate (n + 1) a) = ((s.run (List.replicate n a)).perform a).session := by
  induction n generalizing s with
  | zero => rfl
  | succ n ih => exact ih (s.perform a).session

/-- The caret goes to the next boundary each time it is moved by a word. -/
theorem next_caret_run (hspans : s.analysis.spans = Line.spans s.text) (d : Direction) (n : Nat) :
    d.Next (Line.boundaries s.analysis.spans) (d.goal s.text.length)
      (s.run (List.replicate n (stride d))).caret
      (s.run (List.replicate (n + 1) (stride d))).caret := by
  have hrun := spans_run_stride hspans d n
  rw [run_replicate_succ]
  generalize s.run (List.replicate n (stride d)) = t at hrun
  obtain ⟨htext, hspans'⟩ := hrun
  have hsorted := Line.pairwise_boundaries s.text
  rw [← hspans'] at hsorted
  rw [caret_stride (hspans'.trans (congrArg Line.spans htext.symm)), hspans, ← hspans', ← htext]
  exact next_jumpFrom hsorted d t.caret

/-- The end of the line that a direction leads to is a boundary ahead of every other one. -/
theorem goal_ahead (d : Direction) {p : Nat}
    (hp : p = d.origin s.text.length ∨ p ∈ Line.boundaries (Line.spans s.text)) :
    p = d.goal s.text.length ∨
      d.goal s.text.length ∈ Line.boundaries (Line.spans s.text) ∧
        d.Ahead p (d.goal s.text.length) := by
  have hle : p ≤ s.text.length := by
    -- Every place on the way lies on the line.
    rcases hp with rfl | hp
    · cases d with
      | left => exact Nat.le_refl _
      | right => exact Nat.zero_le _
    · exact Line.le_length_of_mem_boundaries hp
  -- On an empty line the goal is where the way starts; on any other it is a boundary.
  by_cases hne : s.text = []
  · left
    rw [hne] at hle ⊢
    obtain rfl : p = 0 := Nat.le_zero.mp hle
    cases d <;> rfl
  · cases d with
    | left =>
      rcases Nat.eq_zero_or_pos p with hzero | hpos
      · exact .inl hzero
      · exact .inr ⟨Line.zero_mem_boundaries hne, hpos⟩
    | right =>
      rcases Nat.eq_or_lt_of_le hle with heq | hlt
      · exact .inl heq
      · exact .inr ⟨Line.length_mem_boundaries hne, hlt⟩

/-- **Jumps go to the next boundary, and by words the caret visits every boundary.**  As long as the
spans are up to date, a jump of an active cursor goes to the next boundary ahead of it, and to the
end of the line if there is none.  Hence a caret that is moved by words from one end of the line,
again and again in one direction, is once at each place ahead where there is a boundary, in order,
and stays at the other end. -/
theorem jump_next (s : Session) (hspans : s.analysis.spans = Line.spans s.text) (d : Direction) :
    let places := Line.boundaries s.analysis.spans
    let first := d.origin s.text.length
    let last := d.goal s.text.length
    (∀ c : Cursor, c.active →
      ∃ place, s.jump d.side c = .ok place ∧ d.Next places last c.position place) ∧
      (s.caret = first →
        d.Visits places first last fun n =>
          (s.run (List.replicate n (.move d .word false))).caret) := by
  intro places first last
  have hsorted : places.Pairwise (· ≤ ·) := by
    simp only [places, hspans]
    exact Line.pairwise_boundaries s.text
  constructor
  · intro c hc
    refine ⟨s.jumpFrom d.side c.position, ?_, next_jumpFrom hsorted d c.position⟩
    cases d <;> simp [jump, obstacle?, hc, Direction.side]
  -- The run goes from one boundary to the next, and each is followed by another until the goal.
  · intro hcaret
    rw [← hcaret]
    refine Direction.visits_of_next (next_caret_run hspans d) ?_
    intro p hp
    simp only [hspans] at hp ⊢
    exact goal_ahead d (hp.imp_left fun h => h.trans hcaret)

/-- From the end of a line with an empty argument the caret comes by every boundary. -/
theorem jump_next_sample :
    let s := ((start .sample 80).insertAll ['a', ' ', ' ', 'b', 'c']).update.session
    s.analysis.spans = Line.spans s.text ∧ s.caret = Direction.left.origin s.text.length ∧
      s.jump .left ⟨4, true⟩ = .ok 3 ∧
        Direction.left.Visits (Line.boundaries s.analysis.spans) 5 0 fun n =>
          (s.run (List.replicate n (.move .left .word false))).caret := by
  intro s
  have hspans : s.analysis.spans = Line.spans s.text := rfl
  have hcaret : s.caret = Direction.left.origin s.text.length := rfl
  obtain ⟨hjump, hvisits⟩ := jump_next s hspans .left
  obtain ⟨place, hplace, -⟩ := hjump ⟨4, true⟩ rfl
  obtain rfl : place = 3 := Except.ok.inj (hplace.symm.trans (by decide))
  exact ⟨hspans, hcaret, hplace, hvisits hcaret⟩

end Session

end Typeahead
