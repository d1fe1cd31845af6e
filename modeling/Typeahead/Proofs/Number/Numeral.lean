import Typeahead.Number.Numeral

/-!
# Digits read as a number

A text of digit signs has no blank, no sign and no low line in it, so that reading it as a number
comes to a walk over its digits.  The walk gets to the end exactly if all the signs are decimal
digits.  It stops at the first sign that stands for no decimal place, and then the text is refused,
as it is if there are too many digits.

## Main definitions

* `Text.Decimal` — a text of decimal digits.
* `Numeral.value` — the number that decimal digits stand for.
* `Numeral.Garbled` — a text of digit signs that are not all decimal digits, or are too many.
* `Numeral.Writes` — a text of plain digits that a number can be read from.

## Main results

* `isBlank_of_isDigitSign` — no digit sign is a blank.
* `Numeral.read_decimal` — **decimal digits are read as the number that they stand for**, if there
  are not too many.
* `Numeral.read_garbled` — **any other text of digit signs is refused.**
-/

namespace Typeahead

/-! ### Digit signs and blanks -/

/-- The blanks by their numbers. -/
def blankRanges : List (Nat × Nat) :=
  [(0x9, 0xd), (0x1c, 0x20), (0x85, 0x85), (0xa0, 0xa0), (0x1680, 0x1680), (0x2000, 0x200a),
   (0x2028, 0x2029), (0x202f, 0x202f), (0x205f, 0x205f), (0x3000, 0x3000)]

/-- A number does not lie in the intervals of two lists that are apart. -/
theorem inRanges_of_apart {ranges others : List (Nat × Nat)} {n : Nat}
    (hapart : ∀ r ∈ ranges, ∀ s ∈ others, r.2 < s.1 ∨ s.2 < r.1) (h : inRanges ranges n = true) :
    inRanges others n = false := by
  obtain ⟨r, hr, hin⟩ := List.any_eq_true.mp h
  rw [inRanges, List.any_eq_false]
  intro s hs hin'
  simp only [Bool.and_eq_true, decide_eq_true_eq] at hin hin'
  have := hapart r hr s hs
  omega

theorem inRanges_of_between {ranges : List (Nat × Nat)} {c first last : Char}
    (hmem : ∃ r ∈ ranges, r.1 ≤ first.toNat ∧ last.toNat ≤ r.2)
    (h : (first ≤ c && c ≤ last) = true) : inRanges ranges c.toNat = true := by
  obtain ⟨r, hr, hfirst, hlast⟩ := hmem
  simp only [Bool.and_eq_true, decide_eq_true_eq] at h
  have hge : first.toNat ≤ c.toNat := UInt32.le_iff_toNat_le.mp h.1
  have hle : c.toNat ≤ last.toNat := UInt32.le_iff_toNat_le.mp h.2
  refine List.any_eq_true.mpr ⟨r, hr, ?_⟩
  simp only [Bool.and_eq_true, decide_eq_true_eq]
  omega

theorem inRanges_of_isWideSpace {c : Char} (h : isWideSpace c = true) :
    inRanges blankRanges c.toNat = true := by
  simp only [isWideSpace, Bool.or_eq_true, beq_iff_eq] at h
  rcases h with (((((((rfl | rfl) | rfl) | hquad) | rfl) | rfl) | rfl) | rfl) | rfl
  case inl.inl.inl.inl.inl.inr => exact inRanges_of_between (by decide) hquad
  all_goals decide

theorem inRanges_of_isBlank {c : Char} (h : isBlank c = true) :
    inRanges blankRanges c.toNat = true := by
  simp only [isBlank, isSpace, Bool.or_eq_true, beq_iff_eq] at h
  rcases h with hseparator | (hcarriage | rfl) | hwide
  · exact inRanges_of_between (by decide) hseparator
  · exact inRanges_of_between (by decide) hcarriage
  · decide
  · exact inRanges_of_isWideSpace hwide

theorem isDigitSign_eq (c : Char) :
    isDigitSign c = inRanges (decimalDigits ++ ornamentalDigits) c.toNat := by
  rw [isDigitSign, decimalDigit?, Option.isSome_map, List.isSome_find?, inRanges, inRanges,
    List.any_append]

/-- **No digit sign is a blank.** -/
theorem isBlank_of_isDigitSign {c : Char} (h : isDigitSign c = true) : isBlank c = false := by
  cases hblank : isBlank c with
  | false => rfl
  | true =>
    have hapart : inRanges (decimalDigits ++ ornamentalDigits) c.toNat = false :=
      inRanges_of_apart (by decide +kernel) (inRanges_of_isBlank hblank)
    rw [← isDigitSign_eq, h] at hapart
    cases hapart

theorem isDigitSign_of_decimal {c : Char} (h : (decimalDigit? c).isSome) :
    isDigitSign c = true := by
  rw [isDigitSign, h]
  rfl

/-- A plain digit is a decimal digit. -/
theorem decimalDigit?_of_isDigit {c : Char} (h : c.isDigit = true) :
    decimalDigit? c = some (c.toNat - '0'.toNat) := by
  have hbounds : 0x30 ≤ c.toNat ∧ c.toNat ≤ 0x39 := Char.isDigit_iff_toNat.mp h
  have hfirst : (decide (0x30 ≤ c.toNat) && decide (c.toNat ≤ 0x39)) = true := by
    simpa using hbounds
  rw [decimalDigit?, decimalDigits, List.find?_cons_of_pos, Option.map_some]
  · exact congrArg some (Nat.mod_eq_of_lt (by omega))
  · exact hfirst

/-- A text of decimal digits of any script. -/
structure Text.Decimal (t : Text) : Prop where
  ne_nil : t ≠ []
  digits : ∀ c ∈ t, (decimalDigit? c).isSome

/-- Decimal digits are digit signs. -/
theorem Text.Decimal.signs {t : Text} (h : t.Decimal) : ∀ c ∈ t, isDigitSign c = true :=
  fun c hc => isDigitSign_of_decimal (h.digits c hc)

theorem Text.trim_of_forall {p : Char → Bool} {t : Text} (h : ∀ c ∈ t, p c = false) :
    t.trim p = t := by
  have hright : ∀ u : Text, (∀ c ∈ u, p c = false) → u.trimRight p = u := by
    intro u hu
    induction u with
    | nil => rfl
    | cons c u ih =>
      obtain ⟨hc, hrest⟩ := List.forall_mem_cons.mp hu
      rw [trimRight, ih hrest]
      cases u with
      | nil => rw [hc]; rfl
      | cons d u => rfl
  have hleft : t.dropWhile p = t := by
    cases t with
    | nil => rfl
    | cons c t => rw [List.dropWhile_cons, h c List.mem_cons_self]; rfl
  rw [trim, hleft, hright t h]

namespace Numeral

/-! ### Walking over digits -/

/-- The number that decimal digits behind a number stand for. -/
def valueFrom (value : Nat) : Text → Nat
  | [] => value
  | c :: t => valueFrom (value * 10 + (decimalDigit? c).getD 0) t

/-- The number that decimal digits stand for. -/
def value (t : Text) : Nat := valueFrom 0 t

/-- Walking over decimal digits. -/
theorem scan_append {t : Text} (h : ∀ c ∈ t, (decimalDigit? c).isSome) (v digits : Nat)
    (owed : Bool) (u : Text) :
    scan v digits owed (t ++ u) =
      scan (valueFrom v t) (digits + t.length) (owed && t.isEmpty) u := by
  induction t generalizing v digits owed with
  | nil => rw [List.isEmpty_nil, Bool.and_true]; rfl
  | cons c t ih =>
    obtain ⟨hc, hrest⟩ := List.forall_mem_cons.mp h
    obtain ⟨d, hd⟩ := Option.isSome_iff_exists.mp hc
    rw [List.cons_append, scan, hd]
    dsimp only
    rw [ih hrest, valueFrom, hd, List.length_cons, List.isEmpty_cons, Bool.and_false,
      Bool.false_and, Option.getD_some, Nat.add_assoc, Nat.add_comm 1]

/-- The walk stops at a digit sign that stands for no decimal place, or at the end. -/
theorem scan_stop {t : Text} (h : ∀ c ∈ t, isDigitSign c = true)
    (hfirst : ∀ c ∈ t.head?, decimalDigit? c = none) (v digits : Nat) (owed : Bool) :
    scan v digits owed t = ⟨v, digits, !owed, t⟩ := by
  cases t with
  | nil => rfl
  | cons c t =>
    have hline : c ≠ '_' := by
      rintro rfl
      exact absurd (h '_' List.mem_cons_self) (by decide)
    rw [scan, hfirst c rfl]
    dsimp only
    rw [if_neg hline]

/-- Reading a text of digit signs is a walk from its start, as nothing stands around them. -/
theorem read_eq {t : Text} (h : ∀ c ∈ t, isDigitSign c = true) :
    read t =
      let run := scan 0 0 true t
      if !run.proper then .error (.malformed t)
      else if digitLimit < run.digits then .error (.tooLong run.digits)
      else if run.rest ≠ [] then .error (.malformed t)
      else .ok run.value := by
  have htrim : t.trim isSpace = t := by
    refine Text.trim_of_forall fun c hc => ?_
    exact (Bool.or_eq_false_iff.mp (isBlank_of_isDigitSign (h c hc))).2
  have hsign : sign t = (false, t) := by
    unfold sign
    split
    next => exact absurd (h '-' List.mem_cons_self) (by decide)
    next => exact absurd (h '+' List.mem_cons_self) (by decide)
    next => rfl
  rw [read, htrim, hsign]
  rfl

/-! ### What can be read -/

/-- **Decimal digits are read as the number that they stand for**, if there are not too many. -/
theorem read_decimal {t : Text} (h : t.Decimal) (hshort : t.length ≤ digitLimit) :
    read t = .ok (value t : Int) := by
  have hscan : scan 0 0 true t = ⟨value t, t.length, true, []⟩ := by
    have hwalk := scan_append h.digits 0 0 true []
    rw [List.append_nil, List.isEmpty_eq_false_iff.mpr h.ne_nil, Nat.zero_add] at hwalk
    exact hwalk
  rw [read_eq h.signs, hscan]
  dsimp only
  rw [if_neg (by decide), if_neg (by omega), if_neg (by simp)]

/-- A text of digit signs that is no numeral: one of them stands for no decimal place, or there are
too many. -/
structure Garbled (t : Text) : Prop where
  ne_nil : t ≠ []
  signs : ∀ c ∈ t, isDigitSign c = true
  garbled : (∃ c ∈ t, decimalDigit? c = none) ∨ digitLimit < t.length

/-- **Any other text of digit signs is refused.** -/
theorem read_garbled {t : Text} (h : Garbled t) : ∃ why, read t = .error why := by
  -- The walk gets as far as the first sign that is no decimal digit.
  obtain ⟨lead, rest, rfl, hlead, hrest⟩ : ∃ lead rest, t = lead ++ rest ∧
      (∀ c ∈ lead, (decimalDigit? c).isSome) ∧ ∀ c ∈ rest.head?, decimalDigit? c = none := by
    refine ⟨_, _, (List.takeWhile_append_dropWhile (p := fun c => (decimalDigit? c).isSome)).symm,
      fun c hc => List.all_eq_true.mp List.all_takeWhile c hc, fun c hc => ?_⟩
    have hnot := List.head?_dropWhile_not (fun c => (decimalDigit? c).isSome) t
    rw [Option.mem_def.mp hc] at hnot
    simpa using hnot
  have hbad : digitLimit < 0 + lead.length ∨ rest ≠ [] := by
    by_cases hnil : rest = []
    · left
      rw [hnil, List.append_nil] at h
      rcases h.garbled with ⟨c, hc, hnone⟩ | hlong
      · exact absurd hnone (Option.isSome_iff_ne_none.mp (hlead c hc))
      · rwa [Nat.zero_add]
    · exact .inr hnil
  have hsigns : ∀ c ∈ rest, isDigitSign c = true :=
    fun c hc => h.signs c (List.mem_append_right lead hc)
  rw [read_eq h.signs, scan_append hlead, scan_stop hsigns hrest]
  dsimp only
  split
  · exact ⟨_, rfl⟩
  · split
    · exact ⟨_, rfl⟩
    next hshort => exact ⟨_, if_pos (hbad.resolve_left hshort)⟩

/-! ### Plain digits -/

/-- `Writes t n` says that `t` is the number `n` in plain digits, zeros before it or not, and that
it has no more of them than are read. -/
structure Writes (t : Text) (n : Nat) : Prop where
  ne_nil : t ≠ []
  digits : ∀ c ∈ t, c.isDigit = true
  short : t.length ≤ digitLimit
  value : Nat.ofDigitChars 10 t 0 = n

theorem valueFrom_eq {t : Text} (h : ∀ c ∈ t, c.isDigit = true) (v : Nat) :
    valueFrom v t = Nat.ofDigitChars 10 t v := by
  induction t generalizing v with
  | nil => rfl
  | cons c t ih =>
    obtain ⟨hc, hrest⟩ := List.forall_mem_cons.mp h
    rw [valueFrom, decimalDigit?_of_isDigit hc, ih hrest, Nat.mul_comm v]
    rfl

namespace Writes

variable {t : Text} {n : Nat}

protected theorem decimal (h : Writes t n) : t.Decimal := by
  refine ⟨h.ne_nil, fun c hc => ?_⟩
  rw [decimalDigit?_of_isDigit (h.digits c hc)]
  rfl

theorem value_eq (h : Writes t n) : Numeral.value t = n :=
  (valueFrom_eq h.digits 0).trans h.value

/-- Every number is written by its own digits, if they are not too many. -/
theorem toDigits (n : Nat) (h : (Nat.toDigits 10 n).length ≤ digitLimit) :
    Writes (Nat.toDigits 10 n) n where
  ne_nil := Nat.toDigits_ne_nil
  digits _ hc := Nat.isDigit_of_mem_toDigits (by decide) (by decide) hc
  short := h
  value := Nat.ofDigitChars_toDigits (by decide) (by decide)

end Writes

end Numeral

end Typeahead
